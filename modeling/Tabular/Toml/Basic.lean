/-!
# Tabular.Toml.Basic — TOML values and tables

A `Table` lists its entries by key and says how it came about: by a header of its own, or only as a step
on the way to another one (`implicit`), by a header or by a dotted key (`dotted`).  `Table.descend?` and
`Table.insert?` grow a table under the rule that nothing is defined twice.
-/

namespace Tabular.Toml

/-- What a key stands for. -/
inductive Node where
  | string (s : String)
  | integer (n : Int)
  | boolean (b : Bool)
  | float (lexeme : String)
  /-- A date, a time or both, by its lexeme. -/
  | dateTime (lexeme : String)
  | array (items : List Node)
  /-- A table written between braces, which cannot be extended. -/
  | inlineTable (entries : List (String × Node))
  /-- A table that headers or dotted keys may extend. -/
  | table (implicit dotted : Bool) (entries : List (String × Node))
  /-- The tables of a repeated header, the last one first. -/
  | tables (items : List (List (String × Node)))
deriving Inhabited

/-- A table under construction. -/
structure Table where
  /-- Whether no header has defined it. -/
  implicit : Bool := false
  /-- Whether dotted keys define it. -/
  dotted : Bool := false
  /-- Its entries, in the order of their keys' first use. -/
  entries : List (String × Node) := []
deriving Inhabited

namespace Table

/-- The node under a key. -/
def find? (t : Table) (key : String) : Option Node := t.entries.lookup key

/-- The table with the node under a key replaced, or added at the end. -/
def set (t : Table) (key : String) (node : Node) : Table :=
  if t.entries.any (·.1 == key) then
    { t with entries := t.entries.map fun e => if e.1 == key then (key, node) else e }
  else { t with entries := t.entries ++ [(key, node)] }

/-- The table without the node under a key. -/
def erase (t : Table) (key : String) : Table :=
  { t with entries := t.entries.filter (·.1 != key) }

/-- The table as a node. -/
def toNode (t : Table) : Node := .table t.implicit t.dotted t.entries

/-- Changes the table at the end of a path, where `dotted` says that the path stems from a dotted key.
Missing tables are added on the way; a repeated header stands for its last table. -/
def descend? (dotted : Bool) (change : Table → Option Table) : List String → Table → Option Table
  | [], t => change t
  | key :: path, t =>
    match t.find? key with
    | none => do
      let child ← descend? dotted change path { implicit := true, dotted }
      return t.set key child.toNode
    | some (.table implicit wasDotted entries) =>
      if dotted && !implicit then none
      else do
        let child ← descend? dotted change path { implicit, dotted := wasDotted, entries }
        return t.set key child.toNode
    | some (.tables (last :: others)) => do
      let child ← descend? dotted change path { entries := last }
      return t.set key (.tables (child.entries :: others))
    | some _ => none

/-- Adds a key with its value at the end of a dotted path. -/
def insert? (t : Table) (path : List String) (key : String) (value : Node) : Option Table :=
  descend? true (fun target =>
    -- a dotted key may not reach into a table that a header defines, nor the other way round
    if target.dotted = path.isEmpty then none
    else if (target.find? key).isSome then none
    else some (target.set key value)) path t

end Table

end Tabular.Toml
