import Tabular.Toml.Basic
import Tabular.Toml.Scalar

/-!
# Tabular.Toml.Reader — reading TOML text

`parse?` reads a whole document into its root table, or answers `none` if the text is malformed or
defines something twice.  Arrays and inline tables nest at most 79 deep, and a key has at most 79 parts.
-/

namespace Tabular.Toml

/-- A reader takes a value from the front of a text. -/
abbrev Reader (α : Type) := List Char → Option (α × List Char)

/-- Whether a character is a blank within a line. -/
def isBlank (c : Char) : Bool := c = ' ' || c = '\t'

/-- The text after the blanks at its start. -/
def skipBlanks (cs : List Char) : List Char := cs.dropWhile isBlank

/-- Whether a character may stand in a text or a comment as itself. -/
def isPrintable (c : Char) : Bool := c = '\t' || (' ' ≤ c && c ≠ '\x7f')

/-- The text after a line break at its start. -/
def afterLineBreak? : List Char → Option (List Char)
  | '\n' :: rest => some rest
  | '\r' :: '\n' :: rest => some rest
  | _ => none

/-- The text after a comment that starts here, if one does. -/
def skipComment : List Char → List Char
  | '#' :: rest => rest.dropWhile isPrintable
  | cs => cs

/-- The text after the end of a line: blanks, a comment, then a line break or the end of the text. -/
def afterLine? (cs : List Char) : Option (List Char) :=
  match skipComment (skipBlanks cs) with
  | [] => some []
  | rest => afterLineBreak? rest

/-- The text after blanks, comments and line breaks; `fuel` bounds their number. -/
def skipLines : Nat → List Char → List Char
  | 0, cs => cs
  | fuel + 1, cs =>
    let rest := skipComment (skipBlanks cs)
    match afterLineBreak? rest with
    | some next => skipLines fuel next
    | none => rest

/-! ### Texts -/

/-- The character of a code point, unless it is half of a surrogate pair or too large. -/
def ofCodePoint? (n : Nat) : Option Char := if h : n.isValidChar then some (Char.ofNatAux n h) else none

/-- Reads an escape after its backslash. -/
def escape? : Reader Char
  | 'b' :: rest => some ('\x08', rest)
  | 't' :: rest => some ('\t', rest)
  | 'n' :: rest => some ('\n', rest)
  | 'f' :: rest => some ('\x0c', rest)
  | 'r' :: rest => some ('\r', rest)
  | '"' :: rest => some ('"', rest)
  | '\\' :: rest => some ('\\', rest)
  | 'u' :: a :: b :: c :: d :: rest => do
    return (← ofCodePoint? (← Hex.toNat? [a, b, c, d]), rest)
  | 'U' :: a :: b :: c :: d :: e :: f :: g :: h :: rest => do
    return (← ofCodePoint? (← Hex.toNat? [a, b, c, d, e, f, g, h]), rest)
  | _ => none

/-- Reads a text of one line after its opening double quote; `fuel` bounds its length. -/
def basicText? : Nat → Reader (List Char)
  | 0, _ => none
  | _ + 1, '"' :: rest => some ([], rest)
  | fuel + 1, '\\' :: rest => do
    let (c, rest) ← escape? rest
    let (cs, after) ← basicText? fuel rest
    return (c :: cs, after)
  | fuel + 1, c :: rest =>
    if isPrintable c then do
      let (cs, after) ← basicText? fuel rest
      return (c :: cs, after)
    else none
  | _ + 1, [] => none

/-- Reads a text of one line after its opening apostrophe. -/
def literalText? (cs : List Char) : Option (List Char × List Char) :=
  match cs.span fun c => isPrintable c && c ≠ '\x27' with
  | (body, '\x27' :: rest) => some (body, rest)
  | _ => none

/-- The quotes at the start of a text after three closing ones, at most two, which belong to the body. -/
def extraQuotes (q : Char) (cs : List Char) : List Char × List Char :=
  match cs with
  | a :: b :: rest =>
    if a = q ∧ b = q then ([q, q], rest) else if a = q then ([q], b :: rest) else ([], cs)
  | [a] => if a = q then ([q], []) else ([], cs)
  | [] => ([], [])

/-- The text after blanks and line breaks that hold at least one line break; `fuel` bounds them. -/
def afterJoinedLines? (fuel : Nat) (cs : List Char) : Option (List Char) := do
  return skip fuel (← afterLineBreak? (skipBlanks cs))
where
  skip : Nat → List Char → List Char
    | 0, cs => cs
    | fuel + 1, cs =>
      match afterLineBreak? (skipBlanks cs) with
      | some rest => skip fuel rest
      | none => skipBlanks cs

/-- Reads a text of several lines up to its three closing quotes `q`, with escapes if `escapes`. -/
def longText? (q : Char) (escapes : Bool) : Nat → Reader (List Char)
  | 0, _ => none
  | _ + 1, [] => none
  | fuel + 1, c :: rest =>
    if c = q then
      match rest with
      | a :: b :: after =>
        if a = q ∧ b = q then
          let (extra, after) := extraQuotes q after
          some (extra, after)
        else do
          let (cs, after) ← longText? q escapes fuel rest
          return (c :: cs, after)
      | _ => none
    else if c = '\\' ∧ escapes then
      match afterJoinedLines? fuel rest with
      | some rest => longText? q escapes fuel rest
      | none => do
        let (c, rest) ← escape? rest
        let (cs, after) ← longText? q escapes fuel rest
        return (c :: cs, after)
    else
      match afterLineBreak? (c :: rest) with
      | some rest => do
        let (cs, after) ← longText? q escapes fuel rest
        return ('\n' :: cs, after)
      | none =>
        if isPrintable c then do
          let (cs, after) ← longText? q escapes fuel rest
          return (c :: cs, after)
        else none

/-- The text after a line break at its start, if there is one. -/
def dropLineBreak (cs : List Char) : List Char := (afterLineBreak? cs).getD cs

/-- Reads a text in any of its four forms. -/
def text? (cs : List Char) : Option (String × List Char) := do
  let fuel := cs.length + 1
  let (body, rest) ←
    match cs with
    | '"' :: '"' :: '"' :: rest => longText? '"' true fuel (dropLineBreak rest)
    | '\x27' :: '\x27' :: '\x27' :: rest => longText? '\x27' false fuel (dropLineBreak rest)
    | '"' :: rest => basicText? fuel rest
    | '\x27' :: rest => literalText? rest
    | _ => none
  return (String.ofList body, rest)

/-! ### Keys -/

/-- Whether a character may stand in a key without quotes. -/
def isBareKeyChar (c : Char) : Bool := c.isAlphanum || c = '_' || c = '-'

/-- Reads one part of a key. -/
def keyPart? (cs : List Char) : Option (String × List Char) :=
  match cs with
  | '"' :: rest => do
    let (body, rest) ← basicText? (rest.length + 1) rest
    return (String.ofList body, rest)
  | '\x27' :: rest => do
    let (body, rest) ← literalText? rest
    return (String.ofList body, rest)
  | _ =>
    match cs.span isBareKeyChar with
    | ([], _) => none
    | (body, rest) => some (String.ofList body, rest)

/-- Reads the parts of a key with points between them, and the blanks around them. -/
def keyParts? : Nat → Reader (List String)
  | 0, _ => none
  | fuel + 1, cs => do
    let (part, rest) ← keyPart? (skipBlanks cs)
    match skipBlanks rest with
    | '.' :: rest =>
      let (parts, rest) ← keyParts? fuel rest
      return (part :: parts, rest)
    | rest => return ([part], rest)

/-- The greatest depth of nested values and the greatest number of parts of a key, both excluded. -/
def depthLimit : Nat := 80

/-- Reads a key: the parts in front of the last one, and the last one. -/
def key? (cs : List Char) : Option ((List String × String) × List Char) := do
  let (parts, rest) ← keyParts? (cs.length + 1) cs
  let last ← parts.getLast?
  if depthLimit ≤ parts.length then none else return ((parts.dropLast, last), rest)

/-! ### Values -/

/-- Reads a bare word. -/
def word? (cs : List Char) : Option (Node × List Char) :=
  let (word, rest) := cs.span isWordChar
  let lexeme := String.ofList word
  if word = "true".toList then some (.boolean true, rest)
  else if word = "false".toList then some (.boolean false, rest)
  else
    match integer? word with
    | some n => some (.integer n, rest)
    | none =>
      if isFloat word then some (.float lexeme, rest)
      else if isDateTime word then
        -- a date may be followed by a time after a single blank
        match afterDate? word, rest with
        | some [], ' ' :: more =>
          let (time, after) := more.span isWordChar
          if time ≠ [] ∧ isTimeWithOffset time then
            some (.dateTime (lexeme ++ " " ++ String.ofList time), after)
          else some (.dateTime lexeme, rest)
        | _, _ => some (.dateTime lexeme, rest)
      else none

mutual

/-- Reads a value at the given depth of nesting; `fuel` bounds the number of nested calls. -/
def value? : Nat → Nat → Reader Node
  | 0, _, _ => none
  | fuel + 1, depth, cs =>
    match cs with
    | '[' :: rest =>
      if depthLimit ≤ depth + 1 then none
      else do
        let (items, rest) ← items? fuel (depth + 1) (skipLines fuel rest)
        return (.array items, rest)
    | '{' :: rest =>
      if depthLimit ≤ depth + 1 then none
      else
        match skipBlanks rest with
        | '}' :: rest => some (.inlineTable [], rest)
        | rest => do
          let (table, rest) ← entries? fuel (depth + 1) { } rest
          return (.inlineTable table.entries, rest)
    | '"' :: _ | '\x27' :: _ => do
      let (s, rest) ← text? cs
      return (.string s, rest)
    | _ => word? cs

/-- Reads the items of an array up to its closing bracket. -/
def items? : Nat → Nat → Reader (List Node)
  | 0, _, _ => none
  | _ + 1, _, ']' :: rest => some ([], rest)
  | fuel + 1, depth, cs => do
    let (item, rest) ← value? fuel depth cs
    match skipLines fuel rest with
    | ',' :: rest =>
      let (items, rest) ← items? fuel depth (skipLines fuel rest)
      return (item :: items, rest)
    | ']' :: rest => return ([item], rest)
    | _ => none

/-- Reads the entries of an inline table, added to those in `table`, up to its closing brace. -/
def entries? : Nat → Nat → Table → Reader Table
  | 0, _, _, _ => none
  | fuel + 1, depth, table, cs => do
    let ((path, key), rest) ← key? cs
    match rest with
    | '=' :: rest =>
      let (value, rest) ← value? fuel depth (skipBlanks rest)
      let table ← table.insert? path key value
      match skipBlanks rest with
      | ',' :: rest => entries? fuel depth table rest
      | '}' :: rest => return (table, rest)
      | _ => none
    | _ => none

end

/-! ### Documents -/

/-- A document while it is read: the finished tables, and the one under the current header. -/
structure Draft where
  /-- The root with every finished table in its place. -/
  root : Table := { }
  /-- The table under the current header. -/
  current : Table := { }
  /-- The path of the current header, or `none` in front of the first one. -/
  path : Option (List String × String) := none
  /-- Whether the current header is a repeated one. -/
  repeated : Bool := false

/-- Puts the table under the current header in its place. -/
def Draft.finish? (d : Draft) : Option Table :=
  match d.path with
  | none => some d.current
  | some (path, key) =>
    Table.descend? false (fun parent =>
      if d.repeated then
        match parent.find? key with
        | none => some (parent.set key (.tables [d.current.entries]))
        | some (.tables items) => some (parent.set key (.tables (d.current.entries :: items)))
        | some _ => none
      else
        match parent.find? key with
        | none => some (parent.set key d.current.toNode)
        | some (.table true _ _) => some (parent.set key d.current.toNode)
        | some _ => none) path d.root

/-- The table that a header at the given place continues, if it may stand there. -/
def continued? (key : String) (parent : Table) : Option Table :=
  match parent.find? key with
  | none => some { }
  | some (.table true false entries) => some { entries }
  | some _ => none

/-- Starts the table of a plain header.  A table that exists only as a step on a path goes on there. -/
def Draft.startTable? (d : Draft) (path : List String) (key : String) : Option Draft := do
  let root ← d.finish?
  let opened ← Table.descend? false (fun parent => do
    let _ ← continued? key parent
    return parent) path root
  let target ← lookup path opened
  let current ← continued? key target
  let root ← Table.descend? false (fun parent => some (parent.erase key)) path opened
  return { root, current, path := some (path, key) }
where
  /-- The table at the end of a path that is there. -/
  lookup : List String → Table → Option Table
    | [], t => some t
    | key :: path, t =>
      match t.find? key with
      | some (.table implicit dotted entries) => lookup path { implicit, dotted, entries }
      | some (.tables (last :: _)) => lookup path { entries := last }
      | _ => none

/-- Starts a further table of a repeated header. -/
def Draft.startRepeated? (d : Draft) (path : List String) (key : String) : Option Draft := do
  let root ← d.finish?
  let root ← Table.descend? false (fun parent =>
    match parent.find? key with
    | none => some parent
    | some (.tables _) => some parent
    | some _ => none) path root
  return { root, path := some (path, key), repeated := true }

/-- Reads a header line after its first bracket. -/
def header? (d : Draft) : Reader Draft
  | '[' :: rest => do
    let ((path, key), rest) ← key? rest
    match rest with
    | ']' :: ']' :: rest => return (← d.startRepeated? path key, rest)
    | _ => none
  | rest => do
    let ((path, key), rest) ← key? rest
    match rest with
    | ']' :: rest => return (← d.startTable? path key, rest)
    | _ => none

/-- Reads a line with a key and its value. -/
def entryLine? (d : Draft) (cs : List Char) : Option (Draft × List Char) := do
  let ((path, key), rest) ← key? cs
  match rest with
  | '=' :: rest =>
    let (value, rest) ← value? (2 * rest.length + 2) 0 (skipBlanks rest)
    let current ← d.current.insert? path key value
    return ({ d with current }, rest)
  | _ => none

/-- Reads line after line; `fuel` bounds their number. -/
def lines? : Nat → Draft → List Char → Option Draft
  | 0, _, _ => none
  | fuel + 1, d, cs =>
    match skipBlanks cs with
    | [] => some d
    | rest =>
      match afterLine? rest with
      | some next => lines? fuel d next
      | none => do
        let (d, rest) ←
          match rest with
          | '[' :: rest => header? d rest
          | _ => entryLine? d rest
        lines? fuel d (← afterLine? rest)

/-- Reads a whole document; a byte-order mark in front is skipped. -/
def parse? (text : String) : Option Table := do
  let cs :=
    match text.toList with
    | '\uFEFF' :: rest => rest
    | cs => cs
  (← lines? (cs.length + 1) { } cs).finish?

end Tabular.Toml
