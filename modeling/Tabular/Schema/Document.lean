import Tabular.Json.Printer
import Tabular.Json.Record
import Tabular.Schema.Check

/-!
# Tabular.Schema.Document — schemas as JSON documents

`TableSchema.document` is the text under which a catalog stores a schema.  `ofDocument` reads one back.
A reader takes the members of an object in any order and skips the ones it does not know; of the ones
it knows all but `indexes` are needed and none may be repeated.  A record may also be written as an
array of its members in their order, and a column type as an object with the single member of its
name and the value null.  The first fault of a text, from left to right, is the one that is reported.
Reading does not validate; `ofDocumentChecked` does.
-/

namespace Tabular

/-- The JSON value of a column. -/
def Column.toJson (c : Column) : Json :=
  .object [("name", .string c.name), ("field_type", .string c.type.name),
    ("nullable", .boolean c.nullable)]

namespace TableSchema

/-- The JSON value of a schema. -/
def toJson (s : TableSchema) : Json :=
  .object [("name", .string s.name), ("fields", .array (s.columns.map Column.toJson)),
    ("primary_keys", Json.ofStrings s.primaryKey), ("indexes", Json.ofStrings s.indexes)]

/-- The stored text of a schema. -/
def document (s : TableSchema) : String := s.toJson.render

end TableSchema

/-! ### Reading -/

/-- The columns, keys and indexes of a schema document as far as they are read. -/
structure TableSchema.Draft where
  name : Option String := none
  columns : Option (List Column) := none
  primaryKey : Option (List String) := none
  indexes : Option (List String) := none

/-- The parts of a column as far as they are read. -/
structure Column.Draft where
  name : Option String := none
  type : Option FieldType := none
  nullable : Option Bool := none

namespace FieldType

open Json

/-- Reads the name of a column type. -/
def readName (cs : List Char) : Except Fault (FieldType × List Char) := do
  let (name, rest) ← readString "variant identifier" cs
  match ofName? name with
  | some type => return (type, rest)
  | none => stopBefore (.unknownName name (all.map FieldType.name)) rest

/-- Reads a column type: its name, or an object with that name as its only member, null. -/
def read (cs : List Char) : Except Fault (FieldType × List Char) :=
  match skipBlanks cs with
  | [] => stopBefore (.unfinished .value) []
  | c :: rest =>
    if c = '"' then readName (c :: rest)
    else if c = '{' then do
      let (type, rest) ← readName rest
      match skipBlanks (← skipNull (← afterColon rest)) with
      | [] => stopBefore (.unfinished .object) []
      | c :: rest => if c = '}' then return (type, rest) else stopBefore .noValue (c :: rest)
    else stopAt .noValue (c :: rest)

end FieldType

namespace Column

open Json

/-- How a column is read. -/
def form : Form Draft Column where
  name := "struct FieldDef"
  empty := { }
  members :=
    [.of "name" Draft.name (fun v d => { d with name := some v }) (readString "a string"),
      .of "field_type" Draft.type (fun v d => { d with type := some v }) FieldType.read,
      .of "nullable" Draft.nullable (fun v d => { d with nullable := some v }) readBoolean]
  finish d := do
    return {
      name := ← needed "name" d.name
      type := ← needed "field_type" d.type
      nullable := ← needed "nullable" d.nullable }

end Column

namespace TableSchema

open Json

/-- How a schema is read; without indexes it has none. -/
def form : Form Draft TableSchema where
  name := "struct TableSchema"
  empty := { }
  members :=
    [.of "name" Draft.name (fun v d => { d with name := some v }) (readString "a string"),
      .of "fields" Draft.columns (fun v d => { d with columns := some v }) (readList Column.form.read),
      .of "primary_keys" Draft.primaryKey (fun v d => { d with primaryKey := some v })
        (readList (readString "a string")),
      .of "indexes" Draft.indexes (fun v d => { d with indexes := some v })
        (readList (readString "a string"))]
  finish d := do
    return {
      name := ← needed "name" d.name
      columns := ← needed "fields" d.columns
      primaryKey := ← needed "primary_keys" d.primaryKey
      indexes := d.indexes.getD [] }

/-- Reads the stored text of a schema, without validating it. -/
def ofDocument (text : String) : Except StoreError TableSchema :=
  (readAll form.read text).mapError fun fault => .serialization (fault.message text)

/-- Reads the stored text of a schema and validates it. -/
def ofDocumentChecked (text : String) : Except StoreError TableSchema := do
  let schema ← ofDocument text
  schema.validate
  return schema

end TableSchema

end Tabular
