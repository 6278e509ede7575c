import Tabular.Schema.Basic

/-!
# Tabular.Schema.Check — which schemas are accepted

`check` walks a schema and answers the first flaw it meets: the names of the table and the columns,
then the primary key, then the indexes.  The key columns are compared one by one with the position of
the key column before, so a key that passes lists its columns in declaration order.
`TableSchema.build` makes a schema that has passed.
-/

namespace Tabular

/-- The ways in which a schema may be ill formed. -/
inductive SchemaFlaw where
  | emptyTableName
  | noColumns
  | emptyColumnName
  | duplicateColumn (column : String)
  | noPrimaryKey
  | undeclaredKey (column : String)
  | repeatedKey (column : String)
  | misplacedKey (column : String)
  | unfitKeyType (column : String) (type : FieldType)
  | nullableKey (column : String)
  | undeclaredIndex (column : String)
  | keyIndex (column : String)
deriving DecidableEq, Repr

/-- The wording of a flaw. -/
def SchemaFlaw.reason : SchemaFlaw → String
  | emptyTableName => "table name is empty"
  | noColumns => "no columns declared"
  | emptyColumnName => "column name is empty"
  | duplicateColumn column => s!"column '{column}' declared more than once"
  | noPrimaryKey => "primary key is empty"
  | undeclaredKey column => s!"primary key column '{column}' is not declared"
  | repeatedKey column => s!"primary key column '{column}' listed twice"
  | misplacedKey column => s!"primary key column '{column}' is out of declaration order"
  | unfitKeyType column type => s!"primary key column '{column}' has type {type} which cannot be a key"
  | nullableKey column => s!"primary key column '{column}' is nullable"
  | undeclaredIndex column => s!"index column '{column}' is not declared"
  | keyIndex column => s!"index column '{column}' is part of the primary key"

namespace TableSchema

/-- Checks that the column names are not empty and differ from each other and from those in `seen`. -/
def checkNames (seen : List String) : List Column → Except SchemaFlaw Unit
  | [] => .ok ()
  | column :: rest =>
    if column.name = "" then .error .emptyColumnName
    else if column.name ∈ seen then .error (.duplicateColumn column.name)
    else checkNames (column.name :: seen) rest

/-- The first column of the given name with its position. -/
def position? (columns : List Column) (name : String) : Option (Nat × Column) :=
  (columns.zipIdx.find? (·.1.name == name)).map fun found => (found.2, found.1)

/-- Checks that a key column stands after the position of the key column before it, if any. -/
def checkOrder (last : Option Nat) (position : Nat) (name : String) : Except SchemaFlaw Unit :=
  match last with
  | none => .ok ()
  | some before =>
    if position = before then .error (.repeatedKey name)
    else if position < before then .error (.misplacedKey name)
    else .ok ()

/-- Checks that a column may be part of a key. -/
def checkKeyColumn (name : String) (column : Column) : Except SchemaFlaw Unit :=
  if column.type.isKeyCapable then
    if column.nullable then .error (.nullableKey name) else .ok ()
  else .error (.unfitKeyType name column.type)

/-- Checks the key columns in turn; `last` is the position of the one before. -/
def checkKeys (columns : List Column) (last : Option Nat) : List String → Except SchemaFlaw Unit
  | [] => .ok ()
  | name :: rest =>
    match position? columns name with
    | none => .error (.undeclaredKey name)
    | some (position, column) => do
      checkOrder last position name
      checkKeyColumn name column
      checkKeys columns (some position) rest

/-- Checks that an index column is declared and not part of the primary key. -/
def checkIndex (s : TableSchema) (name : String) : Except SchemaFlaw Unit :=
  if (s.column? name).isNone then .error (.undeclaredIndex name)
  else if name ∈ s.primaryKey then .error (.keyIndex name)
  else .ok ()

/-- The first flaw of a schema, if it has one. -/
def check (s : TableSchema) : Except SchemaFlaw Unit := do
  if s.name = "" then throw .emptyTableName
  if s.columns = [] then throw .noColumns
  checkNames [] s.columns
  if s.primaryKey = [] then throw .noPrimaryKey
  checkKeys s.columns none s.primaryKey
  s.indexes.forM s.checkIndex

/-- Accepts a schema without flaw. -/
def validate (s : TableSchema) : Except StoreError Unit :=
  s.check.mapError fun flaw => .invalidSchema s.name flaw.reason

/-- The schema of the given parts, if it has no flaw. -/
def build (name : String) (columns : List Column) (primaryKey indexes : List String) :
    Except StoreError TableSchema := do
  let schema : TableSchema := { name, columns, primaryKey, indexes }
  schema.validate
  return schema

end TableSchema

end Tabular
