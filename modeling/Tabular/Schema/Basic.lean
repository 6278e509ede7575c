import Tabular.Error
import Tabular.Key
import Tabular.Row

/-!
# Tabular.Schema.Basic — table schemas, and what fits them

A `TableSchema` names its columns in declaration order, the columns of its primary key and its index
columns.  `checkRow` and `checkCell` decide whether a row or a cell fits, `keyOf`, `keyFromValues` and
`keyToRow` pass between rows and keys, `mergeRow` lays an update over an existing row.  A schema is a
plain record: which schemas are well formed is said in `Tabular.Schema.Check`.
-/

namespace Tabular

/-- A column of a table. -/
structure Column where
  name : String
  type : FieldType
  nullable : Bool
deriving DecidableEq, Repr, Inhabited

structure TableSchema where
  name : String
  /-- The columns in declaration order. -/
  columns : List Column
  primaryKey : List String
  indexes : List String
deriving DecidableEq, Repr, Inhabited

/-- The ways in which a row, a cell or a key may fail to fit a schema. -/
inductive RowFlaw where
  | unknownColumn (column : String)
  | nullCell (column : String)
  | wrongType (column : String) (expected actual : FieldType)
  | missingCell (column : String)
  | missingKey (column : String)
  | unknownKeyColumn (column : String)
  | unfitKey (column : String)
  | keyArity (expected actual : Nat)
deriving DecidableEq, Repr

/-- The wording of a flaw. -/
def RowFlaw.reason : RowFlaw → String
  | unknownColumn column => s!"unknown column '{column}'"
  | nullCell column => s!"column '{column}' is not nullable"
  | wrongType column expected actual => s!"column '{column}' expects {expected}, got {actual}"
  | missingCell column => s!"missing value for non-nullable column '{column}'"
  | missingKey column => s!"missing primary key column '{column}'"
  | unknownKeyColumn column => s!"unknown key column '{column}'"
  | unfitKey column => s!"value for key column '{column}' cannot be a key"
  | keyArity expected actual => s!"expected {expected} key values, got {actual}"

/-- Decides whether a value may stand in a column. -/
def Column.checkCell (column : Column) (value : Value) : Except RowFlaw Unit :=
  match value.fieldType? with
  | none => if column.nullable then .ok () else .error (.nullCell column.name)
  | some actual =>
    if actual = column.type then .ok () else .error (.wrongType column.name column.type actual)

namespace TableSchema

/-- The column of the given name, the first one if there are several. -/
def column? (s : TableSchema) (name : String) : Option Column := s.columns.find? (·.name == name)

/-- The declared columns of the primary key, in key order. -/
def keyColumns (s : TableSchema) : List Column := s.primaryKey.filterMap s.column?

/-! ### Rows -/

/-- Decides whether a cell of a row fits the schema. -/
def checkCell (s : TableSchema) (cell : String × Value) : Except RowFlaw Unit :=
  match s.column? cell.1 with
  | none => .error (.unknownColumn cell.1)
  | some column => column.checkCell cell.2

/-- Decides whether a column that needs a value has one. -/
def checkPresent (row : Row) (column : Column) : Except RowFlaw Unit :=
  if column.nullable ∨ column.name ∈ row then .ok () else .error (.missingCell column.name)

/-- Decides whether a complete row fits: its cells in the order of their columns' names first, the
columns that need a value second. -/
def checkRow (s : TableSchema) (row : Row) : Except RowFlaw Unit := do
  row.toList.forM s.checkCell
  s.columns.forM (checkPresent row)

/-- Reports a flaw as an error about this table. -/
def reportRow {α : Type} (s : TableSchema) : Except RowFlaw α → Except StoreError α :=
  Except.mapError fun flaw => .invalidRow s.name flaw.reason

/-- Validates a complete row. -/
def validateRow (s : TableSchema) (row : Row) : Except StoreError Unit := s.reportRow (s.checkRow row)

/-- Lays `update` over the existing row, if there is one, and validates the result. -/
def mergeRow (s : TableSchema) (existing : Option Row) (update : Row) : Except StoreError Row := do
  let merged :=
    match existing with
    | some current => current.overlay update
    | none => update
  s.validateRow merged
  return merged

/-! ### Keys -/

/-- The key part made from the value of a key column. -/
def keyPart (s : TableSchema) (column : String) (value : Value) : Except RowFlaw KeyPart :=
  match s.column? column with
  | none => .error (.unknownKeyColumn column)
  | some declared => do
    declared.checkCell value
    match KeyPart.ofValue? value with
    | some part => .ok part
    | none => .error (.unfitKey column)

/-- The key part found in a row under the name of a key column. -/
def keyPartOf (s : TableSchema) (row : Row) (column : String) : Except RowFlaw KeyPart :=
  match row[column]? with
  | none => .error (.missingKey column)
  | some value => s.keyPart column value

/-- The primary key of a row. -/
def keyOf (s : TableSchema) (row : Row) : Except StoreError RowKey :=
  s.reportRow (RowKey.mk <$> s.primaryKey.mapM (s.keyPartOf row))

/-- The key made from values in key order. -/
def keyFromValues (s : TableSchema) (values : List Value) : Except StoreError RowKey :=
  s.reportRow <|
    if values.length = s.primaryKey.length then
      RowKey.mk <$> (s.primaryKey.zip values).mapM fun pair => s.keyPart pair.1 pair.2
    else .error (.keyArity s.primaryKey.length values.length)

/-- The parts of a key as a row, under the names of the key columns. -/
def keyToRow (s : TableSchema) (key : RowKey) : Row :=
  Row.ofCells (s.primaryKey.zip (key.parts.map KeyPart.toValue))

end TableSchema

end Tabular
