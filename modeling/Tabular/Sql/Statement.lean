import Tabular.Decimal.Shortest
import Tabular.Schema.Basic
import Tabular.Sql.Token

/-!
# Tabular.Sql.Statement — the statements of the relational family

Each definition gives one statement as tokens; `render` gives its text.  The relational engine executes
the corresponding operations itself, the texts are what it reports.
-/

namespace Tabular.Sql

def literal : Value → Statement
  | .null => [.plain "NULL"]
  | .integer v => [.plain (toString v.toInt)]
  | .long v => [.plain (toString v.toInt)]
  | .float bits => [.plain (Shortest.text Shortest.single bits.toNat)]
  | .double bits => [.plain (Shortest.text Shortest.double bits.toNat)]
  | .boolean true => [.plain "TRUE"]
  | .boolean false => [.plain "FALSE"]
  | .string v => [.text v]
  | .bytes v => [.text ("\\x" ++ Hex.ofBytes v), .plain "::bytea"]
  | .decimal unscaled scale => [.plain (Scaled.text unscaled scale)]

/-- The quoted names, with commas between them. -/
def names (columns : List String) : Statement :=
  separated ", " (columns.map fun column => [.identifier column])

def columnDefinition (column : Column) : Statement :=
  [.identifier column.name,
    .plain (" " ++ column.type.sqlType ++ if column.nullable then "" else " NOT NULL")]

def createTable (s : TableSchema) : Statement :=
  let key : Statement := .plain "PRIMARY KEY (" :: names s.primaryKey ++ [.plain ")"]
  [.plain "CREATE TABLE ", .identifier s.name, .plain " ("]
    ++ separated ", " (s.columns.map columnDefinition ++ [key]) ++ [.plain ")"]

/-- Creates the index of one column. -/
def createIndex (s : TableSchema) (column : String) : Statement :=
  [.plain "CREATE INDEX ", .identifier (s.name ++ "_" ++ column ++ "_idx"), .plain " ON ",
    .identifier s.name, .plain " (", .identifier column, .plain ")"]

/-- Creates the indexes of a table, one statement per index column. -/
def createIndexes (s : TableSchema) : List Statement := s.indexes.map (createIndex s)

def dropTable (table : String) : Statement := [.plain "DROP TABLE ", .identifier table]

/-- Takes a column over from the row that was to be inserted. -/
def takeExcluded (column : String) : Statement :=
  [.identifier column, .plain " = EXCLUDED.", .identifier column]

/-- Inserts a row, or updates exactly its columns in the row of the same key. -/
def upsert (s : TableSchema) (row : Row) : Statement :=
  let updates := row.keys.filter (· ∉ s.primaryKey)
  let onConflict : Statement :=
    if updates = [] then [.plain "DO NOTHING"]
    else .plain "DO UPDATE SET " :: separated ", " (updates.map takeExcluded)
  [.plain "INSERT INTO ", .identifier s.name, .plain " ("] ++ names row.keys
    ++ [.plain ") VALUES ("] ++ separated ", " (row.values.map literal)
    ++ [.plain ") ON CONFLICT ("] ++ names s.primaryKey ++ [.plain ") "] ++ onConflict

/-- The condition that the key columns have the parts of a key. -/
def keyCondition (s : TableSchema) (key : RowKey) : Statement :=
  separated " AND " <| (s.primaryKey.zip key.parts).map fun pair =>
    .identifier pair.1 :: .plain " = " :: literal pair.2.toValue

def selectByKey (s : TableSchema) (key : RowKey) : Statement :=
  [.plain "SELECT * FROM ", .identifier s.name, .plain " WHERE "] ++ keyCondition s key

def deleteByKey (s : TableSchema) (key : RowKey) : Statement :=
  [.plain "DELETE FROM ", .identifier s.name, .plain " WHERE "] ++ keyCondition s key

/-- Selects every row in key order. -/
def selectAll (s : TableSchema) : Statement :=
  [.plain "SELECT * FROM ", .identifier s.name, .plain " ORDER BY "] ++ names s.primaryKey

end Tabular.Sql
