import Tabular.Catalog.Basic
import Tabular.Journal
import Tabular.Relational.Call

/-!
# Tabular.Catalog.Tabled — the catalog in a table of a relational database

`catalogTable` has a row per table, with the document of its schema.  Adding and removing a row is a
transaction of its own.  `findOn` reads a schema on a connection that its caller already has.
-/

namespace Tabular.Catalog

variable {m : Type → Type u} [Monad m] [Journal m]

/-- The name of the table that holds the catalog. -/
def catalogTable : String := "structured_table_registry"

def nameColumn : String := "table_name"

/-- The column of the document of a schema. -/
def documentColumn : String := "specification"

/-- The schema of the table that holds the catalog. -/
def catalogSchema : TableSchema where
  name := catalogTable
  columns := [⟨nameColumn, .string, false⟩, ⟨documentColumn, .string, false⟩]
  primaryKey := [nameColumn]
  indexes := []

def rowKey (table : String) : RowKey := ⟨[.string table]⟩

/-- The row of a table with the given schema. -/
def catalogRow (schema : TableSchema) : Row :=
  Row.ofCells [(nameColumn, .string schema.name), (documentColumn, .string schema.document)]

/-- That the table of the catalog is missing says nothing about the table that was asked for. -/
def restateMissing : StoreError → StoreError
  | .tableNotFound table =>
    if table = catalogTable then .connection s!"registry table {catalogTable} does not exist"
    else .tableNotFound table
  | e => e

def schemaOfRow (table : String) (row : Row) : Except StoreError TableSchema :=
  match row[documentColumn]?.bind Value.toString? with
  | some document => TableSchema.ofDocumentChecked document
  | none => .error (.serialization s!"registry row for {table} has no specification")

/-- The row of a table on a connection. -/
def rowOn (db : RelationalAccess m) (session : Nat) (table : String) : Attempt m (Option Row) :=
  Attempt.mapError restateMissing (db.perform (.read session catalogSchema (rowKey table)))

/-- The schema of a table, read on a connection. -/
def findOn (db : RelationalAccess m) (session : Nat) (table : String) : Attempt m TableSchema := do
  match ← rowOn db session table with
  | some row => Attempt.of (schemaOfRow table row)
  | none => throw (.tableNotFound table)

/-- Does something in a short transaction on a connection of its own. -/
def transact (db : RelationalAccess m) (change : Nat → Attempt m Unit) : Attempt m Unit :=
  db.withConnection fun session => do
    db.perform (.begin session)
    match ← (change session).outcome with
    | .ok () => db.perform (.commit session)
    | .error e =>
      if let .error failure ← (db.perform (.rollback session)).outcome then
        report (.warn s!"Registry rollback failed: {failure}")
      throw e

/-- Creates the table of the catalog unless it is there. -/
def prepare (db : RelationalAccess m) : Attempt m Unit :=
  db.withConnection fun session => do
    unless ← db.perform (.tableExists session catalogTable) do
      match ← (db.perform (.createTable session catalogSchema)).outcome with
      | .ok () => report (.info s!"Created registry table {catalogTable}")
      | .error (.tableAlreadyExists _) => return ()
      | .error e => throw e

/-- The catalog kept in a table of a relational database. -/
def tabled (db : RelationalAccess m) : Catalog m where
  kind := .relational
  register schema := transact db fun session => do
    if (← rowOn db session schema.name).isSome then throw (.tableAlreadyExists schema.name)
    Attempt.mapError restateMissing (db.perform (.upsert session catalogSchema (catalogRow schema)))
  find table := db.withConnection fun session => findOn db session table
  findWith _ load := load
  remove table := transact db fun session => do
    if (← rowOn db session table).isNone then throw (.tableNotFound table)
    Attempt.mapError restateMissing (db.perform (.delete session catalogSchema (rowKey table)))
  tableNames := db.withConnection fun session => do
    let rows ← Attempt.mapError restateMissing (db.perform (.scan session catalogSchema))
    return rows.filterMap fun row => row[nameColumn]?.bind Value.toString?

end Tabular.Catalog
