import Tabular.Catalog.Tabled
import Tabular.Versioned.Call

/-!
# Tabular.Definition — creating and dropping tables

A table is its storage and its entry in the catalog.  Creating and dropping a table look at the catalog
first, then change the storage, then the catalog.  If the storage turns out to disagree with the
catalog, or the last step fails, the two are out of step, which is reported as a `consistency` error.
-/

namespace Tabular

/-- A way to create, drop and describe tables. -/
structure Definition (m : Type → Type u) where
  kind : StorageKind
  createTable : TableSchema → Attempt m Unit
  dropTable : String → Attempt m Unit
  schemaOf : String → Attempt m TableSchema

namespace Definition

variable {m : Type → Type u} [Monad m] [Journal m]

/-- Whether there is a table of a name. -/
def isDefined (d : Definition m) (table : String) : Attempt m Bool := do
  match ← (d.schemaOf table).outcome with
  | .ok _ => return true
  | .error (.tableNotFound _) => return false
  | .error e => throw e

/-- Reports that storage and catalog are out of step. -/
def diverged {α : Type} (table detail : String) : Attempt m α := do
  report (.error s!"Storage and registry diverged for table '{table}': {detail}")
  throw (.consistency table detail)

/-- Creates a table, where `createStorage` creates its storage. -/
def create (catalog : Catalog m) (createStorage : TableSchema → Attempt m Unit) (schema : TableSchema) :
    Attempt m Unit := do
  Attempt.of schema.validate
  match ← (catalog.find schema.name).outcome with
  | .ok _ => throw (.tableAlreadyExists schema.name)
  | .error (.tableNotFound _) => pure ()
  | .error e => throw e
  match ← (createStorage schema).outcome with
  | .ok () => pure ()
  | .error (.tableAlreadyExists _) =>
    diverged schema.name "backend storage exists without a registry entry"
  | .error e => throw e
  match ← (catalog.register schema).outcome with
  | .ok () => pure ()
  | .error e => diverged schema.name s!"storage created but registering the schema failed: {e}"
  report (.info s!"Created table {schema.name} with {schema.columns.length} fields")

/-- Drops a table, where `dropStorage` drops its storage. -/
def drop (catalog : Catalog m) (dropStorage : String → Attempt m Unit) (table : String) :
    Attempt m Unit := do
  let _ ← catalog.find table
  match ← (dropStorage table).outcome with
  | .ok () => pure ()
  | .error (.tableNotFound _) => diverged table "registry entry exists without backend storage"
  | .error e => throw e
  match ← (catalog.remove table).outcome with
  | .ok () => pure ()
  | .error e => diverged table s!"storage dropped but removing the schema failed: {e}"
  report (.info s!"Dropped table {table}")

/-- Tables in a versioned store. -/
def versioned (store : VersionedAccess m) (catalog : Catalog m) : Definition m where
  kind := .versioned
  createTable := create catalog fun schema => store (.createTable schema.name)
  dropTable := drop catalog fun table => store (.dropTable table)
  schemaOf := catalog.find

/-- That the name of the catalog's own table cannot be used. -/
def reservedName : StoreError :=
  .invalidSchema Catalog.catalogTable "table name is reserved for the schema registry"

/-- Tables in a relational database. -/
def relational (db : RelationalAccess m) (catalog : Catalog m) : Definition m where
  kind := .relational
  createTable schema :=
    if schema.name = Catalog.catalogTable then throw reservedName
    else
      create catalog
        (fun schema => db.withConnection fun session => db.perform (.createTable session schema)) schema
  dropTable :=
    drop catalog fun table => db.withConnection fun session => db.perform (.dropTable session table)
  schemaOf := catalog.find

end Definition

end Tabular
