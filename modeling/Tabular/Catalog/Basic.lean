import Tabular.Attempt
import Tabular.Schema.Document
import Tabular.Settings.Basic

/-!
# Tabular.Catalog.Basic — which tables there are, and their schemas

A `Catalog` maps table names to schemas.  Registering fails with `tableAlreadyExists` if the name is
taken; finding and removing fail with `tableNotFound` if there is no such table.
-/

namespace Tabular

/-- A way to use a catalog. -/
structure Catalog (m : Type → Type u) where
  /-- The family of storage that the catalog belongs to. -/
  kind : StorageKind
  /-- Adds the schema of a new table. -/
  register : TableSchema → Attempt m Unit
  find : String → Attempt m TableSchema
  /-- The schema of a table, read by the given attempt if the catalog has to look it up. -/
  findWith : String → Attempt m TableSchema → Attempt m TableSchema
  remove : String → Attempt m Unit
  /-- The names of all tables in ascending order. -/
  tableNames : Attempt m (List String)

end Tabular
