import Tabular.Catalog.Basic
import Tabular.Versioned.Call

/-!
# Tabular.Catalog.Keyed — the catalog in the metadata of a versioned store

The document of a table's schema is the metadata entry under the table's name after `entryStart`.
-/

namespace Tabular.Catalog

variable {m : Type → Type u} [Monad m]

/-- What the metadata keys of the catalog start with. -/
def entryStart : String := "structured_table_registry/"

/-- The metadata key of a table. -/
def entryKey (table : String) : String := entryStart ++ table

/-- The table of a metadata key of the catalog. -/
def tableOfKey? (key : String) : Option String :=
  if entryStart.isPrefixOf key then some (String.ofList (key.toList.drop entryStart.length)) else none

/-- The catalog kept in the metadata of a versioned store. -/
def keyed (store : VersionedAccess m) : Catalog m where
  kind := .versioned
  register schema := do
    unless ← store (.metadataAdd (entryKey schema.name) schema.document) do
      throw (.tableAlreadyExists schema.name)
  find table := do
    match ← store (.metadataGet (entryKey table)) with
    | some document => Attempt.of (TableSchema.ofDocumentChecked document)
    | none => throw (.tableNotFound table)
  findWith _ load := load
  remove table := do
    unless ← store (.metadataDelete (entryKey table)) do
      throw (.tableNotFound table)
  tableNames := do
    return (← store (.metadataKeys entryStart)).filterMap tableOfKey?

end Tabular.Catalog
