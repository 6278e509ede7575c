import Std.Data.ExtTreeMap
import Tabular.Catalog.Basic
import Tabular.Cell

/-!
# Tabular.Catalog.Cached — a catalog that remembers what it looked up

`Catalog.cached` answers from a `LookupCache` what it has seen before, that a table has a certain schema
as well as that there is no such table.  Only the wrapped catalog's word fills the cache: what it
confirms is remembered, and a change that fails clears what was known of that name.
-/

namespace Tabular

/-- What is known of a table name. -/
inductive Lookup where
  | found (schema : TableSchema)
  | missing
deriving DecidableEq, Repr

/-- The slots of a cache by table name; an empty slot is being filled. -/
abbrev LookupCache := Std.ExtTreeMap String (Option Lookup)

namespace LookupCache

/-- What the cache knows of a name. -/
def known? (cache : LookupCache) (table : String) : Option Lookup := (cache.get? table).join

/-- The cache with a slot for a name. -/
def withSlot (cache : LookupCache) (table : String) : LookupCache := cache.insertIfNew table none

/-- The cache with something known of a name. -/
def learn (cache : LookupCache) (table : String) (lookup : Lookup) : LookupCache :=
  cache.insert table (some lookup)

/-- The cache with nothing known of a name. -/
def forget (cache : LookupCache) (table : String) : LookupCache := cache.erase table

/-- The cache without the slot of a name, if the slot is empty. -/
def release (cache : LookupCache) (table : String) : LookupCache :=
  if (cache.known? table).isNone then cache.erase table else cache

/-- The number of names of which something is known. -/
def knownCount (cache : LookupCache) : Nat := (cache.values.filter (·.isSome)).length

/-- How a lookup that ended so changes the cache. -/
def settle (cache : LookupCache) (table : String) : Except StoreError TableSchema → LookupCache
  | .ok schema => cache.learn table (.found schema)
  | .error (.tableNotFound _) => cache.learn table .missing
  | .error _ => cache.release table

end LookupCache

namespace Catalog

variable {m : Type → Type u} [Monad m]

/-- Answers from the cache, or looks up with `load`. -/
def lookup (cache : Cell m LookupCache) (table : String) (load : Attempt m TableSchema) :
    Attempt m TableSchema := do
  let before ← cache.update (·.withSlot table)
  match before.known? table with
  | some (.found schema) => return schema
  | some .missing => throw (.tableNotFound table)
  | none =>
    let result ← load.outcome
    cache.modify (·.settle table result)
    Attempt.of result

/-- Makes a change to the wrapped catalog and remembers what it means, if it succeeds. -/
def change (cache : Cell m LookupCache) (table : String) (meaning : Lookup) (apply : Attempt m Unit) :
    Attempt m Unit := do
  cache.modify (·.withSlot table)
  let result ← apply.outcome
  cache.modify fun slots => if result.isOk then slots.learn table meaning else slots.forget table
  Attempt.of result

/-- Drops what a cache knows of a name. -/
def invalidate (cache : Cell m LookupCache) (table : String) : m Unit := cache.modify (·.forget table)

/-- Drops all that a cache knows. -/
def invalidateAll (cache : Cell m LookupCache) : m Unit := cache.modify fun _ => ∅

/-- A catalog that answers from a cache what it can. -/
def cached (inner : Catalog m) (cache : Cell m LookupCache) : Catalog m where
  kind := inner.kind
  register schema := change cache schema.name (.found schema) (inner.register schema)
  find table := lookup cache table (inner.find table)
  findWith table load := lookup cache table load
  remove table := change cache table .missing (inner.remove table)
  tableNames := inner.tableNames

end Catalog

end Tabular
