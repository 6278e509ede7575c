import Mathlib.Data.List.Sort
import Tabular.Catalog.Basic
import Tabular.Proofs.Text.Order

/-!
# Tabular.Proofs.Catalog.Listing — a registry as a plain map

`Listing` is what a registry should be, a map from names to schemas, `Listing.answer` what it answers to a
request.  Main statement: `Listing.eq_keys`, names in ascending order are the ones listed if they are the same
ones.
-/

namespace Tabular.Catalog

/-- What is asked of a registry. -/
inductive Request where
  | register (schema : TableSchema)
  | find (table : String)
  | remove (table : String)
  | tableNames

/-- What a registry answers to a request that does not fail. -/
inductive Response where
  | done
  | schema (schema : TableSchema)
  | names (names : List String)
deriving DecidableEq

section

variable {m : Type → Type u} [Monad m]

/-- What a catalog does about a request. -/
def answer (catalog : Catalog m) : Request → Attempt m Response
  | .register schema => (fun _ => .done) <$> catalog.register schema
  | .find table => .schema <$> catalog.find table
  | .remove table => (fun _ => .done) <$> catalog.remove table
  | .tableNames => .names <$> catalog.tableNames

/-- What a catalog answers to requests one after another. -/
def answers (catalog : Catalog m) : List Request → m (List (Except StoreError Response))
  | [] => return []
  | request :: rest => do
    let answer ← (catalog.answer request).run
    return answer :: (← catalog.answers rest)

end

/-- The schemas of tables by name. -/
abbrev Listing := Std.ExtTreeMap String TableSchema

namespace Listing

/-- The schema of a table, which is validated when it is found. -/
def find (listing : Listing) (table : String) : Except StoreError TableSchema :=
  match listing[table]? with
  | some schema => (fun _ => schema) <$> schema.validate
  | none => .error (.tableNotFound table)

/-- The answer to a request, and the listing after it. -/
def answer (listing : Listing) : Request → Except StoreError Response × Listing
  | .register schema =>
    if schema.name ∈ listing then (.error (.tableAlreadyExists schema.name), listing)
    else (.ok .done, listing.insert schema.name schema)
  | .find table => (.schema <$> listing.find table, listing)
  | .remove table =>
    if table ∈ listing then (.ok .done, listing.erase table) else (.error (.tableNotFound table), listing)
  | .tableNames => (.ok (.names listing.keys), listing)

/-- The answers to requests one after another. -/
def answers : Listing → List Request → List (Except StoreError Response)
  | _, [] => []
  | listing, request :: rest => (listing.answer request).1 :: answers (listing.answer request).2 rest

/-- Whether each schema is listed under its name. -/
def Named (listing : Listing) : Prop :=
  ∀ (name : String) (schema : TableSchema), listing[name]? = some schema → schema.name = name

variable {listing : Listing}

theorem named_empty : Named ∅ := by
  intro name schema h
  simp at h

theorem Named.insert (h : Named listing) (schema : TableSchema) :
    Named (listing.insert schema.name schema) := by
  intro name other hother
  rw [Std.ExtTreeMap.getElem?_insert] at hother
  split at hother
  · rename_i heq
    cases hother
    exact Std.compare_eq_iff_eq.1 heq
  · exact h name other hother

theorem Named.erase (h : Named listing) (table : String) : Named (listing.erase table) := by
  intro name other hother
  rw [Std.ExtTreeMap.getElem?_erase] at hother
  split at hother
  · cases hother
  · exact h name other hother

theorem erase_of_not_mem {table : String} (h : table ∉ listing) : listing.erase table = listing := by
  refine Std.ExtTreeMap.ext_getElem? fun other => ?_
  rw [Std.ExtTreeMap.getElem?_erase]
  split
  · rename_i heq
    rw [← Std.compare_eq_iff_eq.1 heq, Std.ExtTreeMap.getElem?_eq_none h]
  · rfl

/-! ### Names -/

theorem pairwise_keys (listing : Listing) : listing.keys.Pairwise (· < ·) :=
  listing.ordered_keys.imp compare_lt_iff_lt.1

/-- Names are listed in the order of their bytes. -/
theorem pairwise_utf8_keys (listing : Listing) : listing.keys.Pairwise fun a b => utf8 a < utf8 b :=
  listing.pairwise_keys.imp utf8_lt_utf8

/-- Names in ascending order are the ones listed if they are the same ones. -/
theorem eq_keys {names : List String} (hnames : names.Pairwise (· < ·))
    (hmem : ∀ name, name ∈ names ↔ name ∈ listing) : names = listing.keys :=
  hnames.eq_of_mem_iff listing.pairwise_keys fun name => (hmem name).trans Std.ExtTreeMap.mem_keys.symm

end Listing

end Tabular.Catalog
