import Tabular.Catalog.Cached
import Tabular.Proofs.Interaction.Sharing

/-!
# Tabular.Proofs.Catalog.Lookups — what a lookup and a change do to a cache

What a cached catalog does, given what looking up, or changing the wrapped catalog, comes to.  Main
statements: `ends_lookup` and `ends_change`, and for each what the cache holds in the end, name by name.
-/

namespace Tabular

/-- What somebody is answered of whom something is known. -/
def Lookup.answer (table : String) : Lookup → Except StoreError TableSchema
  | found schema => .ok schema
  | missing => .error (.tableNotFound table)

namespace LookupCache

variable {cache : LookupCache} {table other : String} {result : Except StoreError TableSchema}

/-- What is remembered of a lookup. -/
def remembered : Except StoreError TableSchema → Option Lookup
  | .ok schema => some (.found schema)
  | .error (.tableNotFound _) => some .missing
  | .error _ => none

/-- What a change that ended so leaves behind. -/
def changed (cache : LookupCache) (table : String) (meaning : Lookup) (result : Except StoreError Unit) :
    LookupCache :=
  if result.isOk then cache.learn table meaning else cache.forget table

theorem getElem?_learn (lookup : Lookup) :
    (cache.learn table lookup)[other]? = if table = other then some (some lookup) else cache[other]? := by
  simp [learn, Std.ExtTreeMap.getElem?_insert]

theorem getElem?_forget :
    (cache.forget table)[other]? = if table = other then none else cache[other]? := by
  simp [forget, Std.ExtTreeMap.getElem?_erase]

theorem getElem?_withSlot :
    (cache.withSlot table)[other]? =
      if table = other then some (cache[table]?.getD none) else cache[other]? := by
  simp only [withSlot, Std.ExtTreeMap.getElem?_insertIfNew, Std.compare_eq_iff_eq]
  by_cases heq : table = other
  · subst heq
    by_cases hmem : table ∈ cache <;> simp [hmem]
  · simp [heq]

theorem known?_eq : cache.known? table = cache[table]?.join := rfl

theorem getElem?_of_known {known : Lookup} (h : cache.known? table = some known) :
    cache[table]? = some (some known) := by
  rw [known?_eq, Option.join_eq_some_iff] at h
  exact h

theorem withSlot_eq_self {known : Lookup} (h : cache.known? table = some known) :
    cache.withSlot table = cache := by
  refine Std.ExtTreeMap.ext_getElem? fun other => ?_
  rw [getElem?_withSlot]
  split
  · rename_i heq
    rw [← heq, getElem?_of_known h]
    rfl
  · rfl

/-- What the cache holds once a lookup of a name of which nothing was known has ended. -/
theorem getElem?_settle (h : cache.known? table = none) :
    ((cache.withSlot table).settle table result)[other]? =
      if table = other then (remembered result).map some else cache[other]? := by
  have hnone : (cache.withSlot table).known? table = none := by
    rw [known?_eq] at h ⊢
    rw [getElem?_withSlot, if_pos rfl]
    cases hslot : cache[table]? with
    | none => rfl
    | some slot =>
      rw [hslot] at h
      exact h
  have hrelease : ((cache.withSlot table).release table)[other]? =
      if table = other then none else cache[other]? := by
    rw [release, hnone, Option.isNone_none, if_pos rfl, ← forget, getElem?_forget, getElem?_withSlot]
    split <;> rfl
  have hlearn : ∀ known, ((cache.withSlot table).learn table known)[other]? =
      if table = other then some (some known) else cache[other]? := by
    intro known
    rw [getElem?_learn, getElem?_withSlot]
    split <;> rfl
  cases result with
  | ok schema => exact hlearn _
  | error e =>
    cases e with
    | tableNotFound => exact hlearn _
    | _ => exact hrelease

theorem getElem?_changed {meaning : Lookup} {result : Except StoreError Unit} :
    ((cache.withSlot table).changed table meaning result)[other]? =
      if table = other then if result.isOk then some (some meaning) else none else cache[other]? := by
  unfold changed
  split
  · rw [getElem?_learn, getElem?_withSlot]
    split <;> rfl
  · rw [getElem?_forget, getElem?_withSlot]
    split <;> rfl

theorem known?_forget : (cache.forget table).known? other = if table = other then none else cache.known? other := by
  rw [known?_eq, getElem?_forget, known?_eq]
  split <;> rfl

theorem known?_settle (h : cache.known? table = none) :
    ((cache.withSlot table).settle table result).known? other =
      if table = other then remembered result else cache.known? other := by
  rw [known?_eq, getElem?_settle h, known?_eq]
  split
  · cases remembered result <;> rfl
  · rfl

theorem known?_changed {meaning : Lookup} {result : Except StoreError Unit} :
    ((cache.withSlot table).changed table meaning result).known? other =
      if table = other then if result.isOk then some meaning else none else cache.known? other := by
  rw [known?_eq, getElem?_changed, known?_eq]
  split
  · split <;> rfl
  · rfl

end LookupCache

namespace Catalog

open Sharing

variable {Call V : Type} {Reply : Call → Type} {others : V → (c : Call) → Reply c → V → Prop}
  {w w' : Place LookupCache V} {table : String}

/-- A lookup answers what is known, or else what loading comes to, which it settles. -/
theorem ends_lookup {load : Attempt (Program LookupCache Reply) TableSchema}
    {r : Except StoreError TableSchema} :
    Ends others (lookup cell table load).run w r w' ↔
      match w.content.known? table with
      | some known =>
        r = known.answer table ∧ w' = { w with content := w.content.withSlot table }
      | none =>
        ∃ w₁, Ends others load.run { w with content := w.content.withSlot table } r w₁ ∧
          w' = { w₁ with content := w₁.content.settle table r } := by
  rw [lookup, ends_updated]
  cases w.content.known? table with
  | some known =>
    cases known with
    | found schema => exact ends_ok
    | missing => exact ends_throw
  | none =>
    rw [ends_outcome]
    constructor
    · rintro ⟨q, w₁, hload, hrest⟩
      obtain ⟨rfl, rfl⟩ := ends_of.1 (ends_modified.1 hrest)
      exact ⟨w₁, hload, rfl⟩
    · rintro ⟨w₁, hload, rfl⟩
      exact ⟨r, w₁, hload, ends_modified.2 (ends_of.2 ⟨rfl, rfl⟩)⟩

/-- A change is passed on, and what it comes to is remembered. -/
theorem ends_change {apply : Attempt (Program LookupCache Reply) Unit} {meaning : Lookup}
    {r : Except StoreError Unit} :
    Ends others (change cell table meaning apply).run w r w' ↔
      ∃ w₁, Ends others apply.run { w with content := w.content.withSlot table } r w₁ ∧
        w' = { w₁ with content := w₁.content.changed table meaning r } := by
  rw [change, ends_modified, ends_outcome]
  constructor
  · rintro ⟨q, w₁, happly, hrest⟩
    obtain ⟨rfl, rfl⟩ := ends_of.1 (ends_modified.1 hrest)
    exact ⟨w₁, happly, rfl⟩
  · rintro ⟨w₁, happly, rfl⟩
    exact ⟨r, w₁, happly, ends_modified.2 (ends_of.2 ⟨rfl, rfl⟩)⟩

end Catalog

end Tabular
