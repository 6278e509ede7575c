import Tabular.Proofs.Engine.Scene
import Tabular.Proofs.Work.Shelf

/-!
# Tabular.Proofs.Engine.Lookups — what a cached catalog answers

A cache `Agrees` with the registry it was filled from if it knows every registered schema and no other.
Then a lookup answers from the cache what is registered, and loads only what is not (`Yields.lookup`); a
change that succeeds leaves the cache in agreement with the registry after it (`Yields.change`).
-/

namespace Tabular

/-- Nothing is where nothing else is. -/
theorem eq_none_of_isSome_eq {α β : Type} {a : Option α} {b : Option β} (h : a.isSome = b.isSome)
    (hb : b = none) : a = none := by
  rw [hb] at h
  exact Option.isNone_iff_eq_none.1 (Option.isSome_eq_false_iff.1 h)

theorem Shelf.schema_of_none {schemas : Schemas} {table : String} (h : schemas table = none) :
    Shelf.schema schemas table = .error (.tableNotFound table) := by
  rw [schema, h]

namespace LookupCache

variable {cache : LookupCache} {table other : String} {schemas : Schemas}

theorem known?_learn (lookup : Lookup) :
    (cache.learn table lookup).known? other = if table = other then some lookup else cache.known? other := by
  by_cases h : table = other
  · subst h
    simp [known?, learn]
  · simp [known?, learn, Std.ExtTreeMap.getElem?_insert, h]

theorem known?_withSlot : (cache.withSlot table).known? other = cache.known? other := by
  simp only [known?, withSlot, Std.ExtTreeMap.get?_eq_getElem?, Std.ExtTreeMap.getElem?_insertIfNew]
  split
  · rename_i hnew
    obtain ⟨heq, hmem⟩ := hnew
    cases Std.compare_eq_iff_eq.1 heq
    simp [hmem]
  · rfl

/-- Whether a cache knows every registered schema, and no other. -/
def Agrees (cache : LookupCache) (schemas : Schemas) : Prop :=
  ∀ (table : String) (schema : TableSchema),
    cache.known? table = some (.found schema) ↔ ∃ h : schema.name = table, schemas table = some ⟨schema, h⟩

theorem Agrees.empty : Agrees ∅ fun _ => none := by
  simp [Agrees, known?]

theorem Agrees.eq_some {schema : TableSchema} (h : cache.Agrees schemas)
    (hknown : cache.known? table = some (.found schema)) : Shelf.schema schemas table = .ok schema := by
  obtain ⟨hname, hschema⟩ := (h table schema).1 hknown
  exact Shelf.schema_eq hschema

/-- What is not known is not registered. -/
theorem Agrees.eq_none (h : cache.Agrees schemas)
    (hknown : ∀ schema, cache.known? table ≠ some (.found schema)) : schemas table = none := by
  rw [Option.eq_none_iff_forall_ne_some]
  intro schema hschema
  exact hknown schema.1 ((h table schema.1).2 ⟨schema.2, hschema⟩)

theorem Agrees.withSlot (h : cache.Agrees schemas) : (cache.withSlot table).Agrees schemas := by
  intro other schema
  rw [known?_withSlot]
  exact h other schema

/-- That a table is missing may be learnt if it is not registered. -/
theorem Agrees.missing (h : cache.Agrees schemas) (hnone : schemas table = none) :
    (cache.learn table .missing).Agrees schemas := by
  intro other schema
  rw [known?_learn]
  split
  · rename_i heq
    subst heq
    simp [hnone]
  · exact h other schema

/-- The cache after the registration of a schema. -/
theorem Agrees.register (h : cache.Agrees schemas) (schema : TableSchema) :
    (cache.learn schema.name (.found schema)).Agrees
      (Function.update schemas schema.name (some ⟨schema, rfl⟩)) := by
  intro other schema'
  rw [known?_learn]
  by_cases heq : schema.name = other
  · subst heq
    simp only [if_pos, Function.update_self, Option.some.injEq, Lookup.found.injEq, Subtype.mk.injEq]
    exact ⟨fun heq => ⟨congrArg TableSchema.name heq.symm, heq⟩, fun h => h.2⟩
  · rw [if_neg heq, Function.update_of_ne (fun h => heq h.symm)]
    exact h other schema'

/-- The cache after the removal of a table. -/
theorem Agrees.remove (h : cache.Agrees schemas) (table : String) :
    (cache.learn table .missing).Agrees (Function.update schemas table none) := by
  intro other schema'
  rw [known?_learn]
  by_cases heq : table = other
  · subst heq
    simp
  · rw [if_neg heq, Function.update_of_ne (fun h => heq h.symm)]
    exact h other schema'

end LookupCache

namespace Bench.Yields

variable {i : Nat} {c : Scene} {P : Scene → Prop} {schemas : Schemas} {table : String}

/-- A lookup answers what is registered.  What does not depend on the cache is kept if loading keeps it. -/
theorem lookup {load : Attempt SiteM TableSchema} (hcache : ∀ c cache, P c → P { c with cache })
    (hload : schemas table = none → ∀ c, P c → Yields (some i) load.run c fun r c' =>
      r = .error (.tableNotFound table) ∧ P c' ∧ c'.cache = c.cache)
    (hP : P c) (hagrees : c.cache.Agrees schemas) :
    Yields (some i) (Catalog.lookup (EngineCells.ofCell (Site.engineCell i)).cache table load).run c
      fun r c' => r = Shelf.schema schemas table ∧ P c' ∧ c'.cache.Agrees schemas := by
  refine action (cache ?_)
  have hslot : P { c with cache := c.cache.withSlot table } := hcache _ _ hP
  cases hknown : c.cache.known? table with
  | some lookup =>
    cases lookup with
    | found schema => exact pure ⟨(hagrees.eq_some hknown).symm, hslot, hagrees.withSlot⟩
    | missing =>
      have hnone : schemas table = none := hagrees.eq_none (by simp [hknown])
      exact pure ⟨(Shelf.schema_of_none hnone).symm, hslot, hagrees.withSlot⟩
  | none =>
    have hnone : schemas table = none := hagrees.eq_none (by simp [hknown])
    refine outcome ((hload hnone _ hslot).mono ?_)
    rintro _ c' ⟨rfl, hc', hsame⟩
    refine action (modify (cache ?_))
    have hagrees' : c'.cache.Agrees schemas := hsame ▸ hagrees.withSlot
    exact of ⟨(Shelf.schema_of_none hnone).symm, hcache _ _ hc', hagrees'.missing hnone⟩

/-- A change that succeeds, of which something is remembered. -/
theorem change {apply : Attempt SiteM Unit} {meaning : Lookup} {Q : Scene → Prop}
    (hcache : ∀ c cache, P c → P { c with cache })
    (happly : ∀ c, P c → Yields (some i) apply.run c fun r c' =>
      r = .ok () ∧ Q c' ∧ c'.cache = c.cache)
    (hQ : ∀ c cache, Q c → Q { c with cache })
    (hP : P c) :
    Yields (some i)
      (Catalog.change (EngineCells.ofCell (Site.engineCell i)).cache table meaning apply).run c
      fun r c' => r = .ok () ∧ Q c' ∧ c'.cache = (c.cache.withSlot table).learn table meaning := by
  refine action (modify (cache (outcome ((happly _ (hcache _ _ hP)).mono ?_))))
  rintro _ c' ⟨rfl, hc', hsame⟩
  refine action (modify (cache (of ⟨rfl, hQ _ _ hc', ?_⟩)))
  exact congrArg (LookupCache.learn · table meaning) hsame

end Bench.Yields

end Tabular
