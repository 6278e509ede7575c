import Mathlib.Logic.Function.Basic
import Mathlib.Logic.Relation
import Tabular.Proofs.Catalog.Lookups
import Tabular.Proofs.Work.Samples

/-!
# Tabular.Proofs.Catalog.Coherence — a cache says what the catalog behind it says

A cached catalog wraps any `Registry`, which changes only through it and of which every call may fail at
any time, leaving it open whether a change took effect.  Main statements: `Coherent.next`, every operation
leaves a cache that says nothing but what the registry holds, and `lookups_coherent`, what that comes to.
-/

namespace Tabular.Catalog

open Sharing
open Samples (notes)

/-! ### Any catalog -/

/-- What a wrapped catalog is asked, and somebody who reads the same store. -/
inductive RegistryCall where
  | register (schema : TableSchema)
  | find (table : String)
  /-- Asks somebody else, who reads the same store. -/
  | load (table : String)
  | remove (table : String)
  | tableNames

/-- What a call answers. -/
abbrev RegistryCall.Answer : RegistryCall → Type
  | register _ => Unit
  | find _ => TableSchema
  | load _ => TableSchema
  | remove _ => Unit
  | tableNames => List String

/-- A catalog as it is behind a cache. -/
structure Registry where
  holds : String → Option TableSchema
  /-- How often it was asked for a schema. -/
  consulted : Nat

/-- Whether a failure says nothing about a table. -/
def Infrastructure (e : StoreError) : Prop :=
  (∀ table, e ≠ .tableNotFound table) ∧ ∀ table, e ≠ .tableAlreadyExists table

namespace Registry

/-- The registry with another entry for a name. -/
def set (v : Registry) (table : String) (schema : Option TableSchema) : Registry :=
  { v with holds := Function.update v.holds table schema }

/-- What may come of a change that is due, or is refused: it is made or not, and if something fails it is
open which. -/
inductive Change (v after : Registry) (due : Prop) (Refusal : StoreError → Prop) :
    Except StoreError Unit → Registry → Prop where
  | made (h : due) : Change v after due Refusal (.ok ()) after
  | refused {e : StoreError} (h : ¬ due) (he : Refusal e) : Change v after due Refusal (.error e) v
  | failed {e : StoreError} (he : Infrastructure e) : Change v after due Refusal (.error e) v
  | inDoubt {e : StoreError} (h : due) (he : Infrastructure e) : Change v after due Refusal (.error e) after

/-- What may come of a look at a name. -/
inductive Look (v : Registry) (table : String) : Except StoreError TableSchema → Prop where
  | found {schema : TableSchema} (h : v.holds table = some schema) : Look v table (.ok schema)
  | missing (h : v.holds table = none) (name : String) : Look v table (.error (.tableNotFound name))
  | failed {e : StoreError} (he : Infrastructure e) : Look v table (.error e)

/-- What may become of a call. -/
def Answers (v : Registry) : (c : RegistryCall) → Except StoreError c.Answer → Registry → Prop
  | .register schema, r, v' =>
    Change v (v.set schema.name (some schema)) (v.holds schema.name = none)
      (fun e => ∃ table, e = .tableAlreadyExists table) r v'
  | .find table, r, v' => Look v table r ∧ v' = { v with consulted := v.consulted + 1 }
  | .load table, r, v' => Look v table r ∧ v' = { v with consulted := v.consulted + 1 }
  | .remove table, r, v' =>
    Change v (v.set table none) (v.holds table ≠ none) (fun e => ∃ table, e = .tableNotFound table) r v'
  | .tableNames, _, v' => v' = v

variable {v : Registry}

theorem exists_answers (v : Registry) (c : RegistryCall) : ∃ r v', v.Answers c r v' := by
  have he : Infrastructure (.connection "refused") := ⟨nofun, nofun⟩
  cases c with
  | register schema => exact ⟨_, _, .failed he⟩
  | find table => exact ⟨_, _, .failed he, rfl⟩
  | load table => exact ⟨_, _, .failed he, rfl⟩
  | remove table => exact ⟨_, _, .failed he⟩
  | tableNames => exact ⟨.ok [], v, rfl⟩

end Registry

/-! ### A cache in front of it -/

/-- A computation around a cache and a registry. -/
abbrev CacheProgram : Type → Type 1 :=
  Program LookupCache fun c : RegistryCall => Except StoreError c.Answer

/-- A cache, and the registry behind it. -/
abbrev CachePlace := Place LookupCache Registry

/-- Calls a registry. -/
def asking (c : RegistryCall) : Attempt CacheProgram c.Answer := ExceptT.mk (call c)

/-- The registry behind the cache. -/
def wrapped (kind : StorageKind) : Catalog CacheProgram where
  kind := kind
  register schema := asking (.register schema)
  find table := asking (.find table)
  findWith _ load := load
  remove table := asking (.remove table)
  tableNames := asking .tableNames

/-- The cached catalog. -/
def remembering (kind : StorageKind) : Catalog CacheProgram := (wrapped kind).cached cell

/-- What may happen next to a cache and what is behind it. -/
inductive CacheNext (kind : StorageKind) (w w' : CachePlace) : Prop where
  | register (schema : TableSchema) (hvalid : schema.validate = .ok ()) {r : Except StoreError Unit}
    (h : Ends Registry.Answers ((remembering kind).register schema).run w r w')
  | find (table : String) {r : Except StoreError TableSchema}
    (h : Ends Registry.Answers ((remembering kind).find table).run w r w')
  | findWith (table : String) {r : Except StoreError TableSchema}
    (h : Ends Registry.Answers ((remembering kind).findWith table (asking (.load table))).run w r w')
  | remove (table : String) {r : Except StoreError Unit}
    (h : Ends Registry.Answers ((remembering kind).remove table).run w r w')
  | invalidate (table : String) {r : Unit}
    (h : Ends Registry.Answers (Catalog.invalidate cell table : CacheProgram Unit) w r w')
  | invalidateAll {r : Unit} (h : Ends Registry.Answers (Catalog.invalidateAll cell : CacheProgram Unit) w r w')

/-- Whether a cache and what is behind it may come to be as others in the course of time. -/
abbrev CacheReaches (kind : StorageKind) : CachePlace → CachePlace → Prop :=
  Relation.ReflTransGen (CacheNext kind)

/-- What the registry has to hold for a name of which the cache holds so much. -/
def Says (v : Registry) (table : String) : Option Lookup → Prop
  | some (.found schema) => v.holds table = some schema
  | some .missing => v.holds table = none
  | none => False

/-- Whether a cache says nothing but what the registry holds, and has no empty slot. -/
def Coherent (w : CachePlace) : Prop := ∀ table slot, w.content[table]? = some slot → Says w.outside table slot

variable {kind : StorageKind} {w w' : CachePlace} {table : String}

theorem Says.congr {v v' : Registry} {slot : Option Lookup} (h : Says v table slot)
    (heq : v'.holds table = v.holds table) : Says v' table slot := by
  unfold Says at *
  rw [heq]
  exact h

theorem Coherent.empty (v : Registry) : Coherent ⟨∅, v⟩ := fun table slot h => by simp at h

theorem ends_asking {c : RegistryCall} {r : Except StoreError c.Answer} :
    Ends Registry.Answers (asking c).run w r w' ↔
      ∃ v, w.outside.Answers c r v ∧ w' = { w with outside := v } := ends_call

/-! ### Lookups -/

/-- What a lookup is answered, and what is remembered of it. -/
structure LookedUp (table : String) (w : CachePlace) (r : Except StoreError TableSchema)
    (w' : CachePlace) : Prop where
  holds_eq : w'.outside.holds = w.outside.holds
  of_ok : ∀ schema, r = .ok schema →
    w.outside.holds table = some schema ∧ w'.content[table]? = some (some (.found schema))
  of_notFound : ∀ name, r = .error (.tableNotFound name) →
    w.outside.holds table = none ∧ w'.content[table]? = some (some .missing)
  of_failed : ∀ e, r = .error e → (∀ name, e ≠ .tableNotFound name) →
    Infrastructure e ∧ w'.content[table]? = none
  others_eq : ∀ other, table ≠ other → w'.content[other]? = w.content[other]?
  /-- The registry is asked if nothing is known of the name, and only then. -/
  consulted_eq : w'.outside.consulted = w.outside.consulted + if (w.content[table]?).isNone then 1 else 0

/-- Whether an attempt looks at a name once. -/
def LooksAt (table : String) (load : Attempt CacheProgram TableSchema) : Prop :=
  ∀ w r w', Ends Registry.Answers load.run w r w' ↔
    w.outside.Look table r ∧
      w' = { w with outside := { w.outside with consulted := w.outside.consulted + 1 } }

theorem looksAt_find : LooksAt table (asking (.find table)) := fun w r w' => by
  rw [ends_asking]
  constructor
  · rintro ⟨_, ⟨hlook, rfl⟩, rfl⟩
    exact ⟨hlook, rfl⟩
  · rintro ⟨hlook, rfl⟩
    exact ⟨_, ⟨hlook, rfl⟩, rfl⟩

theorem looksAt_load : LooksAt table (asking (.load table)) := looksAt_find

/-- A name of which nothing is known has no slot. -/
theorem Coherent.getElem?_eq_none (h : Coherent w) (hknown : w.content.known? table = none) :
    w.content[table]? = none := by
  cases hslot : w.content[table]? with
  | none => rfl
  | some slot =>
    rw [LookupCache.known?_eq, hslot, Option.join_some] at hknown
    subst hknown
    exact (h table none hslot).elim

variable {load : Attempt CacheProgram TableSchema} {r : Except StoreError TableSchema}

/-- A lookup of a name of which something is known is answered that. -/
theorem lookedUp_of_known {known : Lookup} (hslot : w.content[table]? = some (some known))
    (htold : Says w.outside table (some known)) : LookedUp table w (known.answer table) w := by
  refine ⟨rfl, fun schema hr => ?_, fun name hr => ?_, fun e hr hne => ?_, fun _ _ => rfl, ?_⟩
  · cases known with
    | found schema' =>
      cases hr
      exact ⟨htold, hslot⟩
    | missing => cases hr
  · cases known with
    | found schema' => cases hr
    | missing => exact ⟨htold, hslot⟩
  · cases known with
    | found schema' => cases hr
    | missing =>
      cases hr
      exact absurd rfl (hne table)
  · simp [hslot]

/-- A lookup of a name of which nothing is known is answered what is loaded, which is remembered. -/
theorem lookedUp_of_look (hnone : w.content[table]? = none) (hlook : w.outside.Look table r) :
    LookedUp table w r
      ⟨(w.content.withSlot table).settle table r,
        { w.outside with consulted := w.outside.consulted + 1 }⟩ := by
  have hknown : w.content.known? table = none := by rw [LookupCache.known?_eq, hnone, Option.join_none]
  have hslot : ((w.content.withSlot table).settle table r)[table]? =
      (LookupCache.remembered r).map some :=
    (LookupCache.getElem?_settle hknown).trans (if_pos rfl)
  refine ⟨rfl, fun schema hr => ?_, fun name hr => ?_, fun e hr hne => ?_, fun other hother => ?_, ?_⟩
  · subst hr
    cases hlook with
    | found hholds => exact ⟨hholds, hslot⟩
  · subst hr
    cases hlook with
    | missing hholds => exact ⟨hholds, hslot⟩
    | failed he => exact absurd rfl (he.1 name)
  · subst hr
    cases hlook with
    | missing hholds name => exact absurd rfl (hne name)
    | failed he =>
      cases e with
      | tableNotFound name => exact absurd rfl (hne name)
      | _ => exact ⟨he, hslot⟩
  · exact (LookupCache.getElem?_settle hknown).trans (if_neg hother)
  · simp [hnone]

theorem lookedUp_of_ends (h : Coherent w) (hload : LooksAt table load)
    (hends : Ends Registry.Answers (lookup cell table load).run w r w') : LookedUp table w r w' := by
  rw [ends_lookup] at hends
  cases hknown : w.content.known? table with
  | some known =>
    rw [hknown, LookupCache.withSlot_eq_self hknown] at hends
    obtain ⟨rfl, rfl⟩ := hends
    have hslot := LookupCache.getElem?_of_known hknown
    exact lookedUp_of_known hslot (h table (some known) hslot)
  | none =>
    rw [hknown] at hends
    obtain ⟨w₁, hends, rfl⟩ := hends
    obtain ⟨hlook, rfl⟩ := (hload _ _ _).1 hends
    exact lookedUp_of_look (h.getElem?_eq_none hknown) hlook

/-- Every lookup leaves a coherent cache. -/
theorem LookedUp.coherent (hlook : LookedUp table w r w') (h : Coherent w) : Coherent w' := by
  intro other slot hslot
  by_cases hother : table = other
  · subst hother
    have hslot' : ∀ {known}, w'.content[table]? = some (some known) → slot = some known := fun heq =>
      Option.some.inj (hslot.symm.trans heq)
    cases r with
    | ok schema =>
      obtain ⟨hholds, hfound⟩ := hlook.of_ok schema rfl
      rw [hslot' hfound]
      exact (congrFun hlook.holds_eq table).trans hholds
    | error e =>
      by_cases he : ∃ name, e = .tableNotFound name
      · obtain ⟨name, rfl⟩ := he
        obtain ⟨hholds, hmissing⟩ := hlook.of_notFound name rfl
        rw [hslot' hmissing]
        exact (congrFun hlook.holds_eq table).trans hholds
      · obtain ⟨-, hnone⟩ := hlook.of_failed e rfl (not_exists.1 he)
        cases hnone.symm.trans hslot
  · rw [hlook.others_eq other hother] at hslot
    exact (h other slot hslot).congr (congrFun hlook.holds_eq other)

/-! ### Changes -/

/-- A change leaves a coherent cache: only what was made is remembered. -/
theorem Coherent.change (h : Coherent w) {schema : Option TableSchema} {known : Lookup} {due : Prop}
    {Refusal : StoreError → Prop} {r : Except StoreError Unit} {v : Registry}
    (hchange : Registry.Change w.outside (w.outside.set table schema) due Refusal r v)
    (htold : Says (w.outside.set table schema) table (some known)) :
    Coherent ⟨(w.content.withSlot table).changed table known r, v⟩ := by
  intro other slot hslot
  rw [LookupCache.getElem?_changed] at hslot
  split at hslot
  · rename_i heq
    subst heq
    cases hchange with
    | made hdue =>
      cases hslot
      exact htold
    | refused | failed | inDoubt => cases hslot
  · rename_i hother
    refine (h other slot hslot).congr ?_
    cases hchange with
    | made | inDoubt => exact Function.update_of_ne (Ne.symm hother) ..
    | refused | failed => rfl

/-- Every operation leaves a coherent cache. -/
theorem Coherent.next (h : Coherent w) (hnext : CacheNext kind w w') : Coherent w' := by
  cases hnext with
  | register schema hvalid hends =>
    obtain ⟨w₁, hasked, rfl⟩ := ends_change.1 hends
    obtain ⟨v, hchange, rfl⟩ := ends_asking.1 hasked
    exact h.change hchange (Function.update_self ..)
  | remove table hends =>
    obtain ⟨w₁, hasked, rfl⟩ := ends_change.1 hends
    obtain ⟨v, hchange, rfl⟩ := ends_asking.1 hasked
    exact h.change hchange (Function.update_self ..)
  | find table hends => exact (lookedUp_of_ends h looksAt_find hends).coherent h
  | findWith table hends => exact (lookedUp_of_ends h looksAt_load hends).coherent h
  | invalidate table hends =>
    obtain ⟨-, rfl⟩ := hends
    intro other slot hslot
    rw [LookupCache.getElem?_forget] at hslot
    split at hslot
    · cases hslot
    · exact h other slot hslot
  | invalidateAll hends =>
    obtain ⟨-, rfl⟩ := hends
    exact .empty _

theorem coherent_of_reaches {v : Registry} (h : CacheReaches kind ⟨∅, v⟩ w) : Coherent w := by
  induction h with
  | refl => exact .empty v
  | tail _ hnext ih => exact ih.next hnext

/-- **A cache says nothing but what the catalog behind it holds.**  Whatever has been done through the
cache, and whatever has failed: what is remembered of a name is what the registry holds under it, and no
slot is empty.  So a lookup, by the catalog or by somebody who reads the same store, always comes to an
end; it is answered a schema, or that there is no table, only if that is what the registry holds, and
remembers just that; and the registry is asked only if nothing is remembered of the name. -/
theorem lookups_coherent {v : Registry} (h : CacheReaches kind ⟨∅, v⟩ w) :
    ((∀ (table : String) schema, w.content[table]? = some (some (.found schema)) →
        w.outside.holds table = some schema) ∧
      (∀ table : String, w.content[table]? = some (some .missing) → w.outside.holds table = none) ∧
      ∀ table : String, w.content[table]? ≠ some none) ∧
    ∀ (table : String) (p : Attempt CacheProgram TableSchema), p = (remembering kind).find table ∨
        p = (remembering kind).findWith table (asking (.load table)) →
      (∃ r w', Ends Registry.Answers p.run w r w') ∧
        ∀ r w', Ends Registry.Answers p.run w r w' → LookedUp table w r w' := by
  have hcoherent := coherent_of_reaches h
  refine ⟨⟨fun table schema => hcoherent table _, fun table => hcoherent table _,
    fun table => hcoherent table none⟩, fun table p hp => ⟨exists_ends Registry.exists_answers p.run w, ?_⟩⟩
  intro r w' hends
  rcases hp with rfl | rfl
  · exact lookedUp_of_ends hcoherent looksAt_find hends
  · exact lookedUp_of_ends hcoherent looksAt_load hends

/-- There is no table of notes, as is found out; then one is registered, and it is open whether that took
effect. -/
theorem reaches_inDoubt : ∃ w : CachePlace,
    CacheReaches .versioned ⟨∅, ⟨fun _ => none, 0⟩⟩ w ∧ w.content["notes"]? = none ∧
      w.outside.holds "notes" = some notes ∧ w.outside.consulted = 1 := by
  have he : Infrastructure (.connection "lost") := ⟨nofun, nofun⟩
  have looked : CacheReaches .versioned ⟨∅, ⟨fun _ => none, 0⟩⟩ _ :=
    Relation.ReflTransGen.refl.tail
      (.find "notes" (ends_lookup.2 ⟨_, ends_asking.2 ⟨_, ⟨.missing rfl "notes", rfl⟩, rfl⟩, rfl⟩))
  have registered : CacheReaches .versioned ⟨∅, ⟨fun _ => none, 0⟩⟩ _ :=
    looked.tail (.register notes rfl (ends_change.2 ⟨_, ends_asking.2 ⟨_, .inDoubt rfl he, rfl⟩, rfl⟩))
  refine ⟨_, registered, ?_, rfl, rfl⟩
  exact LookupCache.getElem?_changed.trans (if_pos rfl)

/-- The next lookup asks the registry, and answers the schema only if it is the one that is held. -/
theorem lookups_coherent_inDoubt : ∃ w : CachePlace,
    CacheReaches .versioned ⟨∅, ⟨fun _ => none, 0⟩⟩ w ∧ w.outside.holds "notes" = some notes ∧
      ∀ r w', Ends Registry.Answers ((remembering .versioned).find "notes").run w r w' →
        w'.outside.consulted = 2 ∧ ∀ schema, r = .ok schema → schema = notes := by
  obtain ⟨w, hw, hnone, hholds, hconsulted⟩ := reaches_inDoubt
  refine ⟨w, hw, hholds, fun r w' hends => ?_⟩
  have hlooked := ((lookups_coherent hw).2 "notes" _ (.inl rfl)).2 r w' hends
  refine ⟨?_, fun schema hr => ?_⟩
  · rw [hlooked.consulted_eq, hnone, hconsulted]
    rfl
  · exact Option.some.inj ((hlooked.of_ok schema hr).1.symm.trans hholds)

end Tabular.Catalog
