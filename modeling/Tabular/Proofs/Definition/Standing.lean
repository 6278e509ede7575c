import Mathlib.Logic.Function.Basic
import Tabular.Definition
import Tabular.Proofs.Catalog.Lookups

/-!
# Tabular.Proofs.Definition.Standing — storage and catalog, step by step

The `Standing` of a backend says which tables have storage and which have an entry in the catalog.  Creating
and dropping a table change first the one, then the other.  Main statements: `Does.create` and `Does.drop`,
what may come of that if every step may fail, given what may come of each step; and `Comes.lookup` and
`Comes.change`, that a cache makes no difference.
-/

namespace Tabular

theorem TableSchema.validate_error {schema : TableSchema} {e : StoreError}
    (h : schema.validate = .error e) : ∃ reason, e = .invalidSchema schema.name reason := by
  unfold validate at h
  cases hcheck : schema.check with
  | ok =>
    rw [hcheck] at h
    cases h
  | error flaw =>
    rw [hcheck] at h
    cases h
    exact ⟨_, rfl⟩

namespace Definition

open Sharing

/-- Which tables have storage, and which have an entry in the catalog. -/
@[ext] structure Standing (Content Entry : Type) where
  stored : String → Option Content
  entries : String → Option Entry

/-- Whether a collaborator failed for a reason that says nothing about a table. -/
def Outage : StoreError → Prop
  | .connection _ | .coordinator _ | .poolTimeout _ _ => True
  | _ => False

namespace Standing

variable {Content Entry : Type} (s : Standing Content Entry)

/-- With other storage for a table. -/
def withStored (table : String) (content : Option Content) : Standing Content Entry :=
  { s with stored := Function.update s.stored table content }

/-- With another entry for a table. -/
def withEntry (table : String) (entry : Option Entry) : Standing Content Entry :=
  { s with entries := Function.update s.entries table entry }

/-- Whether a table has storage if and only if it has an entry. -/
def InStepAt (table : String) : Prop := (s.stored table).isSome = (s.entries table).isSome

/-- What may come of looking for a table. -/
inductive Found (table : String) : Except StoreError TableSchema → Standing Content Entry → Prop where
  | found (schema : TableSchema) (h : (s.entries table).isSome) : Found table (.ok schema) s
  | missing (name : String) (h : s.entries table = none) : Found table (.error (.tableNotFound name)) s
  | failed {e : StoreError} (he : ∀ name, e ≠ .tableNotFound name) (hnot : e.isConsistency = false) :
    Found table (.error e) s

/-- What may come of adding or removing storage. -/
inductive Stocked (table : String) (content : Option Content) (Conflict : StoreError → Prop) :
    Except StoreError Unit → Standing Content Entry → Prop where
  | made (h : (s.stored table).isSome ≠ content.isSome) :
    Stocked table content Conflict (.ok ()) (s.withStored table content)
  | refused {e : StoreError} (h : (s.stored table).isSome = content.isSome) (he : Conflict e) :
    Stocked table content Conflict (.error e) s
  | failed {e : StoreError} (he : Outage e) : Stocked table content Conflict (.error e) s

/-- What may come of adding or removing an entry. -/
inductive Listed (table : String) (entry : Option Entry) :
    Except StoreError Unit → Standing Content Entry → Prop where
  | made (h : (s.entries table).isSome ≠ entry.isSome) : Listed table entry (.ok ()) (s.withEntry table entry)
  | refused {e : StoreError} (h : (s.entries table).isSome = entry.isSome) : Listed table entry (.error e) s
  | failed {e : StoreError} (he : Outage e) : Listed table entry (.error e) s

variable {s} {s' : Standing Content Entry} {table : String}

theorem Stocked.made_of {content : Option Content} {Conflict : StoreError → Prop}
    (hs : s' = s.withStored table content) (h : (s.stored table).isSome ≠ content.isSome) :
    s.Stocked table content Conflict (.ok ()) s' := hs ▸ .made h

theorem Listed.made_of {entry : Option Entry} (hs : s' = s.withEntry table entry)
    (h : (s.entries table).isSome ≠ entry.isSome) : s.Listed table entry (.ok ()) s' := hs ▸ .made h

variable (s)

/-- What may come of creating or dropping a table: it is done; nothing has changed; the storage was not as
the catalog says; or only the storage has changed, as the catalog failed. -/
inductive Outcome (table : String) (content : Option Content) (entry : Option Entry) (stray : String)
    (half : StoreError → String) (Broken : StoreError → Prop) :
    Except StoreError Unit → Standing Content Entry → Prop where
  | made (hstored : (s.stored table).isSome ≠ content.isSome)
    (hentry : (s.entries table).isSome ≠ entry.isSome) :
    Outcome table content entry stray half Broken (.ok ())
      ((s.withStored table content).withEntry table entry)
  | failed {e : StoreError} (hnot : e.isConsistency = false) :
    Outcome table content entry stray half Broken (.error e) s
  | stray (hstored : (s.stored table).isSome = content.isSome)
    (hentry : (s.entries table).isSome ≠ entry.isSome) :
    Outcome table content entry stray half Broken (.error (.consistency table stray)) s
  | half {e : StoreError} (he : Outage e) (hbroken : Broken e)
    (hstored : (s.stored table).isSome ≠ content.isSome)
    (hentry : (s.entries table).isSome ≠ entry.isSome) :
    Outcome table content entry stray half Broken (.error (.consistency table (half e)))
      (s.withStored table content)

variable {s} {content : Option Content} {entry : Option Entry} {stray : String} {half : StoreError → String}
  {Broken : StoreError → Prop} {r : Except StoreError Unit}

theorem Outcome.imp {Broken' : StoreError → Prop} (h : s.Outcome table content entry stray half Broken r s')
    (hbroken : ∀ e, Broken e → Broken' e) : s.Outcome table content entry stray half Broken' r s' := by
  cases h with
  | made hstored hentry => exact .made hstored hentry
  | failed hnot => exact .failed hnot
  | stray hstored hentry => exact .stray hstored hentry
  | half he hb hstored hentry => exact .half he (hbroken _ hb) hstored hentry

end Standing

theorem Outage.not_consistency {e : StoreError} (h : Outage e) : e.isConsistency = false := by
  cases e with
  | consistency => exact h.elim
  | _ => rfl

theorem Outage.ne_tableNotFound {e : StoreError} (h : Outage e) (name : String) : e ≠ .tableNotFound name := by
  rintro rfl
  exact h

variable {Call V Content Entry α : Type} {Reply : Call → Type} (others : V → (c : Call) → Reply c → V → Prop)
  (view : V → Standing Content Entry) (ready : V → Prop)

/-- Whether an attempt leaves the cache alone, and what may come of it where the others are ready. -/
def Comes (x : Attempt (Program LookupCache Reply) α)
    (Q : Standing Content Entry → Except StoreError α → Standing Content Entry → Prop) : Prop :=
  ∀ w r w', ready w.outside → Ends others x.run w r w' →
    w'.content = w.content ∧ ready w'.outside ∧ Q (view w.outside) r (view w'.outside)

/-- Whether what is known of a table is true. -/
def Says (s : Standing Content Entry) (table : String) : Lookup → Prop
  | .found _ => (s.entries table).isSome
  | .missing => s.entries table = none

/-- Whether the others are ready, and what the cache knows is true if there is one. -/
structure Stands (remembers : Bool) (w : Place LookupCache V) : Prop where
  ready : ready w.outside
  coherent : remembers → ∀ table known, w.content.known? table = some known →
    Says (view w.outside) table known

/-- What may come of an attempt where all is well. -/
def Does (remembers : Bool) (x : Attempt (Program LookupCache Reply) α)
    (Q : Standing Content Entry → Except StoreError α → Standing Content Entry → Prop) : Prop :=
  ∀ w r w', Stands view ready remembers w → Ends others x.run w r w' →
    Stands view ready remembers w' ∧ Q (view w.outside) r (view w'.outside)

variable {others view ready} {remembers : Bool} {catalog : Catalog (Program LookupCache Reply)}
  {schema : TableSchema} {table : String}

/-- The last step of a change, which reports if it fails that storage and catalog are out of step. -/
def orDiverged (x : Attempt (Program LookupCache Reply) Unit) (table : String) (half : StoreError → String)
    (event : Event) : Attempt (Program LookupCache Reply) Unit := do
  match ← x.outcome with
  | .ok () => pure ()
  | .error e => diverged table (half e)
  report event

theorem ends_orDiverged {x : Attempt (Program LookupCache Reply) Unit} {half : StoreError → String}
    {event : Event} {w w' : Place LookupCache V} {r : Except StoreError Unit} :
    Ends others (orDiverged x table half event).run w r w' ↔
      r = .ok () ∧ Ends others x.run w (.ok ()) w' ∨
        ∃ e, Ends others x.run w (.error e) w' ∧ r = .error (.consistency table (half e)) := by
  rw [orDiverged, ends_outcome]
  constructor
  · rintro ⟨q, w₁, hx, hrest⟩
    cases q with
    | ok =>
      obtain ⟨rfl, rfl⟩ := ends_ok.1 hrest
      exact .inl ⟨rfl, hx⟩
    | error e =>
      obtain ⟨rfl, rfl⟩ := ends_throw.1 hrest
      exact .inr ⟨e, hx, rfl⟩
  · rintro (⟨rfl, hx⟩ | ⟨e, hx, rfl⟩)
    · exact ⟨.ok (), w', hx, rfl, rfl⟩
    · exact ⟨.error e, w', hx, rfl, rfl⟩

/-- Whether a step may end so, with the given failure, after another that has succeeded. -/
def FailsAfter (others : V → (c : Call) → Reply c → V → Prop)
    (first last : Attempt (Program LookupCache Reply) Unit) (w' : Place LookupCache V) (e : StoreError) : Prop :=
  ∃ w₁ w₂, Ends others first.run w₁ (.ok ()) w₂ ∧ Ends others last.run w₂ (.error e) w'

section Changes

variable {x y : Attempt (Program LookupCache Reply) Unit} {content : Option Content} {entry : Option Entry}
  {stray : String} {half : StoreError → String} {event : Event} {s : Standing Content Entry}
  {w w' : Place LookupCache V} {r : Except StoreError Unit}

/-- What comes of the last step, once the storage is changed. -/
theorem Does.last (hy : Does others view ready remembers y (·.Listed table entry))
    (hstored : (s.stored table).isSome ≠ content.isSome) (hentry : (s.entries table).isSome ≠ entry.isSome)
    (h : Stands view ready remembers w) (hs : view w.outside = s.withStored table content)
    (hends : Ends others (orDiverged y table half event).run w r w') :
    Stands view ready remembers w' ∧
      s.Outcome table content entry stray half (fun e => Ends others y.run w (.error e) w') r
        (view w'.outside) := by
  rcases ends_orDiverged.1 hends with ⟨rfl, hlast⟩ | ⟨e, hlast, rfl⟩
  · obtain ⟨h', hlisted⟩ := hy w _ w' h hlast
    refine ⟨h', ?_⟩
    rw [hs] at hlisted
    generalize view w'.outside = s' at hlisted
    cases hlisted with
    | made _ => exact .made hstored hentry
  · obtain ⟨h', hlisted⟩ := hy w _ w' h hlast
    refine ⟨h', ?_⟩
    rw [hs] at hlisted
    generalize view w'.outside = s' at hlisted
    cases hlisted with
    | refused heq => exact absurd heq hentry
    | failed he => exact .half he hlast hstored hentry

/-- A failure where nothing has changed. -/
theorem ends_unchanged {e : StoreError} {Broken : StoreError → Prop}
    (hends : Ends others (throw e : Attempt (Program LookupCache Reply) Unit).run w r w')
    (h : Stands view ready remembers w) (hs : view w.outside = s) (hnot : e.isConsistency = false) :
    Stands view ready remembers w' ∧
      s.Outcome table content entry stray half Broken r (view w'.outside) := by
  obtain ⟨rfl, rfl⟩ := ends_throw.1 hends
  refine ⟨h, ?_⟩
  rw [hs]
  exact .failed hnot

/-- What comes of changing the storage of a table and then its entry, once its entry is known to be as
before.  What is done next depends on how the first step ends. -/
theorem Does.storage {Conflict : StoreError → Prop}
    {next : Except StoreError Unit → Attempt (Program LookupCache Reply) Unit}
    (hx : Does others view ready remembers x (·.Stocked table content Conflict))
    (hy : Does others view ready remembers y (·.Listed table entry))
    (hok : next (.ok ()) = orDiverged y table half event)
    (hconflict : ∀ e, Conflict e → next (.error e) = diverged table stray)
    (houtage : ∀ e, Outage e → next (.error e) = throw e)
    (hentry : (s.entries table).isSome ≠ entry.isSome) (h : Stands view ready remembers w)
    (hs : view w.outside = s) (hends : Ends others (x.outcome >>= next).run w r w') :
    Stands view ready remembers w' ∧
      s.Outcome table content entry stray half (FailsAfter others x y w') r (view w'.outside) := by
  obtain ⟨q, w₁, hq, hends⟩ := ends_outcome.1 hends
  obtain ⟨h₁, hstocked⟩ := hx w q w₁ h hq
  rw [hs] at hstocked
  generalize hs₁ : view w₁.outside = s₁ at hstocked
  cases hstocked with
  | made hstored =>
    rw [hok] at hends
    obtain ⟨h', houtcome⟩ := hy.last hstored hentry h₁ hs₁ hends
    exact ⟨h', houtcome.imp fun e hlast => ⟨w, w₁, hq, hlast⟩⟩
  | refused hstored he =>
    rw [hconflict _ he] at hends
    obtain ⟨rfl, rfl⟩ := ends_throw.1 hends
    refine ⟨h₁, ?_⟩
    rw [hs₁]
    exact .stray hstored hentry
  | failed he =>
    rw [houtage _ he] at hends
    exact ends_unchanged hends h₁ hs₁ he.not_consistency

/-- What may come of creating a table. -/
theorem Does.create {createStorage : TableSchema → Attempt (Program LookupCache Reply) Unit}
    (hentry : entry.isSome)
    (hfind : Does others view ready remembers (catalog.find schema.name) (·.Found schema.name))
    (hstore : Does others view ready remembers (createStorage schema)
      (·.Stocked schema.name content fun e => ∃ name, e = .tableAlreadyExists name))
    (hregister : Does others view ready remembers (catalog.register schema) (·.Listed schema.name entry))
    (h : Stands view ready remembers w)
    (hends : Ends others (create catalog createStorage schema).run w r w') :
    Stands view ready remembers w' ∧
      (view w.outside).Outcome schema.name content entry "backend storage exists without a registry entry"
        (fun e => s!"storage created but registering the schema failed: {e}")
        (FailsAfter others (createStorage schema) (catalog.register schema) w') r (view w'.outside) := by
  unfold Definition.create at hends
  rw [ends_andThen] at hends
  rcases hends with ⟨_, w₀, hcheck, hends⟩ | ⟨e, hcheck, rfl⟩
  · obtain ⟨-, rfl⟩ := ends_of.1 hcheck
    obtain ⟨q, w₁, hq, hends⟩ := ends_outcome.1 hends
    obtain ⟨h₁, hfound⟩ := hfind w₀ q w₁ h hq
    generalize hs₁ : view w₁.outside = s₁ at hfound
    cases hfound with
    | found schema' hsome => exact ends_unchanged hends h₁ hs₁ rfl
    | missing name hnone =>
      refine Does.storage hstore hregister rfl ?_ ?_ (by simp [hnone, hentry]) h₁ hs₁ hends
      · rintro _ ⟨name, rfl⟩
        rfl
      · intro e he
        cases e with
        | tableAlreadyExists => exact he.elim
        | _ => rfl
    | @failed e he hnot =>
      have hthrow : Ends others (throw e : Attempt (Program LookupCache Reply) Unit).run w₁ r w' := by
        cases e with
        | tableNotFound name => exact absurd rfl (he name)
        | _ => exact hends
      exact ends_unchanged hthrow h₁ hs₁ hnot
  · obtain ⟨hvalid, rfl⟩ := ends_of.1 hcheck
    obtain ⟨reason, rfl⟩ := TableSchema.validate_error hvalid.symm
    exact ⟨h, .failed rfl⟩

/-- What may come of dropping a table, which may be subject to a condition that holds if it is listed. -/
theorem Does.drop {dropStorage : String → Attempt (Program LookupCache Reply) Unit} {Listable : Prop}
    (hlistable : ∀ v, ready v → ((view v).entries table).isSome → Listable)
    (hfind : Does others view ready remembers (catalog.find table) (·.Found table))
    (hstore : Listable → Does others view ready remembers (dropStorage table)
      (·.Stocked table none fun e => ∃ name, e = .tableNotFound name))
    (hremove : Listable → Does others view ready remembers (catalog.remove table) (·.Listed table none))
    (h : Stands view ready remembers w)
    (hends : Ends others (drop catalog dropStorage table).run w r w') :
    Stands view ready remembers w' ∧
      (view w.outside).Outcome table none none "registry entry exists without backend storage"
        (fun e => s!"storage dropped but removing the schema failed: {e}")
        (FailsAfter others (dropStorage table) (catalog.remove table) w') r (view w'.outside) := by
  unfold Definition.drop at hends
  rw [ends_andThen] at hends
  rcases hends with ⟨schema, w₁, hq, hends⟩ | ⟨e, hq, rfl⟩
  · obtain ⟨h₁, hfound⟩ := hfind w _ w₁ h hq
    generalize hs₁ : view w₁.outside = s₁ at hfound
    cases hfound with
    | found _ hsome =>
      have hlisted := hlistable w.outside h.ready hsome
      refine Does.storage (hstore hlisted) (hremove hlisted) rfl ?_ ?_ (by simp [hsome]) h₁ hs₁ hends
      · rintro _ ⟨name, rfl⟩
        rfl
      · intro e he
        cases e with
        | tableNotFound => exact he.elim
        | _ => rfl
  · obtain ⟨h', hfound⟩ := hfind w _ w' h hq
    refine ⟨h', ?_⟩
    generalize view w'.outside = s' at hfound
    cases hfound with
    | missing name hnone => exact .failed rfl
    | failed he hnot => exact .failed hnot

end Changes

/-! ### A cache in between -/

theorem Comes.does {x : Attempt (Program LookupCache Reply) α}
    {Q : Standing Content Entry → Except StoreError α → Standing Content Entry → Prop}
    (h : Comes others view ready x Q) (hentries : ∀ s r s', Q s r s' → s'.entries = s.entries) :
    Does others view ready remembers x Q := by
  intro w r w' hw hends
  obtain ⟨hcontent, hready, hq⟩ := h w r w' hw.ready hends
  refine ⟨⟨hready, fun hremembers table known hknown => ?_⟩, hq⟩
  rw [hcontent] at hknown
  have htold := hw.coherent hremembers table known hknown
  unfold Says at *
  rw [hentries _ _ _ hq]
  exact htold

/-- Without a cache there is nothing to keep in mind. -/
theorem Comes.does_plain {x : Attempt (Program LookupCache Reply) α}
    {Q : Standing Content Entry → Except StoreError α → Standing Content Entry → Prop}
    (h : Comes others view ready x Q) : Does others view ready false x Q := by
  intro w r w' hw hends
  obtain ⟨-, hready, hq⟩ := h w r w' hw.ready hends
  exact ⟨⟨hready, nofun⟩, hq⟩

/-- A lookup through a cache comes to what the lookup behind it comes to. -/
theorem Comes.lookup {load : Attempt (Program LookupCache Reply) TableSchema}
    (h : Comes others view ready load (·.Found table)) :
    Does others view ready true (Catalog.lookup cell table load) (·.Found table) := by
  intro w r w' hw hends
  rw [Catalog.ends_lookup] at hends
  cases hknown : w.content.known? table with
  | some known =>
    rw [hknown, LookupCache.withSlot_eq_self hknown] at hends
    obtain ⟨rfl, rfl⟩ := hends
    have htold := hw.coherent rfl table known hknown
    refine ⟨hw, ?_⟩
    cases known with
    | found schema => exact .found schema htold
    | missing => exact .missing table htold
  | none =>
    rw [hknown] at hends
    obtain ⟨w₁, hload, rfl⟩ := hends
    obtain ⟨hcontent, hready, hfound⟩ := h { w with content := w.content.withSlot table } r w₁ hw.ready hload
    have hsame : view w₁.outside = view w.outside := by
      generalize view w₁.outside = s₁ at hfound
      cases hfound <;> rfl
    refine ⟨⟨hready, fun hremembers other known hother => ?_⟩, hfound⟩
    rw [hcontent, LookupCache.known?_settle hknown] at hother
    rw [hsame] at hfound ⊢
    split at hother
    · rename_i heq
      subst heq
      cases hfound with
      | found schema hsome =>
        cases hother
        exact hsome
      | missing name hnone =>
        cases hother
        exact hnone
      | @failed e he hnot =>
        cases e with
        | tableNotFound name => exact absurd rfl (he name)
        | _ => cases hother
    · exact hw.coherent hremembers other known hother

/-- A change through a cache comes to what the change behind it comes to. -/
theorem Comes.change {apply : Attempt (Program LookupCache Reply) Unit} {entry : Option Entry}
    {meaning : Lookup} (h : Comes others view ready apply (·.Listed table entry))
    (hmeaning : ∀ s : Standing Content Entry, Says (s.withEntry table entry) table meaning) :
    Does others view ready true (Catalog.change cell table meaning apply) (·.Listed table entry) := by
  intro w r w' hw hends
  rw [Catalog.ends_change] at hends
  obtain ⟨w₁, happly, rfl⟩ := hends
  obtain ⟨hcontent, hready, hlisted⟩ := h { w with content := w.content.withSlot table } r w₁ hw.ready happly
  refine ⟨⟨hready, fun hremembers other known hother => ?_⟩, hlisted⟩
  rw [hcontent, LookupCache.known?_changed] at hother
  generalize view w₁.outside = s₁ at hlisted ⊢
  split at hother
  · rename_i heq
    subst heq
    cases hlisted with
    | made _ =>
      cases hother
      exact hmeaning _
    | refused | failed => cases hother
  · rename_i hne
    have htold := hw.coherent hremembers other known hother
    cases hlisted with
    | made _ =>
      unfold Says Standing.withEntry at *
      simp only [Function.update_of_ne (Ne.symm hne)]
      exact htold
    | refused | failed => exact htold

end Definition

end Tabular
