import Tabular.Proofs.Provider.Keyed
import Tabular.Proofs.Provider.Tabled

/-!
# Tabular.Proofs.Provider.Definitions — tables created and dropped while nobody else is at work

Main statements: `safely_create` and `safely_drop`, all rows fit at every stage, whatever fails, if they do at
every stage of each step; and `safely_task`, so it is for every task that is one for times when nobody else is
at work.
-/

namespace Tabular.Provider

open Sharing (Throughout)

variable {kind : StorageKind} {listed listed' : Schemas} {cache : LookupCache} {w : Place} {table : String}
  {schema : TableSchema} {α : Type}

/-! ### The cache -/

theorem Found.congr {r : Except StoreError TableSchema} (h : Found listed table r)
    (hsame : listed' table = listed table) : Found listed' table r where
  of_ok schema hr := by
    obtain ⟨hname, hlisted⟩ := h.of_ok schema hr
    exact ⟨hname, hsame.trans hlisted⟩
  of_missing name hr := hsame.trans (h.of_missing name hr)

/-- A change of an entry leaves behind what is true after it. -/
theorem Coherent.changed {entry : Option { schema : TableSchema // schema.name = table }} {meaning : Lookup}
    {r : Except StoreError Unit} (h : Coherent listed cache) (hrelists : Relists listed table entry r listed')
    (hmeaning : listed' table = entry → Found listed' table (meaning.answer table)) :
    Coherent listed' ((cache.withSlot table).changed table meaning r) := by
  intro other known hknown
  rw [LookupCache.known?_changed] at hknown
  split at hknown
  · rename_i heq
    subst heq
    cases r with
    | ok =>
      cases hknown
      exact hmeaning (hrelists.of_ok rfl)
    | error e => cases hknown
  · rename_i hother
    exact (h other known hknown).congr (hrelists.others other (Ne.symm hother))

/-- The change of an entry through the cache. -/
theorem safely_change {apply : Attempt Program Unit} {meaning : Lookup}
    {entry : Option { schema : TableSchema // schema.name = table }} (hw : Settled kind listed w)
    (hname : ¬ Reserved kind table) (hbare : Bare kind w.outside table)
    (happly : ∀ w cache, Stage kind listed (· = table) nothing cache w → Safely kind
      (fun w r => ∃ listed' bare, Stage kind listed' bare nothing cache w ∧ Relists listed table entry r listed')
      apply.run w)
    (hmeaning : ∀ listed' : Schemas, listed' table = entry → Found listed' table (meaning.answer table)) :
    Safely kind (fun w _ => ∃ listed', Settled kind listed' w)
      (Catalog.change Sharing.cell table meaning apply).run w := by
  have hslot : Safely kind (fun w' _ => Stage kind listed (· = table) nothing (w.content.withSlot table) w')
      (Sharing.cell.modify (·.withSlot table)) w := by
    refine Throughout.modify hw.fine hw.fine ⟨hw.orderly, ?_, hw.staged?_eq, rfl⟩
    rintro _ rfl
    exact ⟨hname, hbare⟩
  refine hslot.lift fun w₁ _ _ hw₁ => ?_
  refine (happly w₁ _ hw₁).outcome ?_
  rintro w₂ r - ⟨listed', bare, hw₂, hrelists⟩
  have hsettled : Safely kind (fun w _ => Settled kind listed' w)
      (Sharing.cell.modify (·.changed table meaning r)) w₂ := by
    refine Throughout.modify hw₂.fine hw₂.fine ⟨hw₂.orderly, ?_, hw₂.quiet⟩
    rw [hw₂.content]
    exact hw.coherent.changed hrelists (hmeaning listed')
  refine hsettled.lift fun w₃ _ _ hw₃ => ?_
  exact ⟨hw₃.fine, listed', hw₃⟩

/-! ### Creating and dropping -/

section Changes

variable {catalog : Catalog Program}

/-- All rows fit at every stage of the creation of a table, if they do at every stage of each step. -/
theorem safely_create {createStorage : TableSchema → Attempt Program Unit} (hw : Settled kind listed w)
    (hname : ¬ Reserved kind schema.name)
    (hfind : ∀ w, Settled kind listed w →
      Safely kind (fun w r => Settled kind listed w ∧ Found listed schema.name r) (catalog.find schema.name).run w)
    (hstorage : ∀ w, Settled kind listed w →
      Safely kind (fun w _ => Settled kind listed w) (createStorage schema).run w)
    (hregister : schema.validate = .ok () → ∀ w, Settled kind listed w → Bare kind w.outside schema.name →
      Safely kind (fun w _ => ∃ listed', Settled kind listed' w) (catalog.register schema).run w) :
    Safely kind (fun w _ => ∃ listed', Settled kind listed' w)
      (Definition.create catalog createStorage schema).run w := by
  have hthrow : ∀ {w : Place} {listed : Schemas} (e : StoreError), Settled kind listed w →
      Safely kind (fun w _ => ∃ listed', Settled kind listed' w)
        (throw e : Attempt Program Unit).run w := fun e hw => ⟨hw.fine, _, hw⟩
  unfold Definition.create
  cases hvalid : schema.validate with
  | error e => exact hthrow e hw
  | ok =>
    refine Throughout.outcome (hfind w hw) ?_
    rintro w₁ r - ⟨hw₁, hfound⟩
    cases r with
    | ok _ => exact hthrow _ hw₁
    | error e =>
      cases e with
      | tableNotFound name =>
        -- The table is not listed, so it has no rows yet that an entry would have to fit.
        have hlisted := hfound.of_missing name rfl
        refine Throughout.outcome (hstorage w₁ hw₁) ?_
        rintro w₂ r - hw₂
        cases r with
        | ok =>
          refine Throughout.outcome (hregister hvalid w₂ hw₂ (hw₂.orderly.bare hname hlisted)) ?_
          rintro w₃ r - ⟨listed', hw₃⟩
          cases r with
          | ok => exact ⟨hw₃.fine, listed', hw₃⟩
          | error e => exact hthrow _ hw₃
        | error e => cases e <;> exact hthrow _ hw₂
      | _ => exact hthrow _ hw₁

/-- All rows fit at every stage of the dropping of a table, if they do at every stage of each step. -/
theorem safely_drop {dropStorage : String → Attempt Program Unit} (hw : Settled kind listed w)
    (hfind : ∀ w, Settled kind listed w →
      Safely kind (fun w r => Settled kind listed w ∧ Found listed table r) (catalog.find table).run w)
    (hstorage : ¬ Reserved kind table → ∀ w, Settled kind listed w →
      Safely kind (fun w r => Settled kind listed w ∧ (r = .ok () → Bare kind w.outside table))
        (dropStorage table).run w)
    (hremove : ¬ Reserved kind table → ∀ w, Settled kind listed w → Bare kind w.outside table →
      Safely kind (fun w _ => ∃ listed', Settled kind listed' w) (catalog.remove table).run w) :
    Safely kind (fun w _ => ∃ listed', Settled kind listed' w)
      (Definition.drop catalog dropStorage table).run w := by
  have hthrow : ∀ {w : Place} {listed : Schemas} (e : StoreError), Settled kind listed w →
      Safely kind (fun w _ => ∃ listed', Settled kind listed' w)
        (throw e : Attempt Program Unit).run w := fun e hw => ⟨hw.fine, _, hw⟩
  refine (hfind w hw).andThen ?_ fun w _ hw => ⟨listed, hw.1⟩
  rintro w₁ schema - ⟨hw₁, hfound⟩
  have hname : ¬ Reserved kind table := fun hreserved =>
    (hfound.of_ok schema rfl).ne_none (hw₁.orderly.reserved table hreserved)
  refine Throughout.outcome (hstorage hname w₁ hw₁) ?_
  rintro w₂ r - ⟨hw₂, hbare⟩
  cases r with
  | ok =>
    refine Throughout.outcome (hremove hname w₂ hw₂ (hbare rfl)) ?_
    rintro w₃ r - ⟨listed', hw₃⟩
    cases r with
    | ok => exact ⟨hw₃.fine, listed', hw₃⟩
    | error e => exact hthrow _ hw₃
  | error e => cases e <;> exact hthrow _ hw₂

end Changes

/-! ### Tasks -/

section Tasks

variable {setup : Setup}

theorem found_of_listed (hlisted : listed schema.name = some ⟨schema, rfl⟩) :
    Found listed schema.name (.ok schema) where
  of_ok _ h := by
    cases h
    exact ⟨rfl, hlisted⟩
  of_missing _ h := by cases h

theorem safely_versioned_createTable (hw : Settled .versioned listed w) :
    Safely .versioned (fun w _ => ∃ listed', Settled .versioned listed' w)
      (Definition.create keyedCatalog (fun schema => store (.createTable schema.name)) schema).run w := by
  refine safely_create hw id (fun w hw => looks_keyedCatalog.safely hw)
    (fun w hw => safely_store_createTable hw) fun hvalid w hw hbare => ?_
  exact safely_change hw id hbare (fun w cache hw => safely_keyed_register hvalid hw) fun _ => found_of_listed

theorem safely_versioned_dropTable (hw : Settled .versioned listed w) :
    Safely .versioned (fun w _ => ∃ listed', Settled .versioned listed' w)
      (Definition.drop keyedCatalog (fun table => store (.dropTable table)) table).run w := by
  refine safely_drop hw (fun w hw => looks_keyedCatalog.safely hw) (fun _ w hw => safely_store_dropTable hw)
    fun hname w hw hbare => ?_
  exact safely_change hw hname hbare (fun w cache hw => safely_keyed_remove hw) fun _ => .missing

theorem safely_relational_createTable (hw : Settled .relational listed w) :
    Safely .relational (fun w _ => ∃ listed', Settled .relational listed' w)
      ((Definition.relational database tabledCatalog).createTable schema).run w := by
  by_cases hname : schema.name = Catalog.catalogTable
  · simp only [Definition.relational, if_pos hname]
    exact ⟨hw.fine, listed, hw⟩
  · simp only [Definition.relational, if_neg hname]
    refine safely_create hw hname (fun w hw => looks_tabledCatalog.safely hw)
      (fun w hw => safely_database_createTable hname hw) fun hvalid w hw hbare => ?_
    exact safely_change hw hname hbare (fun w cache hw => safely_tabled_register hvalid hw) fun _ => found_of_listed

theorem safely_relational_dropTable (hw : Settled .relational listed w) :
    Safely .relational (fun w _ => ∃ listed', Settled .relational listed' w)
      (Definition.drop tabledCatalog
        (fun table => database.withConnection fun session => database.perform (.dropTable session table))
        table).run w := by
  refine safely_drop hw (fun w hw => looks_tabledCatalog.safely hw)
    (fun hname w hw => safely_database_dropTable hname hw) fun hname w hw hbare => ?_
  exact safely_change hw hname hbare (fun w cache hw => safely_tabled_remove hw) fun _ => .missing

/-- All rows fit at every stage of a task that is one for times when nobody else is at work. -/
theorem safely_task {task : Task α} (htask : task.Alone) (hw : Settled setup.kind listed w) :
    Safely setup.kind (fun w _ => ∃ listed', Settled setup.kind listed' w) (task.program setup) w := by
  have hdone : ∀ {x : Attempt Program Unit},
      Safely setup.kind (fun w _ => ∃ listed', Settled setup.kind listed' w) x.run w →
      Safely setup.kind (fun w _ => ∃ listed', Settled setup.kind listed' w)
        ((fun _ => Engine.Answer.done (α := α)) <$> x).run w := fun hx =>
    hx.andThen (fun w _ hfine hpost => ⟨hfine, hpost⟩) fun w e hpost => hpost
  obtain ⟨storage, settings, strategy⟩ := setup
  cases task with
  | prepare =>
    refine hdone ?_
    cases storage with
    | versioned => exact ⟨hw.fine, listed, hw⟩
    | relational =>
      have hdescribe : Safely .relational (fun w _ => Settled .relational listed w)
          database.describe w := by
        have hcall : Safely .relational
            (fun w' _ => Stage .relational listed (fun _ => False) nothing w.content w') database.describe w := by
          refine Safely.call hw.stage (fun _ _ hw => hw.fine) fun w' url b hw' hanswer => ?_
          obtain ⟨-, rfl⟩ := hanswer
          exact hw'
        exact hcall.mono fun w' _ hw' => hw'.settled hw.coherent
      refine hdescribe.lift fun w₁ url _ hw₁ => ?_
      exact (safely_prepare hw₁).mono fun w₂ _ hw₂ => ⟨listed, hw₂⟩
  | ask request =>
    cases request with
    | createTable schema =>
      refine hdone ?_
      cases storage with
      | versioned => exact safely_versioned_createTable hw
      | relational => exact safely_relational_createTable hw
    | dropTable table =>
      refine hdone ?_
      cases storage with
      | versioned => exact safely_versioned_dropTable hw
      | relational => exact safely_relational_dropTable hw
    | schemaOf table => exact htask.elim
    | isDefined table => exact htask.elim
    | run work => exact htask.elim

end Tasks

end Tabular.Provider
