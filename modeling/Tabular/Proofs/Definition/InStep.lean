import Tabular.Proofs.Definition.Keyed
import Tabular.Proofs.Definition.Tabled
import Tabular.Proofs.Work.Samples

/-!
# Tabular.Proofs.Definition.InStep — storage and catalog stay in step, or it is reported

Main statements: `Outcome.settled` and `Outcome.inStepAt_iff`, what may come of creating or dropping a table
says about being in step; `carriedOut_inStepAt` and `Runs.inStepAt`, that a table is out of step if and only
if that was reported, after one call and after many; and `in_step_or_reported`, what that comes to.
-/

namespace Tabular.Definition

open Sharing
open Samples (notes)

/-! ### In step -/

/-- Whether a table is reported to be out of step. -/
def Reports (table : String) (r : Except StoreError Unit) : Prop :=
  ∃ detail, r = .error (.consistency table detail)

theorem not_reports_of_isConsistency {e : StoreError} (h : e.isConsistency = false) (table : String) :
    ¬ Reports table (.error e) := by
  rintro ⟨detail, heq⟩
  cases heq
  cases h

namespace Standing

variable {Content Entry : Type} (s s' : Standing Content Entry) (table : String) (content : Option Content)
  (entry : Option Entry)

/-- Whether exactly the tables in the catalog have storage. -/
def InStep : Prop := ∀ table, s.InStepAt table

/-- What creating or dropping a table comes to in step. -/
structure Settled (half : StoreError → String) (Broken : StoreError → Prop) (r : Except StoreError Unit) :
    Prop where
  of_ok : r = .ok () → (s.stored table).isSome ≠ content.isSome ∧ (s.entries table).isSome ≠ entry.isSome ∧
    s' = (s.withStored table content).withEntry table entry
  of_error : ∀ e, r = .error e → e.isConsistency = false → s' = s
  of_consistency : ∀ name detail, r = .error (.consistency name detail) →
    name = table ∧ (∃ e, Outage e ∧ Broken e ∧ detail = half e) ∧
      (s.stored table).isSome ≠ content.isSome ∧ s' = s.withStored table content ∧
      ∀ other, s'.InStepAt other ↔ other ≠ table

variable {s s' table content entry} {other stray : String} {half : StoreError → String}
  {Broken : StoreError → Prop} {r : Except StoreError Unit}

theorem inStepAt_withStored_of_ne (h : other ≠ table) :
    (s.withStored table content).InStepAt other ↔ s.InStepAt other := by
  simp [InStepAt, withStored, Function.update_of_ne h]

theorem inStepAt_withEntry_of_ne (h : other ≠ table) :
    (s.withEntry table entry).InStepAt other ↔ s.InStepAt other := by
  simp [InStepAt, withEntry, Function.update_of_ne h]

/-- With storage changed alone, the entry is as it was. -/
theorem not_inStepAt_withStored (hsame : content.isSome = entry.isSome)
    (hentry : (s.entries table).isSome ≠ entry.isSome) : ¬ (s.withStored table content).InStepAt table := by
  have hself : (s.withStored table content).stored table = content := Function.update_self ..
  intro h
  rw [InStepAt, hself, hsame] at h
  exact hentry h.symm

theorem inStepAt_made (hsame : content.isSome = entry.isSome) :
    ((s.withStored table content).withEntry table entry).InStepAt table := by
  simp [InStepAt, withEntry, withStored, hsame]

theorem Outcome.settled (hstep : s.InStep) (hsame : content.isSome = entry.isSome)
    (h : s.Outcome table content entry stray half Broken r s') :
    s.Settled s' table content entry half Broken r := by
  cases h with
  | made hstored hentry => exact ⟨fun _ => ⟨hstored, hentry, rfl⟩, nofun, nofun⟩
  | failed hnot =>
    refine ⟨nofun, fun _ _ _ => rfl, fun name detail hr => ?_⟩
    exact absurd ⟨detail, hr⟩ (not_reports_of_isConsistency hnot name)
  | stray hstored hentry =>
    exact absurd ((hstep table).symm.trans (hstored.trans hsame)) hentry
  | half he hbroken hstored hentry =>
    refine ⟨nofun, fun e hr hnot => ?_, fun name detail hr => ?_⟩
    · cases hr
      cases hnot
    · cases hr
      refine ⟨rfl, ⟨_, he, hbroken, rfl⟩, hstored, rfl, fun other => ⟨?_, fun hother => ?_⟩⟩
      · rintro hother rfl
        exact not_inStepAt_withStored hsame hentry hother
      · exact (inStepAt_withStored_of_ne hother).2 (hstep other)

/-- A table that is out of step stays so, and becomes so only if that is reported. -/
theorem Outcome.inStepAt_iff (hsame : content.isSome = entry.isSome)
    (h : s.Outcome table content entry stray half Broken r s') (other : String) :
    s'.InStepAt other ↔ s.InStepAt other ∧ ¬ Reports other r := by
  cases h with
  | made hstored hentry =>
    have hnot : ¬ Reports other (.ok ()) := nofun
    by_cases hother : other = table
    · subst hother
      have hbefore : s.InStepAt other := by
        rw [← hsame] at hentry
        exact (Bool.eq_not.2 hstored).trans (Bool.eq_not.2 hentry).symm
      exact iff_of_true (inStepAt_made hsame) ⟨hbefore, hnot⟩
    · rw [inStepAt_withEntry_of_ne hother, inStepAt_withStored_of_ne hother]
      exact (and_iff_left hnot).symm
  | failed hnot => exact (and_iff_left (not_reports_of_isConsistency hnot other)).symm
  | stray hstored hentry =>
    have hout : ¬ s.InStepAt table := fun hbefore =>
      hentry (hbefore.symm.trans (hstored.trans hsame))
    refine ⟨fun hother => ⟨hother, ?_⟩, And.left⟩
    rintro ⟨detail, heq⟩
    cases heq
    exact hout hother
  | half he hbroken hstored hentry =>
    by_cases hother : other = table
    · subst hother
      exact iff_of_false (not_inStepAt_withStored hsame hentry) fun hboth => hboth.2 ⟨_, rfl⟩
    · rw [inStepAt_withStored_of_ne hother]
      refine (and_iff_left ?_).symm
      rintro ⟨detail, heq⟩
      cases heq
      exact hother rfl

/-- A lookup changes nothing, and never says that a table is out of step. -/
theorem Found.unchanged {r : Except StoreError TableSchema} (h : s.Found table r s') :
    s' = s ∧ ∀ e, r = .error e → e.isConsistency = false := by
  cases h with
  | found schema hsome => exact ⟨rfl, nofun⟩
  | missing name hnone =>
    refine ⟨rfl, fun e heq => ?_⟩
    cases heq
    rfl
  | failed he hnot =>
    refine ⟨rfl, fun e heq => ?_⟩
    cases heq
    exact hnot

end Standing

/-! ### Definitions over either family -/

/-- The catalog of a family. -/
def plainCatalog : StorageKind → Catalog BackendProgram
  | .versioned => Catalog.keyed askedStore
  | .relational => Catalog.tabled askedDatabase

/-- The catalog of a family, behind a cache or not. -/
def catalogOf (kind : StorageKind) (remembers : Bool) : Catalog BackendProgram :=
  if remembers then (plainCatalog kind).cached cell else plainCatalog kind

/-- The definition over a family. -/
def definitionOf (kind : StorageKind) (remembers : Bool) : Definition BackendProgram :=
  match kind with
  | .versioned => versioned askedStore (catalogOf .versioned remembers)
  | .relational => relational askedDatabase (catalogOf .relational remembers)

/-- The step of a definition that creates storage. -/
def createStorage (kind : StorageKind) (schema : TableSchema) : Attempt BackendProgram Unit :=
  match kind with
  | .versioned => askedStore (.createTable schema.name)
  | .relational =>
    askedDatabase.withConnection fun session => askedDatabase.perform (.createTable session schema)

/-- The step of a definition that drops storage. -/
def dropStorage (kind : StorageKind) (table : String) : Attempt BackendProgram Unit :=
  match kind with
  | .versioned => askedStore (.dropTable table)
  | .relational => askedDatabase.withConnection fun session => askedDatabase.perform (.dropTable session table)

/-- The storage of a table without rows. -/
def emptyContent : (kind : StorageKind) → Content kind
  | .versioned => (∅ : VersionedTable)
  | .relational => (∅ : Rows)

/-- The entry of a table with a schema. -/
def entryOf (schema : TableSchema) : (kind : StorageKind) → Entry kind
  | .versioned => schema.document
  | .relational => Catalog.catalogRow schema

/-- Whether a table may have a name: that of the catalog's own table is taken. -/
def Free (kind : StorageKind) (table : String) : Prop := kind = .relational → table ≠ Catalog.catalogTable

/-- What may come of an attempt at a definition over a family. -/
abbrev BackendDoes (kind : StorageKind) (remembers : Bool) {α : Type} (x : Attempt BackendProgram α)
    (Q : Standing (Content kind) (Entry kind) → Except StoreError α → Standing (Content kind) (Entry kind) →
      Prop) : Prop :=
  Does Backends.Answers (·.standing kind) (·.Prepared kind) remembers x Q

/-- Whether all is well with a cache and the collaborators of a family. -/
abbrev BackendStands (kind : StorageKind) (remembers : Bool) (w : BackendPlace) : Prop :=
  Stands (·.standing kind) (·.Prepared kind) remembers w

variable {kind : StorageKind} {remembers : Bool} {schema : TableSchema} {table : String}
  {w w' : BackendPlace} {r : Except StoreError Unit}

/-- An empty cache says nothing that is not true. -/
theorem stands_of_prepared {b : Backends} (h : b.Prepared kind) : BackendStands kind remembers ⟨∅, b⟩ :=
  ⟨h, fun _ table known hknown => by simp [LookupCache.known?] at hknown⟩

theorem free_of_isSome (b : Backends) (hready : b.Prepared kind)
    (hsome : ((b.standing kind).entries table).isSome) : Free kind table := by
  rintro rfl rfl
  rw [hready.2] at hsome
  cases hsome

theorem plain_find : BackendComes kind ((plainCatalog kind).find table) (·.Found table) := by
  cases kind with
  | versioned => exact keyed_find
  | relational => exact tabled_find

theorem plain_register (hname : Free kind schema.name) :
    BackendComes kind ((plainCatalog kind).register schema)
      (·.Listed schema.name (some (entryOf schema kind))) := by
  cases kind with
  | versioned => exact keyed_register
  | relational => exact tabled_register (hname rfl)

theorem plain_remove (hname : Free kind table) :
    BackendComes kind ((plainCatalog kind).remove table) (·.Listed table none) := by
  cases kind with
  | versioned => exact keyed_remove
  | relational => exact tabled_remove (hname rfl)

theorem find_does : BackendDoes kind remembers ((catalogOf kind remembers).find table) (·.Found table) := by
  cases remembers with
  | false => exact plain_find.does_plain
  | true => exact plain_find.lookup

theorem register_does (hname : Free kind schema.name) :
    BackendDoes kind remembers ((catalogOf kind remembers).register schema)
      (·.Listed schema.name (some (entryOf schema kind))) := by
  cases remembers with
  | false => exact (plain_register hname).does_plain
  | true =>
    refine (plain_register hname).change fun s => ?_
    simp [Says, Standing.withEntry]

theorem remove_does (hname : Free kind table) :
    BackendDoes kind remembers ((catalogOf kind remembers).remove table) (·.Listed table none) := by
  cases remembers with
  | false => exact (plain_remove hname).does_plain
  | true =>
    refine (plain_remove hname).change fun s => ?_
    simp [Says, Standing.withEntry]

theorem createStorage_does (hname : Free kind schema.name) :
    BackendDoes kind remembers (createStorage kind schema)
      (·.Stocked schema.name (some (emptyContent kind)) fun e => ∃ name, e = .tableAlreadyExists name) := by
  refine Comes.does ?_ fun s r s' h => by cases h <;> rfl
  cases kind with
  | versioned => exact store_createTable
  | relational => exact database_createTable (hname rfl)

theorem dropStorage_does (hname : Free kind table) :
    BackendDoes kind remembers (dropStorage kind table)
      (·.Stocked table none fun e => ∃ name, e = .tableNotFound name) := by
  refine Comes.does ?_ fun s r s' h => by cases h <;> rfl
  cases kind with
  | versioned => exact store_dropTable
  | relational => exact database_dropTable (hname rfl)

/-! ### Creating and dropping -/

/-- What is said if only the storage was created. -/
def createdOnly (e : StoreError) : String := s!"storage created but registering the schema failed: {e}"

/-- What is said if only the storage was dropped. -/
def droppedOnly (e : StoreError) : String := s!"storage dropped but removing the schema failed: {e}"

theorem ends_createTable (hw : BackendStands kind remembers w)
    (hends : Ends Backends.Answers ((definitionOf kind remembers).createTable schema).run w r w') :
    BackendStands kind remembers w' ∧
      (w.outside.standing kind).Outcome schema.name (some (emptyContent kind)) (some (entryOf schema kind))
        "backend storage exists without a registry entry" createdOnly
        (FailsAfter Backends.Answers (createStorage kind schema) ((catalogOf kind remembers).register schema) w')
        r (w'.outside.standing kind) := by
  cases kind with
  | versioned =>
    have hname : Free .versioned schema.name := nofun
    exact Does.create rfl find_does (createStorage_does hname) (register_does hname) hw hends
  | relational =>
    by_cases hname : schema.name = Catalog.catalogTable
    · simp only [definitionOf, relational, if_pos hname] at hends
      obtain ⟨rfl, rfl⟩ := ends_throw.1 hends
      exact ⟨hw, .failed rfl⟩
    · simp only [definitionOf, relational, if_neg hname] at hends
      exact Does.create rfl find_does (createStorage_does fun _ => hname) (register_does fun _ => hname) hw hends

theorem ends_dropTable (hw : BackendStands kind remembers w)
    (hends : Ends Backends.Answers ((definitionOf kind remembers).dropTable table).run w r w') :
    BackendStands kind remembers w' ∧
      (w.outside.standing kind).Outcome table none none "registry entry exists without backend storage"
        droppedOnly
        (FailsAfter Backends.Answers (dropStorage kind table) ((catalogOf kind remembers).remove table) w')
        r (w'.outside.standing kind) := by
  cases kind with
  | versioned =>
    exact Does.drop free_of_isSome find_does dropStorage_does remove_does hw hends
  | relational =>
    exact Does.drop free_of_isSome find_does dropStorage_does remove_does hw hends

/-! ### One call after another -/

/-- What a definition is asked to do. -/
inductive Order where
  | create (schema : TableSchema)
  | drop (table : String)
  | schemaOf (table : String)
  | isDefined (table : String)

/-- How an order is carried out, if it does not matter what a lookup answers. -/
def Order.carriedOut (d : Definition BackendProgram) : Order → Attempt BackendProgram Unit
  | create schema => d.createTable schema
  | drop table => d.dropTable table
  | schemaOf table => do
    let _ ← d.schemaOf table
    return ()
  | isDefined table => do
    let _ ← d.isDefined table
    return ()

/-- Whether orders may be carried out one after another and end so. -/
inductive Runs (d : Definition BackendProgram) :
    BackendPlace → List (Order × Except StoreError Unit) → BackendPlace → Prop where
  | nil (w : BackendPlace) : Runs d w [] w
  | cons {w w₁ w' : BackendPlace} {order : Order} {r : Except StoreError Unit}
    {log : List (Order × Except StoreError Unit)}
    (h : Ends Backends.Answers (order.carriedOut d).run w r w₁) (hrest : Runs d w₁ log w') :
    Runs d w ((order, r) :: log) w'

theorem ends_schemaOf {r : Except StoreError TableSchema} (hw : BackendStands kind remembers w)
    (hends : Ends Backends.Answers ((definitionOf kind remembers).schemaOf table).run w r w') :
    BackendStands kind remembers w' ∧ (w.outside.standing kind).Found table r (w'.outside.standing kind) := by
  cases kind with
  | versioned => exact find_does w r w' hw hends
  | relational => exact find_does w r w' hw hends

theorem ends_isDefined {r : Except StoreError Bool} (hw : BackendStands kind remembers w)
    (hends : Ends Backends.Answers (isDefined (definitionOf kind remembers) table).run w r w') :
    BackendStands kind remembers w' ∧ w'.outside.standing kind = w.outside.standing kind ∧
      ∀ e, r = .error e → e.isConsistency = false := by
  obtain ⟨q, w₁, hq, hends⟩ := ends_outcome.1 hends
  obtain ⟨hw₁, hfound⟩ := ends_schemaOf hw hq
  obtain ⟨hsame, hnot⟩ := hfound.unchanged
  cases q with
  | ok schema =>
    obtain ⟨rfl, rfl⟩ := ends_ok.1 hends
    exact ⟨hw₁, hsame, nofun⟩
  | error e =>
    cases e with
    | tableNotFound name =>
      obtain ⟨rfl, rfl⟩ := ends_ok.1 hends
      exact ⟨hw₁, hsame, nofun⟩
    | _ =>
      have hquiet := hnot _ rfl
      obtain ⟨rfl, rfl⟩ := ends_throw.1 hends
      refine ⟨hw₁, hsame, fun e heq => ?_⟩
      cases heq
      exact hquiet

/-- Where a lookup changes nothing, it does not matter what it answers. -/
theorem ends_unanswered {α : Type} {x : Attempt BackendProgram α}
    (hx : ∀ r w', Ends Backends.Answers x.run w r w' → BackendStands kind remembers w' ∧
      w'.outside.standing kind = w.outside.standing kind ∧ ∀ e, r = .error e → e.isConsistency = false)
    (hends : Ends Backends.Answers (do
        let _ ← x
        return () : Attempt BackendProgram Unit).run w r w') :
    BackendStands kind remembers w' ∧ ∀ table, (w'.outside.standing kind).InStepAt table ↔
      (w.outside.standing kind).InStepAt table ∧ ¬ Reports table r := by
  rcases ends_andThen.1 hends with ⟨a, w₁, hq, hends⟩ | ⟨e, hq, rfl⟩
  · obtain ⟨rfl, rfl⟩ := ends_ok.1 hends
    obtain ⟨hw', hsame, -⟩ := hx _ _ hq
    rw [hsame]
    exact ⟨hw', fun table => (and_iff_left nofun).symm⟩
  · obtain ⟨hw', hsame, hnot⟩ := hx _ _ hq
    rw [hsame]
    exact ⟨hw', fun table => (and_iff_left (not_reports_of_isConsistency (hnot e rfl) table)).symm⟩

/-- After one call a table is out of step if and only if it was before or that is reported. -/
theorem carriedOut_inStepAt {order : Order} (hw : BackendStands kind remembers w)
    (hends : Ends Backends.Answers (order.carriedOut (definitionOf kind remembers)).run w r w') :
    BackendStands kind remembers w' ∧ ∀ table, (w'.outside.standing kind).InStepAt table ↔
      (w.outside.standing kind).InStepAt table ∧ ¬ Reports table r := by
  cases order with
  | create schema =>
    obtain ⟨hw', houtcome⟩ := ends_createTable hw hends
    exact ⟨hw', houtcome.inStepAt_iff rfl⟩
  | drop table =>
    obtain ⟨hw', houtcome⟩ := ends_dropTable hw hends
    exact ⟨hw', houtcome.inStepAt_iff rfl⟩
  | schemaOf table =>
    refine ends_unanswered (fun r w' hx => ?_) hends
    obtain ⟨hw', hfound⟩ := ends_schemaOf hw hx
    exact ⟨hw', hfound.unchanged⟩
  | isDefined table => exact ends_unanswered (fun r w' hx => ends_isDefined hw hx) hends

/-- After many calls a table is out of step if and only if it was before or that has been reported. -/
theorem Runs.inStepAt {log : List (Order × Except StoreError Unit)}
    (h : Runs (definitionOf kind remembers) w log w') (hw : BackendStands kind remembers w) :
    BackendStands kind remembers w' ∧ ∀ table, (w'.outside.standing kind).InStepAt table ↔
      (w.outside.standing kind).InStepAt table ∧ ∀ entry ∈ log, ¬ Reports table entry.2 := by
  induction h with
  | nil w => simp [hw]
  | cons hends hrest ih =>
    obtain ⟨hw₁, hstep⟩ := carriedOut_inStepAt hw hends
    obtain ⟨hw', hlater⟩ := ih hw₁
    refine ⟨hw', fun table => ?_⟩
    rw [hlater, hstep, List.forall_mem_cons, and_assoc]

/-- **Storage and catalog stay in step, or it is reported.**  Over either family, behind a cache or not, and
whichever steps fail: creating or dropping a table that starts in step comes to an end.  If it succeeds,
exactly the storage of the table and its entry have been added or removed.  If it fails, nothing has changed,
except if the catalog failed after the step that changed storage; that is reported for the table, and only
the table is out of step.  So after any number of calls the tables that are out of step are those for which
that has been reported. -/
theorem in_step_or_reported (hw : BackendStands kind remembers w) (hstep : (w.outside.standing kind).InStep) :
    (∀ schema,
      (∃ r w', Ends Backends.Answers ((definitionOf kind remembers).createTable schema).run w r w') ∧
      ∀ r w', Ends Backends.Answers ((definitionOf kind remembers).createTable schema).run w r w' →
        (w.outside.standing kind).Settled (w'.outside.standing kind) schema.name (some (emptyContent kind))
          (some (entryOf schema kind)) createdOnly
          (FailsAfter Backends.Answers (createStorage kind schema)
            ((catalogOf kind remembers).register schema) w') r) ∧
    (∀ table,
      (∃ r w', Ends Backends.Answers ((definitionOf kind remembers).dropTable table).run w r w') ∧
      ∀ r w', Ends Backends.Answers ((definitionOf kind remembers).dropTable table).run w r w' →
        (w.outside.standing kind).Settled (w'.outside.standing kind) table none none droppedOnly
          (FailsAfter Backends.Answers (dropStorage kind table) ((catalogOf kind remembers).remove table) w')
          r) ∧
    ∀ log w', Runs (definitionOf kind remembers) w log w' →
      BackendStands kind remembers w' ∧
        ∀ table, (w'.outside.standing kind).InStepAt table ↔ ∀ entry ∈ log, ¬ Reports table entry.2 := by
  refine ⟨fun schema => ⟨exists_ends Backends.exists_answers _ w, fun r w' hends => ?_⟩,
    fun table => ⟨exists_ends Backends.exists_answers _ w, fun r w' hends => ?_⟩, fun log w' hruns => ?_⟩
  · exact (ends_createTable hw hends).2.settled hstep rfl
  · exact (ends_dropTable hw hends).2.settled hstep rfl
  · obtain ⟨hw', hafter⟩ := hruns.inStepAt hw
    exact ⟨hw', fun table => (hafter table).trans (and_iff_right (hstep table))⟩

/-- A cache that knows nothing, and collaborators that hold nothing. -/
def blank : BackendPlace := ⟨∅, ⟨{}, Database.empty "" 1 0⟩⟩

/-- A table of notes is created, but its entry cannot be added. -/
theorem runs_half : ∃ w', Runs (definitionOf .versioned true) blank
    [(.create notes, .error (.consistency "notes" (createdOnly (.connection "lost"))))] w' := by
  have hfind : ∃ w₁, w₁.outside = blank.outside ∧ Ends Backends.Answers
      ((catalogOf .versioned true).find "notes").run blank (.error (.tableNotFound "notes")) w₁ := by
    have hasked : Ends Backends.Answers (askedStore (.metadataGet (Catalog.entryKey "notes"))).run
        { blank with content := blank.content.withSlot "notes" } (.ok none)
        { blank with content := blank.content.withSlot "notes" } :=
      ends_store.2 ⟨blank.outside, .inr ⟨rfl, rfl⟩, rfl⟩
    refine ⟨_, ?_, Catalog.ends_lookup.2
      ⟨_, ends_andThen.2 (.inl ⟨none, _, hasked, ends_throw.2 ⟨rfl, rfl⟩⟩), rfl⟩⟩
    rfl
  obtain ⟨w₁, hw₁, hfind⟩ := hfind
  have hanswer : ∃ b, w₁.outside.Answers (.store (.createTable "notes")) (.ok ()) b := by
    rw [hw₁]
    exact ⟨_, .inr ⟨rfl, rfl⟩⟩
  obtain ⟨b, hanswer⟩ := hanswer
  have hstore : Ends Backends.Answers (createStorage .versioned notes).run w₁ (.ok ())
      { w₁ with outside := b } := ends_store.2 ⟨b, hanswer, rfl⟩
  have hregister : ∃ w₃, Ends Backends.Answers ((catalogOf .versioned true).register notes).run
      { w₁ with outside := b }
      (.error (.connection "lost")) w₃ := by
    have hlost : Ends Backends.Answers
        (askedStore (.metadataAdd (Catalog.entryKey "notes") notes.document)).run
        ⟨w₁.content.withSlot "notes", b⟩ (.error (.connection "lost")) ⟨w₁.content.withSlot "notes", b⟩ :=
      ends_store.2 ⟨b, .inl ⟨.connection "lost", trivial, rfl, rfl⟩, rfl⟩
    exact ⟨_, Catalog.ends_change.2 ⟨_, ends_andThen.2 (.inr ⟨_, hlost, rfl⟩), rfl⟩⟩
  obtain ⟨w₃, hregister⟩ := hregister
  refine ⟨w₃, .cons ?_ (.nil w₃)⟩
  refine ends_andThen.2 (.inl ⟨(), _, ends_of.2 ⟨rfl, rfl⟩, ends_outcome.2 ⟨_, w₁, hfind, ?_⟩⟩)
  refine ends_outcome.2 ⟨_, _, hstore, ?_⟩
  exact ends_orDiverged.2 (.inr ⟨_, hregister, rfl⟩)

/-- Then that table is out of step, and no other. -/
theorem in_step_or_reported_half : ∃ w' detail,
    Runs (definitionOf .versioned true) blank [(.create notes, .error (.consistency "notes" detail))] w' ∧
      ∀ table, (w'.outside.standing .versioned).InStepAt table ↔ table ≠ "notes" := by
  obtain ⟨w', hruns⟩ := runs_half
  have hstep : (blank.outside.standing .versioned).InStep := fun table => by
    simp [Standing.InStepAt, Backends.standing, blank]
  have hw : BackendStands .versioned true blank := stands_of_prepared trivial
  obtain ⟨-, hafter⟩ := (in_step_or_reported hw hstep).2.2 _ w' hruns
  refine ⟨w', _, hruns, fun table => (hafter table).trans ?_⟩
  simp [Reports, eq_comm]

end Tabular.Definition
