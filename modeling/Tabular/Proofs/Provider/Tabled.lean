import Tabular.Proofs.Provider.Stages

/-!
# Tabular.Proofs.Provider.Tabled — a change of the tables over a relational database

Main statements: for each step that creating and dropping a table takes over a database, each on a connection of
its own, that it is safe and what the listing is after it; `safely_transact`, one row of the table of the catalog
is changed in a transaction, which lists the table or not when it commits.
-/

namespace Tabular.Provider

open Definition (Backends)
open Sharing (Throughout)

variable {listed : Schemas} {bare : String → Prop} {cache : LookupCache} {w : Place} {table : String}
  {schema : TableSchema} {β : Type} {staged staged' : Nat → Option Staged} {session : Nat} {changes : Option Staged}

/-- A call adds no rows but those that are upserted, and these to the table of the catalog only. -/
theorem fewer_perform {b : Backends} {c : RelationalCall}
    (hc : ∀ session schema row, c = .upsert session schema row → schema.name = Catalog.catalogTable) :
    Fewer .relational b { b with database := (b.database.perform c).2 } := by
  intro table key row hname hrow
  rcases Database.holds_perform hrow with hrow | ⟨session, schema, rfl, rfl, -⟩
  · exact hrow
  · exact absurd (hc session schema row rfl) hname

/-- The stage after a call that leaves the tables alone. -/
theorem Stage.performed {c : RelationalCall} (h : Stage .relational listed bare staged cache w)
    (hc : ∀ session schema row, c = .upsert session schema row → schema.name = Catalog.catalogTable)
    (htables : (w.outside.database.perform c).2.tables = w.outside.database.tables)
    (hstaged : ∀ session, (w.outside.database.perform c).2.staged? session = staged' session) :
    Stage .relational listed bare staged' cache
      { w with outside := { w.outside with database := (w.outside.database.perform c).2 } } :=
  h.next (congrArg Definition.Standing.entries (Definition.standing_of_tables htables)) (fewer_perform hc) hstaged

theorem only_none : only session none = nothing := Function.update_eq_self session nothing

theorem Stage.staged?_only {changes' : Option Staged} {db : Database}
    (h : Stage .relational listed bare (only session changes) cache w)
    (hdb : ∀ other, db.staged? other = if session = other then changes' else w.outside.database.staged? other)
    (other : Nat) : db.staged? other = only session changes' other := by
  rw [hdb, h.staged, only, only]
  by_cases hother : other = session
  · rw [hother, if_pos rfl, Function.update_self]
  · rw [if_neg (Ne.symm hother), Function.update_of_ne hother, Function.update_of_ne hother]

/-- The rule for what is done on a connection of its own. -/
theorem safely_withConnection {use : Nat → Attempt Program β}
    (Q : Schemas → (String → Prop) → Except StoreError β → Prop)
    (hw : Stage .relational listed bare nothing cache w) (hfail : ∀ e, Q listed bare (.error e))
    (huse : ∀ session w, Stage .relational listed bare nothing cache w → Safely .relational
      (fun w r => ∃ listed' bare' changes, Stage .relational listed' bare' (only session changes) cache w ∧
        Q listed' bare' r) (use session).run w) :
    Safely .relational (fun w r => ∃ listed' bare', Stage .relational listed' bare' nothing cache w ∧
      Q listed' bare' r) (database.withConnection use).run w := by
  have hconnect : Safely .relational (fun w _ => Stage .relational listed bare nothing cache w)
      (database.perform .connect).run w := by
    refine Safely.perform hw (fun w _ hw => hw.fine) (fun w hw => ?_) fun w e hw => hw
    refine hw.performed nofun (Database.tables_connect _) fun other => ?_
    cases hconnect : w.outside.database.connect.1 with
    | ok new =>
      refine (Database.staged?_connect_ok _ new other hconnect).trans ?_
      rw [hw.staged, ite_self]
    | error e => exact (Database.staged?_connect_error _ other hconnect).trans (hw.staged other)
  refine hconnect.andThen ?_ fun w e hw => ⟨listed, bare, hw, hfail e⟩
  rintro w₁ session - hw₁
  refine (huse session w₁ hw₁).outcome ?_
  rintro w₂ r - ⟨listed', bare', changes, hw₂, hr⟩
  have hclose : Safely .relational (fun w _ => Stage .relational listed' bare' nothing cache w)
      (database.close session) w₂ := by
    refine Safely.call hw₂ (fun w _ hw => hw.fine) fun w reply b hw hanswer => ?_
    obtain rfl := hanswer
    refine hw.next rfl (fun table key row _ hrow => Database.Holds.of_close hrow) fun other => ?_
    rw [hw.staged?_only (fun other => Database.staged?_close _ _ other), only_none]
  refine hclose.lift ?_
  rintro w₃ _ - hw₃
  exact ⟨hw₃.fine, listed', bare', hw₃, hr⟩

/-! ### Storage -/

/-- The stage after a table other than that of the catalog is created or dropped. -/
theorem Stage.spared {c : RelationalCall} (h : Stage .relational listed bare nothing cache w)
    (hc : c.Spares Catalog.catalogTable) (hupsert : ∀ session schema row, c ≠ .upsert session schema row)
    (hstaged : ∀ other, (w.outside.database.perform c).2.staged? other = w.outside.database.staged? other) :
    Stage .relational listed bare nothing cache
      { w with outside := { w.outside with database := (w.outside.database.perform c).2 } } := by
  have hcalm : ∀ other, w.outside.database.stagedFor other Catalog.catalogTable = ∅ := fun other =>
    Database.stagedFor_of_none (h.staged other)
  refine h.next ?_ (fewer_perform fun _ _ _ heq => absurd heq (hupsert _ _ _)) fun other =>
    (hstaged other).trans (h.staged other)
  simp only [Backends.standing, (Database.spared_perform hcalm hc).1]

/-- A table that is not there has no rows. -/
theorem Stage.bare_of_tables (h : Stage .relational listed bare nothing cache w)
    (htables : w.outside.database.tables[table]? = none) : Bare .relational w.outside table := by
  rintro key row (⟨rows, hrows, -⟩ | ⟨session, hrow⟩)
  · rw [htables] at hrows
    cases hrows
  · rw [Database.stagedFor_of_none (h.staged session)] at hrow
    simp at hrow

theorem staged?_createTable (db : Database) (other : Nat) :
    (db.perform (.createTable session schema)).2.staged? other = db.staged? other :=
  Database.staged?_act db (.call (.createTable session schema)) other

theorem staged?_dropTable (db : Database) (other : Nat) :
    (db.perform (.dropTable session table)).2.staged? other = db.staged? other :=
  Database.staged?_act db (.call (.dropTable session table)) other

theorem safely_database_createTable (hname : schema.name ≠ Catalog.catalogTable)
    (hw : Settled .relational listed w) :
    Safely .relational (fun w _ => Settled .relational listed w)
      (database.withConnection fun session => database.perform (.createTable session schema)).run w := by
  refine (safely_withConnection (fun listed' _ _ => listed' = listed) hw.stage (fun _ => rfl)
    fun session w hw => ?_).mono ?_
  · refine Safely.perform hw ?_ (fun w hw => ?_) fun w e hw => ⟨listed, _, none, only_none ▸ hw, rfl⟩
    · rintro w r ⟨_, _, _, hw, -⟩
      exact hw.fine
    · have hnext := hw.spared (c := .createTable session schema) hname nofun (staged?_createTable _)
      exact ⟨listed, _, none, only_none ▸ hnext, rfl⟩
  · rintro w r ⟨_, bare, hw', rfl⟩
    exact hw'.settled hw.coherent

theorem safely_database_dropTable (hname : table ≠ Catalog.catalogTable) (hw : Settled .relational listed w) :
    Safely .relational
      (fun w r => Settled .relational listed w ∧ (r = .ok () → Bare .relational w.outside table))
      (database.withConnection fun session => database.perform (.dropTable session table)).run w := by
  refine (safely_withConnection (fun listed' bare r => listed' = listed ∧ (r = .ok () → bare table)) hw.stage
    (fun _ => ⟨rfl, fun heq => by cases heq⟩) fun session w hw => ?_).mono ?_
  · refine Safely.perform hw ?_ (fun w hw => ?_) fun w e hw =>
      ⟨listed, _, none, only_none ▸ hw, rfl, fun heq => by cases heq⟩
    · rintro w r ⟨_, _, _, hw, -⟩
      exact hw.fine
    · have hnext := hw.spared (c := .dropTable session table) hname (fun _ _ _ heq => by cases heq)
        (staged?_dropTable _)
      by_cases hmem : table ∈ w.outside.database.tables
      · have hperform : w.outside.database.perform (.dropTable session table) =
            (.ok (), { w.outside.database with tables := w.outside.database.tables.erase table }) := by
          simp only [Database.perform, Database.dropTable, if_pos hmem]
          rfl
        rw [hperform] at hnext ⊢
        have hbare := hnext.bare_of_tables (Std.ExtTreeMap.getElem?_erase_self)
        exact ⟨listed, (· = table), none, only_none ▸ hnext.rebare hname hbare, rfl, fun _ => rfl⟩
      · have hperform : w.outside.database.perform (.dropTable session table) =
            (.error (.tableNotFound table), w.outside.database) := by
          simp only [Database.perform, Database.dropTable, if_neg hmem]
          rfl
        rw [hperform]
        exact ⟨listed, _, none, only_none ▸ hw, rfl, fun heq => by cases heq⟩
  · rintro w r ⟨_, bare, hw', rfl, hbare⟩
    exact ⟨hw'.settled hw.coherent, fun hr => (hw'.bare table (hbare hr)).2⟩

/-! ### The table of the catalog -/

/-- Creating the table of the catalog lists no table. -/
theorem safely_prepare (hw : Settled .relational listed w) :
    Safely .relational (fun w _ => Settled .relational listed w) (Catalog.prepare database).run w := by
  have hexists : ∀ session w', Stage .relational listed (fun _ => False) nothing w.content w' →
      Safely .relational (fun w' _ => Stage .relational listed (fun _ => False) nothing w.content w')
        (database.perform (.tableExists session Catalog.catalogTable)).run w' := fun session w' hw' =>
    Safely.perform hw' (fun _ _ hw => hw.fine) (fun _ hw => hw) fun _ _ hw => hw
  have hcreate : ∀ session w', Stage .relational listed (fun _ => False) nothing w.content w' →
      Safely .relational (fun w' _ => Stage .relational listed (fun _ => False) nothing w.content w')
        (database.perform (.createTable session Catalog.catalogSchema)).run w' := by
    intro session w' hw'
    refine Safely.perform hw' (fun _ _ hw => hw.fine) (fun w hw => ?_) fun _ _ hw => hw
    refine hw.next ?_ (fewer_perform nofun) fun other => (staged?_createTable _ other).trans (hw.staged other)
    by_cases hmem : Catalog.catalogSchema.name ∈ w.outside.database.tables
    · simp only [Database.perform, Database.createTable, if_pos hmem]
      rfl
    · have hnone : w.outside.database.tables[Catalog.catalogTable]? = none := Std.ExtTreeMap.getElem?_eq_none hmem
      have hperform : w.outside.database.perform (.createTable session Catalog.catalogSchema) =
          (.ok (), { w.outside.database with tables := w.outside.database.tables.insert Catalog.catalogTable ∅ }) := by
        simp only [Database.perform, Database.createTable, if_neg hmem]
        rfl
      funext table
      simp [hperform, Backends.standing, hnone]
  have hdone : ∀ {session w'}, Stage .relational listed (fun _ => False) nothing w.content w' →
      ∃ listed' bare changes, Stage .relational listed' bare (only session changes) w.content w' ∧
        listed' = listed := fun hw' => ⟨listed, _, none, only_none ▸ hw', rfl⟩
  refine (safely_withConnection (fun listed' _ _ => listed' = listed) hw.stage (fun _ => rfl)
    fun session w₁ hw₁ => ?_).mono ?_
  · refine (hexists session w₁ hw₁).andThen ?_ fun _ _ hw => hdone hw
    rintro w₂ there - hw₂
    cases there with
    | true => exact ⟨hw₂.fine, hdone hw₂⟩
    | false =>
      refine (hcreate session w₂ hw₂).outcome ?_
      rintro w₃ r - hw₃
      cases r with
      | ok => exact ⟨hw₃.fine, hdone hw₃⟩
      | error e => cases e <;> exact ⟨hw₃.fine, hdone hw₃⟩
  · rintro w' r ⟨_, bare, hw', rfl⟩
    exact hw'.settled hw.coherent

/-- Whether a transaction that had changed nothing has, if it was done, changed one row of the catalog. -/
def Edited (listed : Schemas) (bare : String → Prop) (session : Nat) (cache : LookupCache) (table : String)
    (entry : Option Row) (w : Place) (r : Except StoreError Unit) : Prop :=
  ∃ changes, Stage .relational listed bare (only session changes) cache w ∧
    (r = .ok () → changes = some (Bench.relisted (Catalog.rowKey table) entry))

section Edits

variable {entry : Option Row} {listedAs : Option { schema : TableSchema // schema.name = table }}

theorem Edited.fine {r : Except StoreError Unit} (h : Edited listed bare session cache table entry w r) :
    Fine .relational w := by
  obtain ⟨_, hw, -⟩ := h
  exact hw.fine

/-- What a change of one row of the catalog does, in a transaction that has changed nothing yet. -/
theorem Stage.edited {c : RelationalCall} {r : Except StoreError Unit}
    (h : Stage .relational listed bare (only session (some ∅)) cache w)
    (hc : ∀ session schema row, c = .upsert session schema row → schema.name = Catalog.catalogTable)
    (hr : r = (w.outside.database.answered (((), ·) <$> w.outside.database.change session Catalog.catalogTable
      (Catalog.rowKey table) entry)).1)
    (hafter : (w.outside.database.perform c).2 = (w.outside.database.answered (((), ·) <$>
      w.outside.database.change session Catalog.catalogTable (Catalog.rowKey table) entry)).2) :
    Edited listed bare session cache table entry
      { w with outside := { w.outside with database := (w.outside.database.perform c).2 } } r := by
  have hstaged : w.outside.database.staged? session = some ∅ := by
    rw [h.staged, only, Function.update_self]
  cases hrows : w.outside.database.tables[Catalog.catalogTable]? with
  | some rows =>
    rw [Definition.perform_change _ _ hstaged hrows] at hr hafter
    refine ⟨_, h.performed hc ?_ (h.staged?_only fun other => ?_), fun _ => rfl⟩
    · rw [hafter, Database.tables_setStaged]
    · rw [hafter, Database.staged?_setStaged]
  | none =>
    rw [Database.change_of_not_mem (by simpa using hrows)] at hr hafter
    refine ⟨some ∅, h.performed hc ?_ fun other => ?_, ?_⟩
    · rw [hafter]
      rfl
    · rw [hafter]
      exact h.staged other
    · rintro rfl
      cases hr

/-- The change of one row of the catalog, unless the row is found to be as wanted. -/
theorem safely_edit (refuses : Option Row → Bool) {refusal : StoreError} {call : Attempt Program Unit}
    (hcall : ∀ w, Stage .relational listed bare (only session (some ∅)) cache w →
      Safely .relational (Edited listed bare session cache table entry) call.run w)
    (hw : Stage .relational listed bare (only session (some ∅)) cache w) :
    Safely .relational (Edited listed bare session cache table entry)
      (do
        if refuses (← Catalog.rowOn database session table) then throw refusal
        Attempt.mapError Catalog.restateMissing call : Attempt Program Unit).run w := by
  have hrow : Safely .relational (fun w _ => Stage .relational listed bare (only session (some ∅)) cache w)
      (Catalog.rowOn database session table).run w :=
    Throughout.mapError (Safely.perform hw (fun _ _ hw => hw.fine) (fun _ hw => hw) fun _ _ hw => hw)
      fun _ _ hw => hw
  refine hrow.andThen ?_ fun w e hw => ⟨_, hw, nofun⟩
  rintro w row - hw
  cases refuses row with
  | true => exact ⟨hw.fine, _, hw, nofun⟩
  | false =>
    refine (hcall w hw).mapError ?_
    rintro w r ⟨changes, hw, hr⟩
    refine ⟨changes, hw, fun hok => hr ?_⟩
    cases r with
    | ok => rfl
    | error e => cases hok

/-- What a commit makes of the catalog, in a transaction that has changed one row of it. -/
theorem Stage.committed
    (h : Stage .relational listed bare (only session (some (Bench.relisted (Catalog.rowKey table) entry))) cache w)
    (hsaid : entry.map (Catalog.schemaOfRow table) = listedAs.map fun schema => .ok schema.1)
    (htable : bare table) :
    ∃ listed', Stage .relational listed' bare nothing cache
        { w with outside := { w.outside with database := (w.outside.database.commit session).2 } } ∧
      Relists listed table listedAs (w.outside.database.commit session).1 listed' := by
  have hfewer : Fewer .relational w.outside
      { w.outside with database := (w.outside.database.commit session).2 } :=
    fewer_perform (c := .commit session) nofun
  have hended : ∀ other, (w.outside.database.commit session).2.staged? other = nothing other := fun other => by
    rw [h.staged?_only (fun other => Database.staged?_commit other), only_none]
  have hstaged : w.outside.database.staged? session = some (Bench.relisted (Catalog.rowKey table) entry) := by
    rw [h.staged, only, Function.update_self]
  cases hcommit : (w.outside.database.commit session).1 with
  | error e =>
    have htables := Database.tables_commit_of_error hcommit
    exact ⟨listed, h.next (congrArg Definition.Standing.entries (Definition.standing_of_tables htables)) hfewer hended,
      .failed e⟩
  | ok =>
    obtain ⟨changes, hchanges, -, hthere⟩ := Database.commit_eq_ok_iff.1 hcommit
    have hmem : Catalog.catalogTable ∈ w.outside.database.tables := by
      refine hthere _ ?_
      cases hstaged.symm.trans hchanges
      simp [Bench.relisted]
    have hready : w.outside.Prepared .relational := by
      refine ⟨hmem, Option.map_eq_none_iff.1 ((h.orderly.entries Catalog.catalogTable).trans ?_)⟩
      rw [saidOf, h.orderly.reserved _ rfl, Option.map_none]
    obtain ⟨rows, hrows⟩ := Definition.exists_rows hready
    have hstanding : ({ w.outside with database := (w.outside.database.commit session).2 } : Backends).standing
        .relational = (w.outside.standing .relational).withEntry table entry :=
      (Definition.relisted_of_commit (h.bare table htable).1 hready rfl hrows hstaged hcommit rfl).2
    exact ⟨_, h.relisted entry listedAs (congrArg Definition.Standing.entries hstanding) hsaid hfewer htable hended,
      .made _⟩

/-- The change of one row of the catalog in a transaction of its own. -/
theorem safely_transact (entry : Option Row) {change : Nat → Attempt Program Unit}
    (hw : Stage .relational listed (· = table) nothing cache w)
    (hsaid : entry.map (Catalog.schemaOfRow table) = listedAs.map fun schema => .ok schema.1)
    (hchange : ∀ session w, Stage .relational listed (· = table) (only session (some ∅)) cache w →
      Safely .relational (Edited listed (· = table) session cache table entry) (change session).run w) :
    Safely .relational (fun w r => ∃ listed' bare, Stage .relational listed' bare nothing cache w ∧
      Relists listed table listedAs r listed') (Catalog.transact database change).run w := by
  refine safely_withConnection (fun listed' _ r => Relists listed table listedAs r listed') hw .failed
    fun session w₁ hw₁ => ?_
  have hbegin : Safely .relational (fun w r => ∃ changes,
      Stage .relational listed (· = table) (only session changes) cache w ∧ (r = .ok () → changes = some ∅))
      (database.perform (.begin session)).run w₁ := by
    refine Safely.perform hw₁ (fun w r hw => ?_) (fun w hw => ?_) fun w e hw => ⟨none, only_none ▸ hw, nofun⟩
    · obtain ⟨_, hw, -⟩ := hw
      exact hw.fine
    · have hperform := Database.perform_begin (hw.staged session)
      rw [← only_none] at hw
      refine ⟨some ∅, hw.performed (c := .begin session) nofun ?_ (hw.staged?_only fun other => ?_), fun _ => rfl⟩
      · rw [hperform, Database.tables_setStaged]
      · rw [hperform, Database.staged?_setStaged]
  refine hbegin.andThen ?_ fun w e ⟨changes, hw, _⟩ => ⟨listed, _, changes, hw, .failed e⟩
  rintro w₂ _ - ⟨_, hw₂, hchanges⟩
  obtain rfl := hchanges rfl
  -- What is not committed is forgotten when the connection is closed, also if the rollback fails.
  refine (hchange session w₂ hw₂).outcome ?_
  rintro w₃ r - ⟨changes, hw₃, hr⟩
  cases r with
  | ok =>
    obtain rfl := hr rfl
    refine Safely.perform hw₃ ?_ (fun w hw => ?_) fun w e hw => ⟨listed, _, _, hw, .failed e⟩
    · rintro w r ⟨_, _, _, hw, -⟩
      exact hw.fine
    · obtain ⟨listed', hafter, hrelists⟩ := hw.committed hsaid rfl
      exact ⟨listed', _, none, only_none ▸ hafter, hrelists⟩
  | error e =>
    have hrollback : Safely .relational
        (fun w _ => ∃ changes, Stage .relational listed (· = table) (only session changes) cache w)
        (database.perform (.rollback session)).run w₃ := by
      refine Safely.perform hw₃ (fun w _ ⟨_, hw⟩ => hw.fine) (fun w hw => ⟨none, ?_⟩) fun w e hw => ⟨_, hw⟩
      exact hw.performed (c := .rollback session) nofun (Database.tables_setStaged ..)
        (hw.staged?_only fun other => Database.staged?_setStaged ..)
    refine hrollback.outcome ?_
    rintro w₄ r - ⟨changes, hw₄⟩
    cases r <;> exact ⟨hw₄.fine, listed, _, changes, hw₄, .failed e⟩

end Edits

theorem safely_tabled_register (hvalid : schema.validate = .ok ())
    (hw : Stage .relational listed (· = schema.name) nothing cache w) :
    Safely .relational (fun w r => ∃ listed' bare, Stage .relational listed' bare nothing cache w ∧
        Relists listed schema.name (some ⟨schema, rfl⟩) r listed')
      ((Catalog.tabled database).register schema).run w := by
  refine safely_transact (some (Catalog.catalogRow schema)) hw ?_ fun session w hw =>
    safely_edit Option.isSome (fun w hw => ?_) hw
  · rw [Option.map_some, Option.map_some, Catalog.schemaOfRow_catalogRow, hvalid]
    rfl
  · refine Safely.perform hw (fun _ _ => Edited.fine) (fun w hw => ?_) fun w e hw => ⟨_, hw, nofun⟩
    have hperform : w.outside.database.perform
        (.upsert session Catalog.catalogSchema (Catalog.catalogRow schema)) = _ :=
      Database.perform_upsert (Bench.keyOf_catalogRow schema)
    refine hw.edited ?_ (congrArg Prod.fst hperform) (congrArg Prod.snd hperform)
    rintro _ _ _ ⟨⟩
    rfl

theorem safely_tabled_remove (hw : Stage .relational listed (· = table) nothing cache w) :
    Safely .relational (fun w r => ∃ listed' bare, Stage .relational listed' bare nothing cache w ∧
        Relists listed table none r listed')
      ((Catalog.tabled database).remove table).run w := by
  refine safely_transact none hw rfl fun session w hw => safely_edit Option.isNone (fun w hw => ?_) hw
  exact Safely.perform hw (fun _ _ => Edited.fine) (fun w hw => hw.edited nofun rfl rfl) fun w e hw =>
    ⟨_, hw, nofun⟩

end Tabular.Provider
