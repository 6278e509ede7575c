import Tabular.Proofs.Relational.Isolation

/-!
# Tabular.Proofs.Relational.Dropped — tables that are dropped during a transaction

`Log.Lost` says that a table was dropped after a connection had changed it in its open transaction.  A commit
looks for the names of the changed tables, no more.  Main statements: `commit_of_lost`, a commit after such a
loss fails unless each lost table has been created again; and `replacement_committed`, if it has been, the
changes go to the new one.
-/

namespace Tabular.Database

/-- The table that an entry says was dropped. -/
def Entry.dropped? : Entry → Option String
  | .answered (.dropTable _ table) (.ok ()) => some table
  | _ => none

namespace Log

/-- Whether a connection has changed a table in its open transaction. -/
def Changed (session : Nat) (table : String) (log : Log) : Prop :=
  ∃ change ∈ (log.pending session).getD [], change.1.table = table

/-- Whether a table was dropped after a connection had changed it in its open transaction. -/
def Lost (session : Nat) (table : String) : Log → Prop
  | [] => False
  | entry :: earlier =>
    match entry.turn session with
    | .opened | .ended => False
    | .changed _ _ => Lost session table earlier
    | .nothing => Lost session table earlier ∨ (entry.dropped? = some table ∧ Changed session table earlier)

variable {session : Nat} {table : String} {log : Log}

/-- What was lost is remembered as changed. -/
theorem Lost.changed : ∀ {log : Log}, Lost session table log → Changed session table log
  | entry :: earlier, h => by
    rw [Lost] at h
    rw [Changed, pending]
    split at h
    · exact h.elim
    · exact h.elim
    · rename_i row cell hturn
      obtain ⟨change, hmem, htable⟩ := h.changed
      rw [hturn, Turn.pending]
      cases hpending : pending session earlier with
      | none => simp [hpending] at hmem
      | some changes =>
        rw [hpending] at hmem
        exact ⟨change, List.mem_cons_of_mem _ hmem, htable⟩
    · rename_i hturn
      rw [hturn, Turn.pending]
      rcases h with h | ⟨-, h⟩
      · exact h.changed
      · exact h

end Log

variable {db : Database} {session : Nat} {table : String} {action : Action}

/-! ### The tables after an action -/

/-- A change that succeeds is one of a table that is there, and removes none. -/
theorem mem_tables_of_change {after : Database} {s : Nat} {key : RowKey} {cell : Option Row}
    (h : db.change s table key cell = .ok after) :
    table ∈ after.tables ∧ ∀ other, other ∈ after.tables ↔ other ∈ db.tables := by
  by_cases htable : table ∈ db.tables
  case neg =>
    rw [change_of_not_mem htable] at h
    cases h
  case pos =>
    cases hstaged : db.staged? s with
    | some changes =>
      rw [change_of_some hstaged htable] at h
      cases h
      exact ⟨htable, fun other => Iff.rfl⟩
    | none =>
      obtain ⟨rows, hrows⟩ := Option.isSome_iff_exists.1 (Std.ExtTreeMap.mem_iff_isSome_getElem?.1 htable)
      rw [change_of_none hstaged hrows] at h
      cases h
      refine ⟨Std.ExtTreeMap.mem_insert_self, fun other => ?_⟩
      rw [Std.ExtTreeMap.mem_insert, Std.compare_eq_iff_eq]
      exact ⟨fun hother => hother.elim (fun heq => heq ▸ htable) id, .inr⟩

/-- A table stays unless it is dropped. -/
theorem mem_tables_act (h : table ∈ db.tables) (hdropped : (db.act action).1.dropped? ≠ some table) :
    table ∈ (db.act action).2.tables := by
  have hchange : ∀ s table' key cell,
      table ∈ (db.answered (((), ·) <$> db.change s table' key cell)).2.tables := by
    intro s table' key cell
    cases hchange : db.change s table' key cell with
    | error e => exact h
    | ok after => exact ((mem_tables_of_change hchange).2 table).2 h
  cases action with
  | close s => exact h
  | failCommits fail => exact h
  | call call =>
    cases call with
    | connect =>
      show table ∈ db.connect.2.tables
      rwa [tables_connect]
    | begin s =>
      simp only [act, perform, begin]
      split <;> exact h
    | commit s =>
      cases hcommit : (db.commit s).1 with
      | error e =>
        show table ∈ (db.commit s).2.tables
        rwa [tables_commit_of_error hcommit]
      | ok _ =>
        show table ∈ (db.commit s).2.tables
        rwa [Std.ExtTreeMap.mem_iff_isSome_getElem?, getElem?_tables_commit hcommit, Option.isSome_map,
          ← Std.ExtTreeMap.mem_iff_isSome_getElem?]
    | rollback s => exact h
    | tableExists s table' => exact h
    | createTable s schema =>
      simp only [act, perform, createTable]
      split
      · exact h
      · exact Std.ExtTreeMap.mem_insert.2 (.inr h)
    | dropTable s table' =>
      simp only [act, perform, dropTable] at hdropped ⊢
      by_cases hmem : table' ∈ db.tables
      · rw [if_pos hmem] at hdropped ⊢
        have hne : table' ≠ table := fun heq => hdropped (congrArg some heq)
        exact Std.ExtTreeMap.mem_erase.2 ⟨mt Std.compare_eq_iff_eq.1 hne, h⟩
      · rw [if_neg hmem]
        exact h
    | upsert s schema row =>
      cases hkey : schema.keyOf row with
      | error e =>
        rw [act, perform_upsert_of_error hkey]
        exact h
      | ok key =>
        rw [act, perform_upsert hkey]
        exact hchange _ _ _ _
    | read s schema key => exact h
    | delete s schema key => exact hchange _ _ _ _
    | scan s schema => exact h

/-- A table that a connection changes is there. -/
theorem mem_tables_of_changed {row : Change} {cell : Option Row}
    (h : (db.act action).1.turn session = .changed row cell) : row.table ∈ (db.act action).2.tables := by
  have hne : ∀ s turn, (if s = session then turn else Turn.nothing) = Turn.changed row cell →
      turn = Turn.changed row cell := by
    intro s turn heq
    split at heq
    · exact heq
    · cases heq
  cases action with
  | close s => cases hne _ _ h
  | failCommits fail => cases h
  | call call =>
    cases call with
    | connect =>
      simp only [act, perform] at h
      cases hconnect : db.connect.1 with
      | error e =>
        rw [hconnect] at h
        cases h
      | ok new =>
        rw [hconnect] at h
        cases hne _ _ h
    | begin s =>
      simp only [act, perform, begin] at h
      cases hstaged : db.staged? s with
      | some changes =>
        rw [hstaged] at h
        cases h
      | none =>
        rw [hstaged] at h
        cases hne _ _ h
    | commit s => cases hne _ _ h
    | rollback s => cases hne _ _ h
    | tableExists s table' => cases h
    | createTable s schema => cases h
    | dropTable s table' => cases h
    | read s schema key => cases h
    | scan s schema => cases h
    | upsert s schema row' =>
      cases hkey : schema.keyOf row' with
      | error e =>
        rw [act, perform_upsert_of_error hkey] at h
        cases h
      | ok key =>
        rw [act, perform_upsert hkey] at h ⊢
        cases hchange : db.change s schema.name key (some row') with
        | error e =>
          rw [hchange] at h
          cases h
        | ok after =>
          rw [hchange] at h
          have hturn : Entry.turn session (.answered (.upsert s schema row') (.ok ())) =
              if s = session then .changed ⟨schema.name, key⟩ (some row') else .nothing := by
            simp only [Entry.turn, hkey]
          cases hne _ _ (hturn.symm.trans h)
          exact (mem_tables_of_change hchange).1
    | delete s schema key =>
      rw [act, perform] at h ⊢
      cases hchange : db.change s schema.name key none with
      | error e =>
        rw [hchange] at h
        cases h
      | ok after =>
        rw [hchange] at h
        cases hne _ _ h
        exact (mem_tables_of_change hchange).1

/-- That a table is dropped is nothing to what connections keep aside. -/
theorem Entry.turn_of_dropped {entry : Entry} (h : entry.dropped? = some table) :
    entry.turn session = .nothing := by
  unfold Entry.dropped? at h
  split at h
  · rfl
  · cases h

/-! ### Changed tables are there, or lost -/

/-- All along a run, a table that a connection has changed in its open transaction is there, or was dropped
since. -/
theorem mem_or_lost_play (actions : List Action) (session : Nat) (table : String)
    (h : (play db actions).log.Changed session table) :
    table ∈ (play db actions).state.tables ∨ (play db actions).log.Lost session table := by
  induction actions with
  | nil => simp [play, Log.Changed, Log.pending] at h
  | cons action earlier ih =>
    obtain ⟨change, hmem, htable⟩ := h
    simp only [play, Log.pending] at hmem ⊢
    have hstays (hthere : table ∈ (play db earlier).state.tables)
        (hkept : ((play db earlier).state.act action).1.dropped? ≠ some table) :
        table ∈ ((play db earlier).state.act action).2.tables := mem_tables_act hthere hkept
    rw [Log.Lost]
    cases hturn : ((play db earlier).state.act action).1.turn session with
    | opened => simp [hturn, Turn.pending] at hmem
    | ended => simp [hturn, Turn.pending] at hmem
    | changed row cell =>
      rw [hturn, Turn.pending] at hmem
      have hkept : ((play db earlier).state.act action).1.dropped? ≠ some table := by
        intro hdropped
        rw [Entry.turn_of_dropped hdropped] at hturn
        cases hturn
      cases hpending : (play db earlier).log.pending session with
      | none => simp [hpending] at hmem
      | some changes =>
        rw [hpending] at hmem
        rcases List.mem_cons.1 hmem with rfl | hmem
        · exact .inl (htable ▸ mem_tables_of_changed hturn)
        · have hchanged : (play db earlier).log.Changed session table :=
            ⟨change, by rwa [hpending], htable⟩
          exact (ih hchanged).imp (fun hthere => hstays hthere hkept) id
    | nothing =>
      rw [hturn, Turn.pending] at hmem
      have hchanged : (play db earlier).log.Changed session table := ⟨change, hmem, htable⟩
      rcases ih hchanged with hthere | hlost
      · by_cases hdropped : ((play db earlier).state.act action).1.dropped? = some table
        · exact .inr (.inr ⟨hdropped, hchanged⟩)
        · exact .inl (hstays hthere hdropped)
      · exact .inr (.inl hlost)

/-! ### Commits -/

theorem commit_error {e : StoreError} (h : (db.commit session).1 = .error e) :
    ∃ text, e = .connection text := by
  unfold commit at h
  split at h
  · cases h
    exact ⟨_, rfl⟩
  · split at h
    · cases h
      exact ⟨_, rfl⟩
    · split at h <;> cases h
      exact ⟨_, rfl⟩

/-- **After a loss.**  Where a table was dropped after a connection had changed it, the commit fails and changes
nothing if failure is due, or if one of the tables so lost is not there.  If all of them have been created
again it succeeds, and makes the changes to the new ones. -/
theorem commit_of_lost (url : String) (limit waitMs : Nat) (actions : List Action) (session : Nat)
    (table : String) (hlost : (play (empty url limit waitMs) actions).log.Lost session table) :
    let run := play (empty url limit waitMs) actions
    let commit := run.state.perform (.commit session)
    ((run.state.failCommits = true ∨ ∃ other, run.log.Lost session other ∧ other ∉ run.state.tables) →
      (∃ text, commit.1 = .error (.connection text)) ∧ commit.2.tables = run.state.tables) ∧
    (¬ (run.state.failCommits = true ∨ ∃ other, run.log.Lost session other ∧ other ∉ run.state.tables) →
      commit.1 = .ok () ∧ commit.2.contents = run.state.contents.overlaid (run.log.own session)) := by
  intro run commit
  have hreflects : Reflects (run.state.staged? session) (run.log.pending session) :=
    reflects_play url limit waitMs actions session
  have hok := commit_eq_ok_iff_pending hreflects
  obtain ⟨_, hmem, -⟩ := hlost.changed
  cases hpending : run.log.pending session with
  | none => simp [run, hpending] at hmem
  | some changes =>
    have hchanged : ∀ c ∈ changes, run.log.Changed session c.1.table := by
      intro c hc
      exact ⟨c, by rwa [hpending], rfl⟩
    refine ⟨fun hbad => ?_, fun hgood => ?_⟩
    · have hnot : commit.1 ≠ .ok () := by
        intro hcommit
        obtain ⟨changes', heq, hsound, hthere⟩ := hok.1 hcommit
        rw [hpending] at heq
        cases heq
        rcases hbad with hfail | ⟨other, hother, hmissing⟩
        · rw [hsound] at hfail
          cases hfail
        · obtain ⟨c, hc, rfl⟩ := hother.changed
          rw [hpending] at hc
          exact hmissing (hthere c hc)
      cases hcommit : (run.state.commit session).1 with
      | ok _ => exact absurd hcommit hnot
      | error e =>
        obtain ⟨text, rfl⟩ := commit_error hcommit
        exact ⟨⟨text, hcommit⟩, tables_commit_of_error hcommit⟩
    · have hcommit : commit.1 = .ok () := by
        refine hok.2 ⟨changes, hpending, ?_, fun c hc => ?_⟩
        · exact Bool.eq_false_iff.2 fun hfail => hgood (.inl hfail)
        · by_contra hmissing
          rcases mem_or_lost_play actions session c.1.table (hchanged c hc) with hthere | hlost
          · exact hmissing hthere
          · exact hgood (.inr ⟨_, hlost, hmissing⟩)
      exact ⟨hcommit, contents_commit hreflects hcommit⟩

/-- One connection inserts an item in a transaction, and another one drops the table. -/
def dropping : List Action := .call (.dropTable 2 "items") :: inserting

/-- The item is not committed. -/
theorem commit_of_lost_dropping :
    let run := play (empty "memory" 2 1000) dropping
    (∃ text, (run.state.perform (.commit 1)).1 = .error (.connection text)) ∧
      (run.state.perform (.commit 1)).2.tables = run.state.tables := by
  intro run
  have hlost : run.log.Lost 1 "items" := .inr ⟨rfl, _, List.mem_cons_self, rfl⟩
  have hmissing : "items" ∉ run.state.tables := by decide
  exact (commit_of_lost "memory" 2 1000 dropping 1 "items" hlost).1 (.inr ⟨"items", hlost, hmissing⟩)

/-- The other connection creates the table anew after it has dropped it. -/
def replacing : List Action := .call (.createTable 2 items) :: dropping

/-- The item, which was inserted into the table before, is committed into the new one. -/
theorem replacement_committed :
    let run := play (empty "memory" 2 1000) replacing
    run.log.Lost 1 "items" ∧ run.state.contents ⟨"items", ⟨[.long 7]⟩⟩ = none ∧
      (run.state.perform (.commit 1)).1 = .ok () ∧
      (run.state.perform (.commit 1)).2.contents ⟨"items", ⟨[.long 7]⟩⟩ = some item := by
  refine ⟨.inl (.inr ⟨rfl, _, List.mem_cons_self, rfl⟩), rfl, rfl, rfl⟩

end Tabular.Database
