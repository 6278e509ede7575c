import Tabular.Proofs.Relational.Steps

/-!
# Tabular.Proofs.Relational.History — what the answers of a relational database tell

`play` lets a list of actions, the latest first, happen to a database: calls on any connections, closing
them and switching the failure of commits on and off.  `Log.pending` reads off the answers which changes a
connection has made since it began its transaction, `Log.Open` which connections are open.  Main
statements: `reflects_play`, all along a run a connection keeps aside precisely these changes, and
`not_open_of_connect`, a new connection is none of the open ones.
-/

namespace Tabular

/-- The connection that a call is made on. -/
def RelationalCall.session? : RelationalCall → Option Nat
  | .connect => none
  | .begin s | .commit s | .rollback s | .tableExists s _ | .createTable s _ | .dropTable s _
  | .upsert s _ _ | .read s _ _ | .delete s _ _ | .scan s _ => some s

namespace Database

/-! ### Runs -/

/-- What may happen to a database. -/
inductive Action where
  | call (call : RelationalCall)
  | close (session : Nat)
  /-- Commits fail from now on, or no longer. -/
  | failCommits (fail : Bool)

/-- What has happened to a database. -/
inductive Entry where
  | answered (call : RelationalCall) (answer : Except StoreError call.Answer)
  | closed (session : Nat)
  | switched (fail : Bool)

/-- What has happened, the latest first. -/
abbrev Log := List Entry

/-- The effect of an action. -/
def act (db : Database) : Action → Entry × Database
  | .call call => (.answered call (db.perform call).1, (db.perform call).2)
  | .close session => (.closed session, db.close session)
  | .failCommits fail => (.switched fail, { db with failCommits := fail })

/-- Where a run of a database has come to. -/
structure Played where
  state : Database
  log : Log

/-- A run of a database; the latest action comes first. -/
def play (db : Database) : List Action → Played
  | [] => ⟨db, []⟩
  | action :: earlier =>
    let before := play db earlier
    ⟨(before.state.act action).2, (before.state.act action).1 :: before.log⟩

/-! ### The transaction of a connection, told from the answers -/

/-- What an entry means for the transaction of a connection. -/
inductive Turn where
  | opened
  | ended
  | changed (row : Change) (cell : Option Row)
  | nothing

/-- What an entry means for the transaction of a connection. -/
def Entry.turn (session : Nat) : Entry → Turn
  | .answered .connect (.ok new) => if new = session then .ended else .nothing
  | .answered (.begin s) (.ok ()) => if s = session then .opened else .nothing
  | .answered (.commit s) _ | .answered (.rollback s) _ | .closed s =>
    if s = session then .ended else .nothing
  | .answered (.upsert s schema row) (.ok ()) =>
    match schema.keyOf row with
    | .ok key => if s = session then .changed ⟨schema.name, key⟩ (some row) else .nothing
    | .error _ => .nothing
  | .answered (.delete s schema key) (.ok ()) =>
    if s = session then .changed ⟨schema.name, key⟩ none else .nothing
  | _ => .nothing

/-- The changes of an open transaction after an entry, the latest first. -/
def Turn.pending : Turn → Option (List (Change × Option Row)) → Option (List (Change × Option Row))
  | .opened, _ => some []
  | .ended, _ => none
  | .changed row cell, changes => changes.map ((row, cell) :: ·)
  | .nothing, changes => changes

/-- What a connection keeps aside after an entry. -/
def Turn.staged : Turn → Option Staged → Option Staged
  | .opened, _ => some ∅
  | .ended, _ => none
  | .changed row cell, staged =>
    staged.map fun changes =>
      changes.insert row.table ((changes.getD row.table ∅).insert row.key cell)
  | .nothing, staged => staged

namespace Log

/-- The changes that a connection has made in its open transaction, the latest first, if it has one. -/
def pending (session : Nat) : Log → Option (List (Change × Option Row))
  | [] => none
  | entry :: earlier => (entry.turn session).pending (pending session earlier)

/-- The new cells of the rows that a connection has changed in its open transaction. -/
def own (session : Nat) (log : Log) : Cells := fun row => ((log.pending session).getD []).lookup row

/-- Whether a connection has been opened and not been closed since. -/
def Open (session : Nat) : Log → Prop
  | [] => False
  | .answered .connect (.ok new) :: earlier => new = session ∨ Open session earlier
  | .closed s :: earlier => s ≠ session ∧ Open session earlier
  | _ :: earlier => Open session earlier

/-- Whether calls were made on open connections only, and only these were closed. -/
def Proper : Log → Prop
  | [] => True
  | .answered call _ :: earlier => Proper earlier ∧ ∀ s, call.session? = some s → Open s earlier
  | .closed s :: earlier => Proper earlier ∧ Open s earlier
  | .switched _ :: earlier => Proper earlier

end Log

/-- What a change that succeeds leaves a connection to keep aside. -/
theorem staged?_of_change {db after : Database} {s : Nat} {table : String} {key : RowKey}
    {cell : Option Row} (h : db.change s table key cell = .ok after) (session : Nat) :
    after.staged? session =
      (if s = session then Turn.changed ⟨table, key⟩ cell else .nothing).staged
        (db.staged? session) := by
  by_cases htable : table ∈ db.tables
  case neg =>
    rw [change_of_not_mem htable] at h
    cases h
  case pos =>
    cases hstaged : db.staged? s with
    | some changes =>
      rw [change_of_some hstaged htable] at h
      cases h
      rw [staged?_setStaged]
      split
      · rename_i heq
        rw [← heq, hstaged]
        rfl
      · rfl
    | none =>
      obtain ⟨rows, hrows⟩ := Option.isSome_iff_exists.1 (Std.ExtTreeMap.mem_iff_isSome_getElem?.1 htable)
      rw [change_of_none hstaged hrows] at h
      cases h
      show db.staged? session = _
      split
      · rename_i heq
        rw [← heq, hstaged]
        rfl
      · rfl

/-- What an action leaves a connection to keep aside. -/
theorem staged?_act (db : Database) (action : Action) (session : Nat) :
    (db.act action).2.staged? session =
      ((db.act action).1.turn session).staged (db.staged? session) := by
  have hite : ∀ s turn, (if s = session then turn else Turn.nothing).staged (db.staged? session) =
      if s = session then turn.staged (db.staged? session) else db.staged? session := by
    intro s turn
    split <;> rfl
  cases action with
  | close s =>
    rw [act, Entry.turn, hite]
    exact staged?_close db s session
  | failCommits fail => rfl
  | call call =>
    cases call with
    | connect =>
      show db.connect.2.staged? session =
        (Entry.turn session (.answered .connect db.connect.1)).staged (db.staged? session)
      cases h : db.connect.1 with
      | ok new =>
        rw [db.staged?_connect_ok new session h, Entry.turn, hite]
        rfl
      | error e =>
        rw [db.staged?_connect_error session h]
        rfl
    | begin s =>
      simp only [act, perform, begin]
      cases hstaged : db.staged? s with
      | some changes => rfl
      | none =>
        show (db.setStaged s (some ∅)).staged? session = Turn.staged (ite _ _ _) _
        rw [hite, staged?_setStaged]
        rfl
    | commit s =>
      simp only [act, perform, Entry.turn]
      rw [hite, staged?_commit]
      rfl
    | rollback s =>
      simp only [act, perform, Entry.turn]
      rw [hite, staged?_setStaged]
      rfl
    | tableExists s table => rfl
    | createTable s schema =>
      simp only [act, perform, createTable]
      split <;> rfl
    | dropTable s table =>
      simp only [act, perform, dropTable]
      split <;> rfl
    | upsert s schema row =>
      cases hkey : schema.keyOf row with
      | error e =>
        rw [act, perform_upsert_of_error hkey]
        rfl
      | ok key =>
        rw [act, perform_upsert hkey]
        cases hchange : db.change s schema.name key (some row) with
        | error e => rfl
        | ok after =>
          have hturn : Entry.turn session (.answered (.upsert s schema row) (.ok ())) =
              if s = session then .changed ⟨schema.name, key⟩ (some row) else .nothing := by
            simp only [Entry.turn, hkey]
          exact (staged?_of_change hchange session).trans (congrArg (Turn.staged · _) hturn.symm)
    | read s schema key => rfl
    | delete s schema key =>
      rw [act, perform]
      cases hchange : db.change s schema.name key none with
      | error e => rfl
      | ok after => exact staged?_of_change hchange session
    | scan s schema => rfl

/-! ### What is kept aside is what was changed -/

/-- Whether what a connection keeps aside is made of the given changes. -/
def Reflects : Option Staged → Option (List (Change × Option Row)) → Prop
  | none, none => True
  | some staged, some changes =>
    (∀ row : Change, (staged.getD row.table ∅)[row.key]? = changes.lookup row) ∧
      ∀ table, table ∈ staged ↔ ∃ c ∈ changes, c.1.table = table
  | _, _ => False

theorem Reflects.insert {staged : Staged} {changes : List (Change × Option Row)}
    (h : Reflects (some staged) (some changes)) (row : Change) (cell : Option Row) :
    Reflects (some (staged.insert row.table ((staged.getD row.table ∅).insert row.key cell)))
      (some ((row, cell) :: changes)) := by
  obtain ⟨hcells, htables⟩ := h
  obtain ⟨table, key⟩ := row
  refine ⟨?_, ?_⟩
  · rintro ⟨table', key'⟩
    by_cases htable : table = table'
    · subst htable
      by_cases hkey : key = key'
      · subst hkey
        simp
      · have hne : (⟨table, key'⟩ : Change) ≠ ⟨table, key⟩ := fun heq => hkey (congrArg Change.key heq).symm
        simp [Std.ExtTreeMap.getElem?_insert, hkey, List.lookup_cons, beq_eq_false_iff_ne.2 hne,
          hcells ⟨table, key'⟩]
    · have hne : (⟨table', key'⟩ : Change) ≠ ⟨table, key⟩ := fun heq => htable (congrArg Change.table heq).symm
      simp [Std.ExtTreeMap.getD_insert, htable, List.lookup_cons, beq_eq_false_iff_ne.2 hne,
        hcells ⟨table', key'⟩]
  · intro table'
    simp [htables table']

theorem Reflects.turn {staged : Option Staged} {changes : Option (List (Change × Option Row))}
    (h : Reflects staged changes) (turn : Turn) : Reflects (turn.staged staged) (turn.pending changes) := by
  cases turn with
  | opened => simp [Turn.staged, Turn.pending, Reflects]
  | ended => trivial
  | nothing => exact h
  | changed row cell =>
    cases staged with
    | none =>
      cases changes with
      | none => trivial
      | some changes => exact h.elim
    | some staged =>
      cases changes with
      | none => exact h.elim
      | some changes => exact h.insert row cell

/-- All along a run a connection keeps aside precisely what it has changed in its open transaction. -/
theorem reflects_play (url : String) (limit waitMs : Nat) (actions : List Action) (session : Nat) :
    Reflects ((play (empty url limit waitMs) actions).state.staged? session)
      ((play (empty url limit waitMs) actions).log.pending session) := by
  induction actions with
  | nil => simp [play, staged?, empty, Log.pending, Reflects]
  | cons action earlier ih =>
    simp only [play, Log.pending]
    rw [staged?_act]
    exact ih.turn _

/-! ### The numbers of connections -/

/-- Whether nothing but the tables and what connections keep aside differs. -/
def Frame (db after : Database) : Prop :=
  after.failCommits = db.failCommits ∧ after.sessions = db.sessions ∧ after.nextSession = db.nextSession

theorem Frame.of_change {db after : Database} {s : Nat} {table : String} {key : RowKey}
    {cell : Option Row} (h : db.change s table key cell = .ok after) : Frame db after := by
  by_cases htable : table ∈ db.tables
  case neg =>
    rw [change_of_not_mem htable] at h
    cases h
  case pos =>
    cases hstaged : db.staged? s with
    | some changes =>
      rw [change_of_some hstaged htable] at h
      cases h
      exact ⟨rfl, rfl, rfl⟩
    | none =>
      obtain ⟨rows, hrows⟩ := Option.isSome_iff_exists.1 (Std.ExtTreeMap.mem_iff_isSome_getElem?.1 htable)
      rw [change_of_none hstaged hrows] at h
      cases h
      exact ⟨rfl, rfl, rfl⟩

/-- Calls on connections open no connection and decide nothing about later commits. -/
theorem Frame.of_perform (db : Database) {call : RelationalCall} {s : Nat}
    (hs : call.session? = some s) : Frame db (db.perform call).2 := by
  have hsame : ∀ {staged}, Frame db (db.setStaged s staged) := ⟨rfl, rfl, rfl⟩
  have hself : Frame db db := ⟨rfl, rfl, rfl⟩
  have hchange : ∀ table key cell,
      Frame db (db.answered (((), ·) <$> db.change s table key cell)).2 := by
    intro table key cell
    cases hc : db.change s table key cell with
    | error e => exact hself
    | ok after => exact Frame.of_change hc
  cases call <;> cases hs
  case begin =>
    simp only [perform, begin]
    split
    · exact hself
    · exact hsame
  case commit =>
    simp only [perform, commit]
    split
    · exact hself
    · split
      · exact hsame
      · split <;> exact ⟨rfl, rfl, rfl⟩
  case rollback => exact hsame
  case tableExists table => exact hself
  case createTable schema =>
    simp only [perform, createTable]
    split <;> exact ⟨rfl, rfl, rfl⟩
  case dropTable table =>
    simp only [perform, dropTable]
    split <;> exact ⟨rfl, rfl, rfl⟩
  case upsert schema row =>
    cases hkey : schema.keyOf row with
    | error e =>
      rw [perform_upsert_of_error hkey]
      exact hself
    | ok key =>
      rw [perform_upsert hkey]
      exact hchange _ _ _
  case read schema key => exact hself
  case delete schema key => exact hchange _ _ _
  case scan schema => exact hself

/-- A new connection gets a number that was given back, or the next one, or there is no room for it. -/
theorem connect_cases (db : Database) :
    (∃ new rest, db.sessions.idle = new :: rest ∧ db.connect.1 = .ok new ∧
        db.connect.2.sessions.idle = rest ∧ db.connect.2.nextSession = db.nextSession) ∨
      (db.sessions.idle = [] ∧ db.connect.1 = .ok db.nextSession ∧
        db.connect.2.sessions.idle = [] ∧ db.connect.2.nextSession = db.nextSession + 1) ∨
      (db.sessions.idle = [] ∧ ∃ e, db.connect.1 = .error e ∧
        db.connect.2.sessions.idle = [] ∧ db.connect.2.nextSession = db.nextSession) := by
  unfold connect Pool.taken Pool.take
  cases hidle : db.sessions.idle with
  | cons new rest => exact .inl ⟨new, rest, rfl, rfl, rfl, rfl⟩
  | nil =>
    by_cases hroom : db.sessions.hasRoom
    · dsimp only
      rw [if_pos hroom, if_pos hroom]
      exact .inr (.inl ⟨rfl, rfl, hidle, rfl⟩)
    · dsimp only
      rw [if_neg hroom, if_neg hroom]
      exact .inr (.inr ⟨rfl, _, rfl, rfl, rfl⟩)

/-- How the numbers of connections are kept apart: those to be handed out again are of closed ones. -/
structure Numbered (db : Database) (log : Log) : Prop where
  idle_lt : ∀ s ∈ db.sessions.idle, s < db.nextSession
  open_lt : ∀ s, log.Open s → s < db.nextSession
  idle_nodup : db.sessions.idle.Nodup
  idle_closed : ∀ s ∈ db.sessions.idle, ¬ log.Open s

namespace Numbered

variable {db after : Database} {log : Log} {s : Nat}

theorem empty (url : String) (limit waitMs : Nat) : Numbered (empty url limit waitMs) [] where
  idle_lt s hs := by simp [Database.empty] at hs
  open_lt s hs := hs.elim
  idle_nodup := List.nodup_nil
  idle_closed s hs := by simp [Database.empty] at hs

/-- Calls on connections open none. -/
theorem answered (h : Numbered db log) (hframe : Frame db after) {call : RelationalCall}
    {answer : Except StoreError call.Answer} (hs : call.session? = some s) :
    Numbered after (.answered call answer :: log) := by
  obtain ⟨-, hsessions, hnext⟩ := hframe
  have hopen : ∀ t, Log.Open t (.answered call answer :: log) ↔ log.Open t := by
    intro t
    cases call <;> cases hs <;> rfl
  refine ⟨?_, ?_, ?_, ?_⟩
  · rw [hsessions, hnext]
    exact h.idle_lt
  · intro t ht
    rw [hnext]
    exact h.open_lt t ((hopen t).1 ht)
  · rw [hsessions]
    exact h.idle_nodup
  · intro t ht hmem
    rw [hsessions] at ht
    exact h.idle_closed t ht ((hopen t).1 hmem)

theorem connected (h : Numbered db log) :
    Numbered db.connect.2 (.answered .connect db.connect.1 :: log) := by
  have hnodup := h.idle_nodup
  rcases db.connect_cases with ⟨new, rest, hidle, hanswer, hrest, hnext⟩ |
    ⟨hidle, hanswer, hnone, hnext⟩ | ⟨hidle, e, hanswer, hnone, hnext⟩
  · rw [hidle, List.nodup_cons] at hnodup
    have hlt : ∀ t ∈ new :: rest, t < db.nextSession := fun t ht => h.idle_lt t (hidle ▸ ht)
    rw [hanswer]
    refine ⟨?_, ?_, hrest ▸ hnodup.2, ?_⟩
    · intro t ht
      rw [hrest] at ht
      exact hnext ▸ hlt t (List.mem_cons_of_mem _ ht)
    · rintro t (rfl | ht)
      · exact hnext ▸ hlt _ List.mem_cons_self
      · exact hnext ▸ h.open_lt t ht
    · intro t ht
      rw [hrest] at ht
      rintro (rfl | hmem)
      · exact hnodup.1 ht
      · exact h.idle_closed t (hidle ▸ List.mem_cons_of_mem _ ht) hmem
  · rw [hanswer]
    refine ⟨by simp [hnone], ?_, by simp [hnone], by simp [hnone]⟩
    rintro t (rfl | ht)
    · exact hnext ▸ Nat.lt_succ_self _
    · exact hnext ▸ Nat.lt_succ_of_lt (h.open_lt t ht)
  · rw [hanswer]
    exact ⟨by simp [hnone], fun t ht => hnext ▸ h.open_lt t ht, by simp [hnone], by simp [hnone]⟩

/-- The number of a connection that is closed may be handed out again. -/
theorem closed (h : Numbered db log) (hs : log.Open s) : Numbered (db.close s) (.closed s :: log) := by
  have hidle : (db.close s).sessions.idle = s :: db.sessions.idle := rfl
  refine ⟨?_, ?_, ?_, ?_⟩
  · intro t ht
    rw [hidle, List.mem_cons] at ht
    rcases ht with rfl | ht
    · exact h.open_lt _ hs
    · exact h.idle_lt t ht
  · rintro t ⟨-, ht⟩
    exact h.open_lt t ht
  · rw [hidle, List.nodup_cons]
    exact ⟨fun hmem => h.idle_closed s hmem hs, h.idle_nodup⟩
  · intro t ht
    rw [hidle, List.mem_cons] at ht
    rintro ⟨hne, hmem⟩
    rcases ht with rfl | ht
    · exact hne rfl
    · exact h.idle_closed t ht hmem

theorem play (url : String) (limit waitMs : Nat) (actions : List Action)
    (hproper : (Database.play (Database.empty url limit waitMs) actions).log.Proper) :
    Numbered (Database.play (Database.empty url limit waitMs) actions).state
      (Database.play (Database.empty url limit waitMs) actions).log := by
  induction actions with
  | nil => exact Numbered.empty url limit waitMs
  | cons action earlier ih =>
    cases action with
    | close s => exact (ih hproper.1).closed hproper.2
    | failCommits fail =>
      have h := ih hproper
      exact ⟨h.idle_lt, h.open_lt, h.idle_nodup, h.idle_closed⟩
    | call call =>
      cases hs : call.session? with
      | some s => exact (ih hproper.1).answered (Frame.of_perform _ hs) hs
      | none =>
        cases call with
        | connect => exact (ih hproper.1).connected
        | begin | commit | rollback | tableExists | createTable | dropTable | upsert | read | delete
        | scan => cases hs

/-- A new connection is none of the open ones. -/
theorem not_open_of_connect (h : Numbered db log) {new : Nat} (hnew : db.connect.1 = .ok new) :
    ¬ log.Open new := by
  rcases db.connect_cases with ⟨new', rest, hidle, hanswer, -, -⟩ | ⟨-, hanswer, -, -⟩ |
    ⟨-, e, hanswer, -, -⟩
  · rw [hanswer] at hnew
    cases hnew
    exact h.idle_closed new (hidle ▸ List.mem_cons_self)
  · rw [hanswer] at hnew
    cases hnew
    exact fun hopen => Nat.lt_irrefl _ (h.open_lt _ hopen)
  · rw [hanswer] at hnew
    cases hnew

end Numbered

end Database

end Tabular
