import Tabular.Proofs.Coordinator.Order

/-!
# Tabular.Proofs.Coordinator.Conflict — conflict detection is exact over whole runs

`play` lets a list of occurrences, the latest first, happen to a coordinator: calls of any sessions, at
any times, and losing and regaining the coordinator.  Main statement: `conflict_detection_exact`, the
answers to `canCommit` and `commit` say precisely whether a transaction that committed since the begin
changed one of the rows, and forgetting old commits never shows in an answer.
-/

namespace Tabular.Coordinator

/-- What may happen to a coordinator. -/
inductive Occurrence where
  /-- It is called, at some time. -/
  | call (now : Nat) (call : CoordinatorCall)
  /-- It can be reached from now on, or no longer. -/
  | reach (available : Bool)

/-- Where a run of a coordinator has come to. -/
structure Played where
  state : Coordinator
  /-- What was asked and answered, the latest first. -/
  log : Log

/-- A run of a coordinator that forgets in the given way; the latest occurrence comes first. -/
def playBy (forget : Coordinator → Coordinator) (s : Coordinator) : List Occurrence → Played
  | [] => ⟨s, []⟩
  | .call now call :: earlier =>
    let before := playBy forget s earlier
    let (answer, after) := before.state.respondBy forget now call
    ⟨after, ⟨call, answer⟩ :: before.log⟩
  | .reach available :: earlier =>
    let before := playBy forget s earlier
    ⟨{ before.state with available }, before.log⟩

/-- A run of a coordinator; the latest occurrence comes first. -/
def play (s : Coordinator) : List Occurrence → Played
  | [] => ⟨s, []⟩
  | .call now call :: earlier =>
    let before := play s earlier
    let (answer, after) := before.state.respond now call
    ⟨after, ⟨call, answer⟩ :: before.log⟩
  | .reach available :: earlier =>
    let before := play s earlier
    ⟨{ before.state with available }, before.log⟩

theorem playBy_prune (s : Coordinator) (events : List Occurrence) :
    playBy prune s events = play s events := by
  induction events with
  | nil => rfl
  | cons e earlier ih =>
    cases e with
    | call now call => simp only [playBy, play, ih, respondBy_prune]
    | reach available => simp only [playBy, play, ih]

namespace Tracks

variable {forget : Coordinator → Coordinator} {s : Coordinator} {log : Log}

theorem fresh (timeoutMs : Nat) : Tracks { timeoutMs } [] where
  open_lt hp := by simp at hp
  committed_lt hc := by simp at hc
  announced_open hp := by simp at hp
  began hp := by simp at hp
  began_lt hp := by simp [Log.Began] at hp
  recorded hp := by simp at hp
  unrecorded _ := rfl
  conflict hp := by simp at hp
  ended hp := by simp [Log.Committed] at hp
  orderly := trivial

/-- The relation to the log holds all along a run. -/
theorem play (hf : Forgets forget) (h : Tracks s []) (events : List Occurrence) :
    Tracks (playBy forget s events).state (playBy forget s events).log := by
  induction events with
  | nil => exact h
  | cons e earlier ih =>
    cases e with
    | call now call => exact ih.respond hf now call
    | reach available => exact ih.reach available

end Tracks

/-! ### Remembering everything -/

/-- Whether two states differ in nothing but what they remember of commits. -/
def Alike (s t : Coordinator) : Prop := { s with committed := t.committed } = t

namespace Alike

variable {forget forget' : Coordinator → Coordinator} {s t : Coordinator}

theorem fields (h : Alike s t) :
    s.timeoutMs = t.timeoutMs ∧ s.nextPointer = t.nextPointer ∧ s.inProgress = t.inProgress ∧
      s.invalid = t.invalid ∧ s.announced = t.announced ∧ s.available = t.available ∧
      s.sessions = t.sessions := by
  rw [← h]
  exact ⟨rfl, rfl, rfl, rfl, rfl, rfl, rfl⟩

theorem forgotten (hf : Forgets forget) (hf' : Forgets forget') (h : Alike s t) :
    Alike (forget s) (forget' t) := by
  obtain ⟨kept, hkept⟩ := hf.frame s
  obtain ⟨kept', hkept'⟩ := hf'.frame t
  rw [hkept, hkept', ← h]
  rfl

theorem finish (hf : Forgets forget) (hf' : Forgets forget') (h : Alike s t) (p : Nat) :
    Alike (s.finishBy forget p) (t.finishBy forget' p) := by
  refine forgotten hf hf' ?_
  rw [← h]
  rfl

theorem invalidate (hf : Forgets forget) (hf' : Forgets forget') (h : Alike s t) (p : Nat) :
    Alike (s.invalidateBy forget p) (t.invalidateBy forget' p) := by
  have hended := h.finish hf hf' p
  unfold invalidateBy
  revert hended
  generalize s.finishBy forget p = s
  generalize t.finishBy forget' p = t
  intro hended
  rw [← hended]
  rfl

theorem expire (hf : Forgets forget) (hf' : Forgets forget') (h : Alike s t) (now : Nat) :
    Alike (s.expireBy forget now) (t.expireBy forget' now) := by
  have hoverdue : s.overdue now = t.overdue now := by
    rw [← h]
    rfl
  unfold expireBy
  rw [hoverdue]
  generalize t.overdue now = ps
  induction ps generalizing s t with
  | nil => exact h
  | cons p ps ih =>
    have h' := h.invalidate hf hf' p
    exact ih h' (by rw [← h']; rfl)

theorem begin (hf : Forgets forget) (hf' : Forgets forget') (h : Alike s t) (now : Nat) :
    (s.beginBy forget now).1 = (t.beginBy forget' now).1 ∧
      Alike (s.beginBy forget now).2 (t.beginBy forget' now).2 := by
  have hexpired := h.expire hf hf' now
  unfold beginBy
  revert hexpired
  generalize s.expireBy forget now = s
  generalize t.expireBy forget' now = t
  intro hexpired
  rw [← hexpired]
  exact ⟨rfl, rfl⟩

theorem remember (h : Alike s t) (changes : ChangeSet) :
    Alike (s.remember changes) (t.remember changes) := by
  rw [← h]
  rfl

/-- Two coordinators that answered alike so far find the same conflicts, however they forget. -/
theorem hasConflict (h : Alike s t) {log : Log} (hs : Tracks s log) (ht : Tracks t log) {p : Nat}
    (hp : p ∈ s.inProgress) (changes : ChangeSet) :
    s.hasConflict p changes = t.hasConflict p changes := by
  have hp' : p ∈ t.inProgress := h.fields.2.2.1 ▸ hp
  rw [Bool.eq_iff_iff, hs.conflict hp, ht.conflict hp']

/-- Such coordinators also give the same answer next, and stay alike. -/
theorem respond (hf : Forgets forget) (hf' : Forgets forget') (h : Alike s t) {log : Log}
    (hs : Tracks s log) (ht : Tracks t log) (now : Nat) (call : CoordinatorCall) :
    (s.respondBy forget now call).1 = (t.respondBy forget' now call).1 ∧
      Alike (s.respondBy forget now call).2 (t.respondBy forget' now call).2 := by
  obtain ⟨-, -, hopen, -, hannounced, hreach, hsessions⟩ := h.fields
  by_cases havailable : s.available = true
  case neg =>
    have hs' : s.available = false := by simpa using havailable
    have ht' : t.available = false := hreach ▸ hs'
    have hsame : (s.respondBy forget now call).1 = (t.respondBy forget' now call).1 := by
      cases call <;> simp [respondBy, performBy, connect, onSession, hs', ht']
    obtain ⟨reason, he⟩ := respondBy_unavailable forget now hs' call
    obtain ⟨reason', he'⟩ := respondBy_unavailable forget' now ht' call
    refine ⟨hsame, ?_⟩
    rw [he, he']
    exact h
  case pos =>
    have havailable' : t.available = true := hreach ▸ havailable
    cases call with
    | connect =>
      rw [respondBy_connect forget now havailable, respondBy_connect forget' now havailable',
        hsessions]
      refine ⟨rfl, ?_⟩
      rw [← h]
      rfl
    | begin session =>
      rw [respondBy_begin forget now havailable, respondBy_begin forget' now havailable']
      obtain ⟨htx, halike⟩ := h.begin hf hf' now
      exact ⟨congrArg Except.ok htx, halike⟩
    | canCommit session tx changes =>
      rw [respondBy_canCommit forget now havailable, respondBy_canCommit forget' now havailable',
        ← hopen]
      by_cases hp : tx.writePointer ∈ s.inProgress
      · rw [← h.hasConflict hs ht hp]
        simp only [hp, not_true_eq_false, if_false]
        split
        · exact ⟨rfl, h⟩
        · refine ⟨rfl, ?_⟩
          rw [← h]
          rfl
      · simp only [hp, not_false_eq_true, if_true]
        exact ⟨trivial, h⟩
    | commit session tx =>
      rw [respondBy_commit forget now havailable, respondBy_commit forget' now havailable',
        ← hopen, ← hannounced]
      by_cases hp : tx.writePointer ∈ s.inProgress
      · rw [← h.hasConflict hs ht hp]
        simp only [hp, not_true_eq_false, if_false]
        split
        · exact ⟨rfl, h⟩
        · exact ⟨rfl, (h.remember _).finish hf hf' _⟩
      · simp only [hp, not_false_eq_true, if_true]
        exact ⟨trivial, h⟩
    | abort session tx =>
      rw [respondBy_abort forget now havailable, respondBy_abort forget' now havailable']
      exact ⟨rfl, h.finish hf hf' _⟩
    | invalidate session tx =>
      rw [respondBy_invalidate forget now havailable, respondBy_invalidate forget' now havailable',
        hopen]
      exact ⟨rfl, h.invalidate hf hf' _⟩

/-- How a coordinator forgets does not show in its answers over a whole run. -/
theorem play (hf : Forgets forget) (hf' : Forgets forget') (h : Tracks s []) (events : List Occurrence) :
    (playBy forget s events).log = (playBy forget' s events).log ∧
      Alike (playBy forget s events).state (playBy forget' s events).state := by
  induction events with
  | nil => exact ⟨rfl, rfl⟩
  | cons e earlier ih =>
    obtain ⟨hlog, halike⟩ := ih
    have hs := h.play hf earlier
    have ht := h.play hf' earlier
    rw [← hlog] at ht
    cases e with
    | call now call =>
      obtain ⟨hanswer, halike⟩ := halike.respond hf hf' hs ht now call
      refine ⟨?_, halike⟩
      simp only [playBy]
      rw [hanswer, hlog]
    | reach available =>
      refine ⟨hlog, ?_⟩
      simp only [playBy]
      rw [← halike]
      rfl

end Alike

/-! ### Exact conflict detection -/

/-- The write pointer of a commit that was answered with yes. -/
def Reply.committed? (r : Reply) : Option Nat :=
  match r.fact with
  | .committed p => some p
  | _ => none

theorem Reply.committed?_eq_some_iff {r : Reply} {p : Nat} :
    r.committed? = some p ↔ r.fact = .committed p := by
  unfold Reply.committed?
  split <;> simp_all

theorem Log.Orderly.nodup_committed {log : Log} (h : log.Orderly) :
    (log.filterMap Reply.committed?).Nodup := by
  induction log with
  | nil => exact List.nodup_nil
  | cons r earlier ih =>
    cases hr : r.committed? with
    | none =>
      rw [List.filterMap_cons_none hr]
      exact ih h.1
    | some p =>
      have hnew := h.2
      rw [Reply.committed?_eq_some_iff.1 hr] at hnew
      rw [List.filterMap_cons_some hr, List.nodup_cons]
      refine ⟨fun hmem => ?_, ih h.1⟩
      obtain ⟨r', hr', hp⟩ := List.mem_filterMap.1 hmem
      exact hnew.2.1 ⟨r', hr', Reply.committed?_eq_some_iff.1 hp⟩

section Answers

variable {s : Coordinator} {log : Log} {now session : Nat} {tx : Transaction}

theorem perform_canCommit (now session : Nat) (havailable : s.available = true)
    (hp : tx.writePointer ∈ s.inProgress) (changes : ChangeSet) :
    ∃ s', s.perform now (.canCommit session tx changes) =
      .ok (!s.hasConflict tx.writePointer changes, s') := by
  cases hc : s.hasConflict tx.writePointer changes <;>
    simp [perform, onSession, canCommit, havailable, hp, hc]

theorem perform_commit (now session : Nat) (havailable : s.available = true)
    (hp : tx.writePointer ∈ s.inProgress) :
    ∃ s', s.perform now (.commit session tx) =
      .ok (!s.hasConflict tx.writePointer (s.announced.getD tx.writePointer ∅), s') := by
  cases hc : s.hasConflict tx.writePointer (s.announced.getD tx.writePointer ∅) <;>
    simp [perform, onSession, commit, havailable, hp, hc]

/-- What `canCommit` answers about a transaction in progress. -/
theorem Tracks.canCommit_answer (h : Tracks s log) (havailable : s.available = true)
    (hp : tx.writePointer ∈ s.inProgress) (changes : ChangeSet) :
    ∃ answer s', s.perform now (.canCommit session tx changes) = .ok (answer, s') ∧
      (answer = false ↔
        ∃ c ∈ log.commitsSince tx.writePointer, c.changes.meets changes = true) := by
  obtain ⟨s', hs'⟩ := perform_canCommit now session havailable hp changes
  exact ⟨_, s', hs', by rw [← h.conflict hp changes, Bool.not_eq_false']⟩

/-- What `commit` answers about a transaction in progress. -/
theorem Tracks.commit_answer (h : Tracks s log) (havailable : s.available = true)
    (hp : tx.writePointer ∈ s.inProgress) :
    ∃ answer s', s.perform now (.commit session tx) = .ok (answer, s') ∧
      (answer = false ↔ ∃ c ∈ log.commitsSince tx.writePointer,
        c.changes.meets (log.recorded tx.writePointer) = true) := by
  obtain ⟨s', hs'⟩ := perform_commit now session havailable hp
  exact ⟨_, s', hs', by rw [← h.conflict hp, ← h.recorded hp, Bool.not_eq_false']⟩

theorem perform_not_inProgress (hp : tx.writePointer ∉ s.inProgress) (changes : ChangeSet) :
    (∃ reason, s.perform now (.canCommit session tx changes) = .error (.coordinator reason)) ∧
      ∃ reason, s.perform now (.commit session tx) = .error (.coordinator reason) := by
  cases havailable : s.available <;>
    simp [perform, onSession, canCommit, commit, notInProgress, havailable, hp]

end Answers

/-- **Conflict detection is exact over whole runs.**  Whatever happened to a coordinator, in any order:
while it can be reached and a transaction is in progress, `canCommit` refuses changes exactly if a
transaction that committed since the begin had announced a change of one of the rows, and `commit`
refuses exactly if the same holds of the changes announced last; for any other transaction both fail.
A coordinator that remembers every commit would have given the same answers.  No write pointer commits
twice, and two transactions that committed, each having begun before the other's commit, had announced
no row in common. -/
theorem conflict_detection_exact (timeoutMs : Nat) (events : List Occurrence) :
    (∀ now session tx changes,
      (play { timeoutMs } events).state.available = true →
      tx.writePointer ∈ (play { timeoutMs } events).state.inProgress →
        Log.Began tx.writePointer (play { timeoutMs } events).log ∧
        (∃ answer s', (play { timeoutMs } events).state.perform now (.canCommit session tx changes) =
            .ok (answer, s') ∧
          (answer = false ↔
            ∃ c ∈ Log.commitsSince tx.writePointer (play { timeoutMs } events).log,
              c.changes.meets changes = true)) ∧
        ∃ answer s', (play { timeoutMs } events).state.perform now (.commit session tx) =
            .ok (answer, s') ∧
          (answer = false ↔
            ∃ c ∈ Log.commitsSince tx.writePointer (play { timeoutMs } events).log,
              c.changes.meets (Log.recorded tx.writePointer (play { timeoutMs } events).log) = true)) ∧
    (∀ now session tx changes, tx.writePointer ∉ (play { timeoutMs } events).state.inProgress →
      (∃ reason, (play { timeoutMs } events).state.perform now (.canCommit session tx changes) =
          .error (.coordinator reason)) ∧
        ∃ reason, (play { timeoutMs } events).state.perform now (.commit session tx) =
          .error (.coordinator reason)) ∧
    (playBy id { timeoutMs } events).log = (play { timeoutMs } events).log ∧
    ((play { timeoutMs } events).log.filterMap Reply.committed?).Nodup ∧
    ∀ (later between earlier : Log) (a b : Reply) (p q : Nat),
      (play { timeoutMs } events).log = later ++ b :: (between ++ a :: earlier) →
      a.fact = .committed p → b.fact = .committed q → earlier.Began q →
        ChangeSet.meets (earlier.recorded p) (Log.recorded q (between ++ a :: earlier)) = false := by
  have hfresh := Tracks.fresh timeoutMs
  have htracks := hfresh.play forgets_prune events
  have hfull := Alike.play forgets_id forgets_prune hfresh events
  rw [playBy_prune] at htracks hfull
  refine ⟨?_, ?_, hfull.1, htracks.orderly.nodup_committed, ?_⟩
  · intro now session tx changes havailable hp
    exact ⟨htracks.began hp, htracks.canCommit_answer havailable hp changes,
      htracks.commit_answer havailable hp⟩
  · intro now session tx changes hp
    exact perform_not_inProgress hp changes
  · intro later between earlier a b p q hlog ha hb hbegan
    exact htracks.orderly.disjoint hlog ha hb hbegan

/-! ### Two transactions that overlap -/

/-- The first transaction that begins. -/
def firstTx : Transaction := { writePointer := 1, readLimit := some 0, excluded := ∅ }

/-- Two transactions that begin before the first one commits a change of some rows. -/
def overlapping (rows : ChangeSet) : List Occurrence :=
  [.call 0 (.commit 1 firstTx), .call 0 (.canCommit 1 firstTx rows), .call 0 (.begin 2), .call 0 (.begin 1)]

section Overlapping

variable (rows : ChangeSet) {tx : Transaction}

theorem play_overlapping :
    (play { timeoutMs := 30000 } (overlapping rows)).state.available = true ∧
      2 ∈ (play { timeoutMs := 30000 } (overlapping rows)).state.inProgress ∧
      (play { timeoutMs := 30000 } (overlapping rows)).log.commitsSince 2 = [⟨1, rows⟩] := by
  simp [overlapping, firstTx, play, respond, perform, onSession, begin, expire_zero, canCommit, commit,
    remember, hasConflict_of_committed_eq_empty, Log.commitsSince, Log.recorded, Reply.fact]

/-- The first transaction is allowed to commit. -/
theorem respond_firstTx :
    ((play { timeoutMs := 30000 } [.call 0 (.begin 2), .call 0 (.begin 1)]).state.respond 0
      (.canCommit 1 firstTx rows)).1 = .ok true ∧
    ((play { timeoutMs := 30000 }
      [.call 0 (.canCommit 1 firstTx rows), .call 0 (.begin 2), .call 0 (.begin 1)]).state.respond 0
        (.commit 1 firstTx)).1 = .ok true := by
  simp [firstTx, play, respond, perform, onSession, begin, expire_zero, canCommit, commit,
    hasConflict_of_committed_eq_empty]

variable {rows}

/-- The second transaction may not change the same rows any more. -/
theorem respond_overlapping (htx : tx.writePointer = 2) (hmeets : rows.meets rows = true) :
    (play { timeoutMs := 30000 } (overlapping rows)).state.respond 0 (.canCommit 2 tx rows) =
      (.ok false, (play { timeoutMs := 30000 } (overlapping rows)).state) := by
  obtain ⟨havailable, hopen, hcommits⟩ := play_overlapping rows
  have htracks := (Tracks.fresh 30000).play forgets_prune (overlapping rows)
  rw [playBy_prune] at htracks
  have hmem : ⟨1, rows⟩ ∈ Log.commitsSince 2 (play { timeoutMs := 30000 } (overlapping rows)).log := by
    rw [hcommits]
    exact List.mem_singleton_self _
  have hconflict := (htracks.conflict hopen rows).2 ⟨⟨1, rows⟩, hmem, hmeets⟩
  rw [← respondBy_prune, respondBy_canCommit prune 0 havailable, htx, if_neg (not_not_intro hopen),
    if_pos hconflict]

theorem respond_abort_overlapping (htx : tx.writePointer = 2) (hmeets : rows.meets rows = true) :
    (((play { timeoutMs := 30000 } (overlapping rows)).state.respond 0
      (.canCommit 2 tx rows)).2.respond 0 (.abort 2 tx)).1 = .ok () := by
  rw [respond_overlapping htx hmeets, ← respondBy_prune,
    respondBy_abort prune 0 (play_overlapping rows).1]

end Overlapping

/-- The later one of two overlapping transactions may not change the same row. -/
theorem conflict_detection_exact_overlapping :
    let rows : ChangeSet := .ofList [⟨"accounts", ⟨[.integer 1]⟩⟩] compare
    let tx : Transaction := { writePointer := 2, readLimit := some 1, excluded := ∅ }
    ∃ s', (play { timeoutMs := 30000 } (overlapping rows)).state.perform 0 (.canCommit 2 tx rows) =
      .ok (false, s') := by
  intro rows tx
  obtain ⟨havailable, hopen, hcommits⟩ := play_overlapping rows
  have hexact := (conflict_detection_exact 30000 (overlapping rows)).1
  obtain ⟨-, ⟨answer, s', hs', hanswer⟩, -⟩ := hexact 0 2 tx rows havailable hopen
  have hmeets : rows.meets rows = true := by decide +kernel
  rw [hanswer.2 ⟨_, by rw [hcommits]; exact List.mem_singleton_self _, hmeets⟩] at hs'
  exact ⟨s', hs'⟩

end Tabular.Coordinator
