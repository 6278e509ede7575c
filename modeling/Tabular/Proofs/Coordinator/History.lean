import Tabular.Proofs.Coordinator.Steps

/-!
# Tabular.Proofs.Coordinator.History — what the answers of a coordinator tell

A `Log` lists what a coordinator was asked and answered, the latest reply first; `recorded` and
`commitsSince` read off it which changes a transaction announced last and what was committed after a
transaction began.  `performBy forget` is `perform` with another way of forgetting committed changes.
`Tracks` relates a state to the log of the answers that led to it.  Main statement: `Tracks.respond`,
every call keeps the relation, however the coordinator forgets.
-/

namespace Tabular.Coordinator

/-! ### Replies -/

/-- A call and its answer. -/
structure Reply where
  call : CoordinatorCall
  answer : Except StoreError call.Answer

/-- Replies, the latest first. -/
abbrev Log := List Reply

/-- What a reply says about the life of a transaction, which is known by its write pointer. -/
inductive Fact where
  | began (p : Nat)
  | announced (p : Nat) (changes : ChangeSet)
  | committed (p : Nat)
  /-- Nothing that matters to conflicts. -/
  | nothing

/-- What a reply says. -/
def Reply.fact : Reply → Fact
  | ⟨.begin _, .ok tx⟩ => .began tx.writePointer
  | ⟨.canCommit _ tx changes, .ok true⟩ => .announced tx.writePointer changes
  | ⟨.commit _ tx, .ok true⟩ => .committed tx.writePointer
  | _ => .nothing

/-- A commit: the write pointer, and the changes that the transaction had announced. -/
structure Commit where
  writePointer : Nat
  changes : ChangeSet

namespace Log

/-- The changes that a transaction was last allowed to announce. -/
def recorded (p : Nat) : Log → ChangeSet
  | [] => ∅
  | r :: earlier =>
    match r.fact with
    | .announced q changes => if q = p then changes else recorded p earlier
    | _ => recorded p earlier

/-- The commits after a transaction began, the latest first. -/
def commitsSince (p : Nat) : Log → List Commit
  | [] => []
  | r :: earlier =>
    match r.fact with
    | .began q => if q = p then [] else commitsSince p earlier
    | .committed q => ⟨q, recorded q earlier⟩ :: commitsSince p earlier
    | _ => commitsSince p earlier

/-- Whether a transaction began. -/
def Began (p : Nat) (log : Log) : Prop := ∃ r ∈ log, r.fact = .began p

/-- Whether a transaction committed. -/
def Committed (p : Nat) (log : Log) : Prop := ∃ r ∈ log, r.fact = .committed p

/-- Whether each reply fits those before it: a begin hands out a write pointer beyond those before; what
has committed announces nothing more; a commit follows the begin, is the only one of its transaction, and
no commit in between changed a row that it changed too. -/
def Orderly : Log → Prop
  | [] => True
  | r :: earlier =>
    Orderly earlier ∧
      match r.fact with
      | .began p => ∀ q, Began q earlier → q < p
      | .announced p _ => ¬ Committed p earlier
      | .committed p => Began p earlier ∧ ¬ Committed p earlier ∧
          ∀ c ∈ commitsSince p earlier, c.changes.meets (recorded p earlier) = false
      | .nothing => True

variable {r : Reply} {log : Log} {p q : Nat} {changes : ChangeSet}

@[simp] theorem began_cons : Began p (r :: log) ↔ r.fact = .began p ∨ Began p log := by
  simp [Began]

@[simp] theorem committed_cons : Committed p (r :: log) ↔ r.fact = .committed p ∨ Committed p log := by
  simp [Committed]

theorem recorded_cons_announced (h : r.fact = .announced q changes) :
    recorded p (r :: log) = if q = p then changes else recorded p log := by
  simp [recorded, h]

theorem recorded_cons_of_ne (h : ∀ changes, r.fact ≠ .announced p changes) :
    recorded p (r :: log) = recorded p log := by
  rw [recorded]
  split
  · rename_i q changes hr
    rw [if_neg]
    rintro rfl
    exact h changes hr
  · rfl

theorem commitsSince_cons_began (h : r.fact = .began q) :
    commitsSince p (r :: log) = if q = p then [] else commitsSince p log := by
  simp [commitsSince, h]

theorem commitsSince_cons_committed (h : r.fact = .committed q) :
    commitsSince p (r :: log) = ⟨q, recorded q log⟩ :: commitsSince p log := by
  simp [commitsSince, h]

/-- A commit is among those since a transaction began if it comes after the begin. -/
theorem mem_commitsSince {between earlier : Log} (hr : r.fact = .committed q)
    (hbetween : ¬ Began p between) :
    ⟨q, recorded q earlier⟩ ∈ commitsSince p (between ++ r :: earlier) := by
  induction between with
  | nil => simp [commitsSince_cons_committed hr]
  | cons b between ih =>
    rw [began_cons, not_or] at hbetween
    have hmem := ih hbetween.2
    rw [List.cons_append, commitsSince]
    split
    · rename_i p' hb
      have hne : p' ≠ p := fun h => hbetween.1 (h ▸ hb)
      rwa [if_neg hne]
    · exact List.mem_cons_of_mem _ hmem
    · exact hmem

theorem Orderly.of_append {later : Log} (h : Orderly (later ++ log)) : Orderly log := by
  induction later with
  | nil => exact h
  | cons r later ih => exact ih h.1

/-- A transaction begins at most once. -/
theorem Orderly.not_began {later earlier : Log} (h : Orderly (later ++ earlier))
    (hp : Began p earlier) : ¬ Began p later := by
  induction later with
  | nil => simp [Began]
  | cons r later ih =>
    rw [began_cons, not_or]
    refine ⟨fun hr => ?_, ih h.1⟩
    have hnew := h.2
    rw [hr] at hnew
    obtain ⟨r', hmem, hr'⟩ := hp
    exact Nat.lt_irrefl p (hnew p ⟨r', List.mem_append_right _ hmem, hr'⟩)

end Log

/-! ### Ways of forgetting -/

section Forgetting

variable (forget : Coordinator → Coordinator) (s : Coordinator) (now : Nat)

/-- Ends a transaction and forgets. -/
def finishBy (writePointer : Nat) : Coordinator :=
  forget
    { s with
      inProgress := s.inProgress.erase writePointer
      announced := s.announced.erase writePointer }

/-- Ends a transaction whose writes are never to be seen, and forgets. -/
def invalidateBy (writePointer : Nat) : Coordinator :=
  let ended := s.finishBy forget writePointer
  { ended with invalid := ended.invalid.insert writePointer }

/-- Invalidates the transactions that have been in progress for too long. -/
def expireBy : Coordinator := (s.overdue now).foldl (invalidateBy forget) s

/-- Starts a transaction. -/
def beginBy : Transaction × Coordinator :=
  let s := s.expireBy forget now
  let pointer := s.nextPointer
  ({ writePointer := pointer, readLimit := some (pointer - 1), excluded := s.hidden },
    { s with nextPointer := pointer + 1, inProgress := s.inProgress.insert pointer now })

/-- Commits a transaction, unless there is a conflict, and forgets. -/
def commitBy (writePointer : Nat) : Except StoreError (Bool × Coordinator) :=
  if writePointer ∉ s.inProgress then .error (notInProgress writePointer)
  else
    let changes := s.announced.getD writePointer ∅
    if s.hasConflict writePointer changes then .ok (false, s)
    else .ok (true, (s.remember changes).finishBy forget writePointer)

/-- The effect of a call on a coordinator that forgets in the given way. -/
def performBy : (call : CoordinatorCall) → Except StoreError (call.Answer × Coordinator)
  | .connect => s.connect
  | .begin session => s.onSession session (.ok (s.beginBy forget now))
  | .canCommit session tx changes => s.onSession session (s.canCommit tx.writePointer changes)
  | .commit session tx => s.onSession session (s.commitBy forget tx.writePointer)
  | .abort session tx => s.onSession session (.ok ((), s.finishBy forget tx.writePointer))
  | .invalidate session tx =>
    s.onSession session
      (.ok (decide (tx.writePointer ∈ s.inProgress), s.invalidateBy forget tx.writePointer))

theorem performBy_prune (call : CoordinatorCall) : s.performBy prune now call = s.perform now call := by
  cases call <;> rfl

/-- The answer to a call, and the state after it: a call that fails changes nothing. -/
def respondBy (call : CoordinatorCall) : Except StoreError call.Answer × Coordinator :=
  match s.performBy forget now call with
  | .ok (answer, s') => (.ok answer, s')
  | .error e => (.error e, s)

/-- The answer to a call, and the state after it. -/
def respond (call : CoordinatorCall) : Except StoreError call.Answer × Coordinator :=
  match s.perform now call with
  | .ok (answer, s') => (.ok answer, s')
  | .error e => (.error e, s)

theorem respondBy_prune (call : CoordinatorCall) : s.respondBy prune now call = s.respond now call := by
  rw [respondBy, performBy_prune, respond]

variable {s}

/-- Nothing is done while the coordinator cannot be reached. -/
theorem respondBy_unavailable (h : s.available = false) (call : CoordinatorCall) :
    ∃ reason, s.respondBy forget now call = (.error (.coordinator reason), s) := by
  cases call <;> simp [respondBy, performBy, connect, onSession, h]

variable (h : s.available = true) (session : Nat) (tx : Transaction)

include h

theorem respondBy_connect :
    s.respondBy forget now .connect = (.ok (s.sessions + 1), { s with sessions := s.sessions + 1 }) := by
  simp [respondBy, performBy, connect, h]

theorem respondBy_begin :
    s.respondBy forget now (.begin session) =
      (.ok (s.beginBy forget now).1, (s.beginBy forget now).2) := by
  simp [respondBy, performBy, onSession, h]

theorem respondBy_canCommit (changes : ChangeSet) :
    s.respondBy forget now (.canCommit session tx changes) =
      if tx.writePointer ∉ s.inProgress then (.error (notInProgress tx.writePointer), s)
      else if s.hasConflict tx.writePointer changes then (.ok false, s)
      else (.ok true, { s with announced := s.announced.insert tx.writePointer changes }) := by
  by_cases hopen : tx.writePointer ∈ s.inProgress
  · by_cases hconflict : s.hasConflict tx.writePointer changes <;>
      simp [respondBy, performBy, onSession, canCommit, h, hopen, hconflict]
  · simp [respondBy, performBy, onSession, canCommit, h, hopen]

theorem respondBy_commit :
    s.respondBy forget now (.commit session tx) =
      if tx.writePointer ∉ s.inProgress then (.error (notInProgress tx.writePointer), s)
      else if s.hasConflict tx.writePointer (s.announced.getD tx.writePointer ∅) then (.ok false, s)
      else
        (.ok true,
          (s.remember (s.announced.getD tx.writePointer ∅)).finishBy forget tx.writePointer) := by
  by_cases hopen : tx.writePointer ∈ s.inProgress
  · by_cases hconflict : s.hasConflict tx.writePointer (s.announced.getD tx.writePointer ∅) <;>
      simp [respondBy, performBy, onSession, commitBy, h, hopen, hconflict]
  · simp [respondBy, performBy, onSession, commitBy, h, hopen]

theorem respondBy_abort :
    s.respondBy forget now (.abort session tx) = (.ok (), s.finishBy forget tx.writePointer) := by
  simp [respondBy, performBy, onSession, h]

theorem respondBy_invalidate :
    s.respondBy forget now (.invalidate session tx) =
      (.ok (decide (tx.writePointer ∈ s.inProgress)), s.invalidateBy forget tx.writePointer) := by
  simp [respondBy, performBy, onSession, h]

end Forgetting

/-- A way of forgetting that touches nothing but the changes of commits, and loses no conflict of a
transaction in progress. -/
structure Forgets (forget : Coordinator → Coordinator) : Prop where
  frame : ∀ s, ∃ kept, forget s = { s with committed := kept }
  fewer : ∀ s c, c ∈ (forget s).committed → c ∈ s.committed
  same : ∀ {s p changes}, p ∈ s.inProgress →
    (forget s).hasConflict p changes = s.hasConflict p changes

theorem forgets_prune : Forgets prune :=
  ⟨prune_eq, fun s _ h => mem_committed_of_mem_prune s h, fun h => hasConflict_prune _ _ h⟩

theorem forgets_id : Forgets id := ⟨fun s => ⟨s.committed, rfl⟩, fun _ _ h => h, fun _ => rfl⟩

/-- How the state of a coordinator depends on what it answered. -/
structure Tracks (s : Coordinator) (log : Log) : Prop where
  open_lt : ∀ {p}, p ∈ s.inProgress → p < s.nextPointer
  committed_lt : ∀ {c}, c ∈ s.committed → c < s.nextPointer
  announced_open : ∀ {p}, p ∈ s.announced → p ∈ s.inProgress
  began : ∀ {p}, p ∈ s.inProgress → log.Began p
  began_lt : ∀ {p}, log.Began p → p < s.nextPointer
  recorded : ∀ {p}, p ∈ s.inProgress → s.announced.getD p ∅ = log.recorded p
  unrecorded : ∀ {p}, s.nextPointer ≤ p → log.recorded p = ∅
  conflict : ∀ {p}, p ∈ s.inProgress → ∀ changes, s.hasConflict p changes = true ↔
    ∃ c ∈ log.commitsSince p, c.changes.meets changes = true
  ended : ∀ {p}, log.Committed p → p < s.nextPointer ∧ p ∉ s.inProgress
  orderly : log.Orderly

namespace Tracks

variable {forget : Coordinator → Coordinator} {s : Coordinator} {log : Log} {p now : Nat}

theorem cons_nothing (h : Tracks s log) {r : Reply} (hr : r.fact = .nothing) : Tracks s (r :: log) where
  open_lt := h.open_lt
  committed_lt := h.committed_lt
  announced_open := h.announced_open
  began hp := Log.began_cons.2 (.inr (h.began hp))
  began_lt hp := h.began_lt (by simpa [hr] using hp)
  recorded hp := by simpa [Log.recorded, hr] using h.recorded hp
  unrecorded hp := by simpa [Log.recorded, hr] using h.unrecorded hp
  conflict hp := by simpa [Log.commitsSince, hr] using h.conflict hp
  ended hp := h.ended (by simpa [hr] using hp)
  orderly := ⟨h.orderly, by simp [hr]⟩

/-- Forgetting keeps the relation. -/
theorem forgotten (hf : Forgets forget) (h : Tracks s log) : Tracks (forget s) log := by
  obtain ⟨kept, hkept⟩ := hf.frame s
  have hfewer := hf.fewer s
  have hsame : ∀ {p changes}, p ∈ s.inProgress →
      (forget s).hasConflict p changes = s.hasConflict p changes := hf.same
  rw [hkept] at hfewer hsame ⊢
  constructor
  case open_lt => exact h.open_lt
  case committed_lt => intro c hc; exact h.committed_lt (hfewer c hc)
  case announced_open => exact h.announced_open
  case began => exact h.began
  case began_lt => exact h.began_lt
  case recorded => exact h.recorded
  case unrecorded => exact h.unrecorded
  case conflict => intro p hp changes; rw [hsame hp]; exact h.conflict hp changes
  case ended => exact h.ended
  case orderly => exact h.orderly

/-- Ending a transaction keeps the relation. -/
theorem finished (h : Tracks s log) (p : Nat) : Tracks (s.finishBy id p) log where
  open_lt hq := h.open_lt (Std.ExtTreeMap.mem_of_mem_erase hq)
  committed_lt := h.committed_lt
  announced_open hq :=
    have hq := Std.ExtTreeMap.mem_erase.1 hq
    Std.ExtTreeMap.mem_erase.2 ⟨hq.1, h.announced_open hq.2⟩
  began hq := h.began (Std.ExtTreeMap.mem_of_mem_erase hq)
  began_lt := h.began_lt
  recorded hq := by
    have hne := (Std.ExtTreeMap.mem_erase.1 hq).1
    simp only [finishBy, id, Std.ExtTreeMap.getD_erase, if_neg hne]
    exact h.recorded (Std.ExtTreeMap.mem_of_mem_erase hq)
  unrecorded := h.unrecorded
  conflict hq := h.conflict (Std.ExtTreeMap.mem_of_mem_erase hq)
  ended hq :=
    ⟨(h.ended hq).1, fun hmem => (h.ended hq).2 (Std.ExtTreeMap.mem_of_mem_erase hmem)⟩
  orderly := h.orderly

theorem finish (hf : Forgets forget) (h : Tracks s log) (p : Nat) :
    Tracks (s.finishBy forget p) log :=
  (h.finished p).forgotten hf

/-- Which versions are invalid, who has connected and whether the coordinator can be reached does not
matter to conflicts. -/
theorem untouched (h : Tracks s log) (invalid : Std.ExtTreeSet Nat) (sessions : Nat)
    (available : Bool) : Tracks { s with invalid, sessions, available } log where
  open_lt := h.open_lt
  committed_lt := h.committed_lt
  announced_open := h.announced_open
  began := h.began
  began_lt := h.began_lt
  recorded := h.recorded
  unrecorded := h.unrecorded
  conflict := h.conflict
  ended := h.ended
  orderly := h.orderly

theorem reach (h : Tracks s log) (available : Bool) : Tracks { s with available } log :=
  h.untouched s.invalid s.sessions available

theorem invalidate (hf : Forgets forget) (h : Tracks s log) (p : Nat) :
    Tracks (s.invalidateBy forget p) log :=
  (h.finish hf p).untouched _ _ _

theorem expire (hf : Forgets forget) (h : Tracks s log) (now : Nat) :
    Tracks (s.expireBy forget now) log := by
  unfold expireBy
  generalize s.overdue now = ps
  induction ps generalizing s with
  | nil => exact h
  | cons p ps ih => exact ih (h.invalidate hf p)

/-- A transaction that begins gets a pointer beyond every pointer of the log. -/
theorem opened (h : Tracks s log) {r : Reply} (hr : r.fact = .began s.nextPointer) (now : Nat) :
    Tracks
      { s with
        nextPointer := s.nextPointer + 1
        inProgress := s.inProgress.insert s.nextPointer now } (r :: log) := by
  have hfresh : ∀ {p}, p ∈ s.inProgress → s.nextPointer ≠ p := by
    intro p hp heq
    have := h.open_lt hp
    omega
  have hopen : ∀ {p}, p ∈ s.inProgress.insert s.nextPointer now →
      s.nextPointer = p ∨ p ∈ s.inProgress := by
    intro p hp
    simpa using hp
  constructor
  case open_lt =>
    intro p hp
    rcases hopen hp with hp | hp
    · exact hp ▸ Nat.lt_succ_self _
    · exact Nat.lt_succ_of_lt (h.open_lt hp)
  case committed_lt => intro c hc; exact Nat.lt_succ_of_lt (h.committed_lt hc)
  case announced_open => intro p hp; simpa using .inr (h.announced_open hp)
  case began =>
    intro p hp
    rcases hopen hp with hp | hp
    · exact Log.began_cons.2 (.inl (hp ▸ hr))
    · exact Log.began_cons.2 (.inr (h.began hp))
  case began_lt =>
    intro p hp
    rcases Log.began_cons.1 hp with hp | hp
    · rw [hr] at hp
      injection hp with hp
      exact hp ▸ Nat.lt_succ_self _
    · exact Nat.lt_succ_of_lt (h.began_lt hp)
  case recorded =>
    intro p hp
    simp only [Log.recorded, hr]
    rcases hopen hp with hp | hp
    · have hnone : p ∉ s.announced := fun hmem => hfresh (h.announced_open hmem) hp
      rw [Std.ExtTreeMap.getD_eq_fallback hnone, h.unrecorded (Nat.le_of_eq hp)]
    · exact h.recorded hp
  case unrecorded =>
    intro p hp
    simp only [Log.recorded, hr]
    exact h.unrecorded (Nat.le_of_succ_le hp)
  case conflict =>
    intro p hp changes
    by_cases hnew : s.nextPointer = p
    · -- nothing has been committed under a pointer that is still to be handed out
      rw [Log.commitsSince_cons_began hr, if_pos hnew, hasConflict_eq_true_iff]
      constructor
      · rintro ⟨c, past, hc, hpc, -⟩
        have := h.committed_lt (Std.ExtTreeMap.mem_iff_isSome_getElem?.2 (by rw [hc]; rfl))
        omega
      · simp
    · rw [Log.commitsSince_cons_began hr, if_neg hnew]
      exact h.conflict ((hopen hp).resolve_left hnew) changes
  case ended =>
    intro p hp
    obtain ⟨hlt, hnot⟩ := h.ended (by simpa [hr] using hp)
    refine ⟨Nat.lt_succ_of_lt hlt, fun hmem => ?_⟩
    rcases hopen hmem with hmem | hmem
    · omega
    · exact hnot hmem
  case orderly =>
    refine ⟨h.orderly, ?_⟩
    rw [hr]
    exact fun q hq => h.began_lt hq

theorem begin (hf : Forgets forget) (h : Tracks s log) {r : Reply}
    (hr : r.fact = .began (s.beginBy forget now).1.writePointer) :
    Tracks (s.beginBy forget now).2 (r :: log) :=
  (h.expire hf now).opened hr now

/-- An accepted announcement replaces the one before. -/
theorem announced (h : Tracks s log) {r : Reply} {changes : ChangeSet} (hp : p ∈ s.inProgress)
    (hr : r.fact = .announced p changes) :
    Tracks { s with announced := s.announced.insert p changes } (r :: log) where
  open_lt := h.open_lt
  committed_lt := h.committed_lt
  announced_open := by
    intro q hq
    rcases Std.ExtTreeMap.mem_insert.1 hq with hq | hq
    · have hq : p = q := by simpa using hq
      exact hq ▸ hp
    · exact h.announced_open hq
  began hq := Log.began_cons.2 (.inr (h.began hq))
  began_lt hq := h.began_lt (by simpa [hr] using hq)
  recorded := by
    intro q hq
    rw [Log.recorded_cons_announced hr, Std.ExtTreeMap.getD_insert, h.recorded hq]
    simp
  unrecorded := by
    intro q hq
    have hne : p ≠ q := fun heq => absurd (h.open_lt hp) (by simp at hq; omega)
    rw [Log.recorded_cons_announced hr, if_neg hne]
    exact h.unrecorded hq
  conflict := by
    intro q hq
    simp only [Log.commitsSince, hr]
    exact h.conflict hq
  ended hq := h.ended (by simpa [hr] using hq)
  orderly := ⟨h.orderly, by rw [hr]; exact fun hcommitted => (h.ended hcommitted).2 hp⟩

/-- What a commit adds to the conflicts of the others. -/
theorem hasConflict_remember (h : Tracks s log) {changes others : ChangeSet} (hp : p < s.nextPointer) :
    (s.remember changes).hasConflict p others = true ↔
      changes.meets others = true ∨ s.hasConflict p others = true := by
  have hnone : s.committed[s.nextPointer]? = none :=
    Std.ExtTreeMap.getElem?_eq_none fun hmem => Nat.lt_irrefl _ (h.committed_lt hmem)
  rw [hasConflict_eq_true_iff, hasConflict_eq_true_iff]
  by_cases hempty : changes.isEmpty
  · have hmeets : changes.meets others = false := by
      rw [Std.ExtTreeSet.isEmpty_iff.1 hempty]
      rfl
    simp [remember, hempty, hmeets]
  · simp only [remember, if_neg hempty, Std.ExtTreeMap.getElem?_insert]
    constructor
    · rintro ⟨c, past, hc, hpc, hmeets⟩
      split at hc
      · cases hc
        exact .inl hmeets
      · exact .inr ⟨c, past, hc, hpc, hmeets⟩
    · rintro (hmeets | ⟨c, past, hc, hpc, hmeets⟩)
      · exact ⟨s.nextPointer, changes, by simp, hp, hmeets⟩
      · have hne : s.nextPointer ≠ c := by
          rintro rfl
          rw [hnone] at hc
          cases hc
        exact ⟨c, past, by simp [hne, hc], hpc, hmeets⟩

/-- A commit of a transaction that has just ended counts from now on for all that are in progress. -/
theorem remembered (h : Tracks s log) {r : Reply} (hr : r.fact = .committed p)
    (hbegan : log.Began p) (hended : p ∉ s.inProgress) (honce : ¬ log.Committed p)
    (hclear : ∀ c ∈ log.commitsSince p, c.changes.meets (log.recorded p) = false) :
    Tracks (s.remember (log.recorded p)) (r :: log) where
  open_lt hq := Nat.lt_succ_of_lt (h.open_lt hq)
  committed_lt := by
    intro c hc
    simp only [remember] at hc
    split at hc
    · exact Nat.lt_succ_of_lt (h.committed_lt hc)
    · rcases Std.ExtTreeMap.mem_insert.1 hc with hc | hc
      · have hc : s.nextPointer = c := by simpa using hc
        exact hc ▸ Nat.lt_succ_self _
      · exact Nat.lt_succ_of_lt (h.committed_lt hc)
  announced_open := h.announced_open
  began hq := Log.began_cons.2 (.inr (h.began hq))
  began_lt hq := Nat.lt_succ_of_lt (h.began_lt (by simpa [hr] using hq))
  recorded hq := by
    simp only [Log.recorded, hr]
    exact h.recorded hq
  unrecorded hq := by
    simp only [Log.recorded, hr]
    exact h.unrecorded (Nat.le_of_succ_le hq)
  conflict hq changes := by
    rw [Log.commitsSince_cons_committed hr, h.hasConflict_remember (h.open_lt hq),
      h.conflict hq changes]
    simp
  ended := by
    intro q hq
    rw [Log.committed_cons, hr] at hq
    rcases hq with hq | hq
    · injection hq with hq
      subst hq
      exact ⟨Nat.lt_succ_of_lt (h.began_lt hbegan), hended⟩
    · exact ⟨Nat.lt_succ_of_lt (h.ended hq).1, (h.ended hq).2⟩
  orderly := ⟨h.orderly, by rw [hr]; exact ⟨hbegan, honce, hclear⟩⟩

theorem committed (hf : Forgets forget) (h : Tracks s log) {r : Reply} (hp : p ∈ s.inProgress)
    (hr : r.fact = .committed p) (hnone : s.hasConflict p (s.announced.getD p ∅) = false) :
    Tracks ((s.remember (s.announced.getD p ∅)).finishBy forget p) (r :: log) := by
  rw [h.recorded hp] at hnone ⊢
  have hclear : ∀ c ∈ log.commitsSince p, c.changes.meets (log.recorded p) = false := by
    intro c hc
    refine Bool.eq_false_iff.2 fun hmeets => ?_
    have := (h.conflict hp (log.recorded p)).2 ⟨c, hc, hmeets⟩
    rw [hnone] at this
    cases this
  have honce : ¬ log.Committed p := fun hc => (h.ended hc).2 hp
  have hended : p ∉ (s.finishBy id p).inProgress := by simp [finishBy]
  exact ((h.finished p).remembered hr (h.began hp) hended honce hclear).forgotten hf

/-- Every call keeps the relation to the log. -/
theorem respond (hf : Forgets forget) (h : Tracks s log) (now : Nat) (call : CoordinatorCall) :
    Tracks (s.respondBy forget now call).2 (⟨call, (s.respondBy forget now call).1⟩ :: log) := by
  by_cases havailable : s.available = true
  case neg =>
    obtain ⟨reason, he⟩ := respondBy_unavailable forget now (by simpa using havailable) call
    rw [he]
    exact h.cons_nothing (by cases call <;> rfl)
  case pos =>
    cases call with
    | connect =>
      rw [respondBy_connect forget now havailable]
      exact (h.untouched _ _ _).cons_nothing rfl
    | begin session =>
      rw [respondBy_begin forget now havailable]
      exact h.begin hf rfl
    | canCommit session tx changes =>
      rw [respondBy_canCommit forget now havailable]
      split
      · exact h.cons_nothing rfl
      · rename_i hopen
        split
        · exact h.cons_nothing rfl
        · exact h.announced (Classical.not_not.1 hopen) rfl
    | commit session tx =>
      rw [respondBy_commit forget now havailable]
      split
      · exact h.cons_nothing rfl
      · rename_i hopen
        split
        · exact h.cons_nothing rfl
        · rename_i hclear
          exact h.committed hf (Classical.not_not.1 hopen) rfl (by simpa using hclear)
    | abort session tx =>
      rw [respondBy_abort forget now havailable]
      exact (h.finish hf _).cons_nothing rfl
    | invalidate session tx =>
      rw [respondBy_invalidate forget now havailable]
      exact (h.invalidate hf _).cons_nothing rfl

end Tracks

end Tabular.Coordinator
