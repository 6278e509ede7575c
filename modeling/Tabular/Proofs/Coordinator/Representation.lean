import Mathlib.Data.List.Nodup
import Tabular.Proofs.Coordinator.Timeline

/-!
# Tabular.Proofs.Coordinator.Representation — what always holds of the state of a coordinator

`issued` lists the pointers that a run has drawn from the counter, each for a transaction that began or for one
that committed.  `Represents` is the representation invariant of a state with the pointers issued so far, with
one rule for each step; `Represents.play` carries it through whole runs on transactions that had begun.  Main
statement: `representation_kept`.
-/

namespace Tabular.Coordinator

/-! ### Pointers -/

/-- A pointer from the counter: the write pointer of a transaction that began, or the commit pointer of one that
committed. -/
inductive Pointer where
  | write (p : Nat)
  | commit (p : Nat)

/-- The number that was drawn. -/
def Pointer.number : Pointer → Nat
  | write p | commit p => p

/-- The pointer that a state issues with a reply, if any. -/
def issuedBy (s : Coordinator) (r : Reply) : List Pointer :=
  match r.fact with
  | .began p => [.write p]
  | .committed _ => [.commit s.nextPointer]
  | _ => []

/-- The pointers that a run has issued, the latest first. -/
def issued (s : Coordinator) : List Occurrence → List Pointer
  | [] => []
  | .call now call :: earlier =>
    let before := (play s earlier).state
    before.issuedBy ⟨call, (before.respond now call).1⟩ ++ issued s earlier
  | .reach _ :: earlier => issued s earlier

theorem write_mem_issued {s : Coordinator} {events : List Occurrence} {p : Nat} :
    .write p ∈ issued s events ↔ (play s events).log.Began p := by
  induction events with
  | nil => simp [issued, play, Log.Began]
  | cons e earlier ih =>
    cases e with
    | reach available => exact ih
    | call now call =>
      rw [issued, List.mem_append, ih, play, Log.began_cons]
      refine or_congr_left ?_
      rw [issuedBy]
      split
      · rename_i q hq
        simp [hq, eq_comm]
      · rename_i q hq
        simp [hq]
      · rename_i hbegan _
        simpa using hbegan p

/-! ### What is forgotten -/

theorem exists_le_of_mem_prune {s : Coordinator} {c : Nat} (hc : c ∈ s.prune.committed) :
    ∃ p, p ∈ s.inProgress ∧ p ≤ c := by
  unfold prune at hc
  cases hmin : s.inProgress.minKey? with
  | some oldest =>
    simp only [hmin, Std.ExtTreeMap.mem_filter] at hc
    obtain ⟨hmem, hle⟩ := hc
    exact ⟨oldest, Std.ExtTreeMap.minKey?_mem hmin, by simpa using hle⟩
  | none => simp [hmin] at hc

theorem getElem?_committed_of_prune {s : Coordinator} {c : Nat} {changes : ChangeSet}
    (hc : s.prune.committed[c]? = some changes) : s.committed[c]? = some changes := by
  unfold prune at hc
  cases hmin : s.inProgress.minKey? with
  | some oldest =>
    simp only [hmin, Std.ExtTreeMap.getElem?_filter', Option.filter_eq_some_iff] at hc
    exact hc.1
  | none => simp [hmin] at hc

/-! ### The invariant -/

/-- What holds of the state of a coordinator that has issued the given pointers, the latest first. -/
structure Represents (s : Coordinator) (pointers : List Pointer) : Prop where
  opened : ∀ {p}, p ∈ s.inProgress → .write p ∈ pointers
  condemned : ∀ {p}, p ∈ s.invalid → .write p ∈ pointers
  committed : ∀ {c}, c ∈ s.committed → .commit c ∈ pointers
  below : ∀ {i}, i ∈ pointers → i.number < s.nextPointer
  descending : pointers.Pairwise fun later earlier => earlier.number < later.number
  apart : ∀ {p}, p ∈ s.inProgress → p ∉ s.invalid
  announced : ∀ {p}, p ∈ s.announced → p ∈ s.inProgress
  /-- A commit is remembered for a transaction in progress that began before it. -/
  older : ∀ {c}, c ∈ s.committed → ∃ p, p ∈ s.inProgress ∧ p < c
  changed : ∀ {c : Nat} {changes : ChangeSet}, s.committed[c]? = some changes → changes.isEmpty = false

namespace Represents

variable {s : Coordinator} {pointers : List Pointer} {p c now : Nat}

theorem fresh (timeoutMs : Nat) : Represents { timeoutMs } [] where
  opened hp := by simp at hp
  condemned hp := by simp at hp
  committed hc := by simp at hc
  below := nofun
  descending := List.Pairwise.nil
  apart hp := by simp at hp
  announced hp := by simp at hp
  older hc := by simp at hc
  changed hc := by simp at hc

/-- No pointer is issued twice. -/
theorem number_ne (h : Represents s pointers) (hwrite : .write p ∈ pointers) (hcommit : .commit c ∈ pointers) :
    p ≠ c := by
  rintro rfl
  have hnodup : (pointers.map Pointer.number).Nodup := List.pairwise_map.2 (h.descending.imp Nat.ne_of_gt)
  cases List.inj_on_of_nodup_map hnodup hwrite hcommit rfl

/-- Who has connected and whether the coordinator can be reached does not matter. -/
theorem reach (h : Represents s pointers) (sessions : Nat) (available : Bool) :
    Represents { s with sessions, available } pointers where
  opened := h.opened
  condemned := h.condemned
  committed := h.committed
  below := h.below
  descending := h.descending
  apart := h.apart
  announced := h.announced
  older := h.older
  changed := h.changed

theorem finish (h : Represents s pointers) (p : Nat) : Represents (s.finish p) pointers := by
  have hopen : ∀ {q}, q ∈ (s.finish p).inProgress → q ∈ s.inProgress := by
    intro q hq
    rw [finish_inProgress] at hq
    exact Std.ExtTreeMap.mem_of_mem_erase hq
  have hcommitted : ∀ {c}, c ∈ (s.finish p).committed → c ∈ s.committed := mem_committed_of_mem_prune _
  constructor
  case opened => exact fun hq => h.opened (hopen hq)
  case condemned =>
    intro q hq
    rw [finish_invalid] at hq
    exact h.condemned hq
  case committed => exact fun hc => h.committed (hcommitted hc)
  case below =>
    intro i hi
    rw [finish_nextPointer]
    exact h.below hi
  case descending => exact h.descending
  case apart =>
    intro q hq
    rw [finish_invalid]
    exact h.apart (hopen hq)
  case announced =>
    intro q hq
    rw [finish_announced, Std.ExtTreeMap.mem_erase] at hq
    rw [finish_inProgress, Std.ExtTreeMap.mem_erase]
    exact ⟨hq.1, h.announced hq.2⟩
  case older =>
    -- what is kept is not older than the oldest one in progress, and is no write pointer
    intro c hc
    obtain ⟨q, hq, hle⟩ := exists_le_of_mem_prune hc
    have hq' : q ∈ (s.finish p).inProgress := by simpa using hq
    have hne := h.number_ne (h.opened (hopen hq')) (h.committed (hcommitted hc))
    exact ⟨q, hq', Nat.lt_of_le_of_ne hle hne⟩
  case changed =>
    intro c changes hc
    rw [Coordinator.finish] at hc
    have hkept := getElem?_committed_of_prune hc
    exact h.changed hkept

theorem invalidate (h : Represents s pointers) (hp : .write p ∈ pointers) :
    Represents (s.invalidate p) pointers := by
  have hended := h.finish p
  constructor
  case opened => exact hended.opened
  case condemned =>
    intro q hq
    rw [invalidate_invalid, Std.ExtTreeSet.mem_insert] at hq
    rcases hq with hq | hq
    · rwa [← Std.compare_eq_iff_eq.1 hq]
    · exact h.condemned hq
  case committed => exact hended.committed
  case below => exact hended.below
  case descending => exact h.descending
  case apart =>
    intro q hq
    rw [invalidate_inProgress, Std.ExtTreeMap.mem_erase] at hq
    rw [invalidate_invalid, Std.ExtTreeSet.mem_insert, not_or]
    exact ⟨hq.1, h.apart hq.2⟩
  case announced => exact hended.announced
  case older => exact hended.older
  case changed => exact hended.changed

theorem expire (h : Represents s pointers) (now : Nat) : Represents (s.expire now) pointers := by
  rw [Coordinator.expire]
  have hopen : ∀ q ∈ s.overdue now, .write q ∈ pointers := fun q hq => h.opened (s.mem_inProgress_of_mem_overdue hq)
  revert hopen
  generalize s.overdue now = ps
  induction ps generalizing s with
  | nil => exact fun _ => h
  | cons p ps ih =>
    intro hopen
    obtain ⟨hp, hps⟩ := List.forall_mem_cons.1 hopen
    exact ih (h.invalidate hp) hps

/-- A transaction that begins gets a pointer that was not issued before. -/
theorem opening (h : Represents s pointers) (now : Nat) :
    Represents
      { s with
        nextPointer := s.nextPointer + 1
        inProgress := s.inProgress.insert s.nextPointer now } (.write s.nextPointer :: pointers) := by
  have hopen : ∀ {q}, q ∈ s.inProgress.insert s.nextPointer now ↔ s.nextPointer = q ∨ q ∈ s.inProgress := by
    intro q
    simp
  constructor
  case opened =>
    intro q hq
    rcases hopen.1 hq with rfl | hq
    · exact List.mem_cons_self
    · exact List.mem_cons_of_mem _ (h.opened hq)
  case condemned => exact fun hq => List.mem_cons_of_mem _ (h.condemned hq)
  case committed => exact fun hc => List.mem_cons_of_mem _ (h.committed hc)
  case below =>
    intro i hi
    rcases List.mem_cons.1 hi with rfl | hi
    · exact Nat.lt_succ_self _
    · exact Nat.lt_succ_of_lt (h.below hi)
  case descending => exact List.pairwise_cons.2 ⟨fun i hi => h.below hi, h.descending⟩
  case apart =>
    intro q hq hinvalid
    rcases hopen.1 hq with rfl | hq
    · exact Nat.lt_irrefl _ (h.below (h.condemned hinvalid))
    · exact h.apart hq hinvalid
  case announced => exact fun hq => hopen.2 (.inr (h.announced hq))
  case older =>
    intro c hc
    obtain ⟨q, hq, hlt⟩ := h.older hc
    exact ⟨q, hopen.2 (.inr hq), hlt⟩
  case changed => exact h.changed

theorem begin (h : Represents s pointers) (now : Nat) :
    Represents (s.begin now).2 (.write (s.begin now).1.writePointer :: pointers) :=
  (h.expire now).opening now

theorem announcing (h : Represents s pointers) (hp : p ∈ s.inProgress) (changes : ChangeSet) :
    Represents { s with announced := s.announced.insert p changes } pointers where
  opened := h.opened
  condemned := h.condemned
  committed := h.committed
  below := h.below
  descending := h.descending
  apart := h.apart
  announced := by
    intro q hq
    rcases Std.ExtTreeMap.mem_insert.1 hq with hq | hq
    · rwa [← Std.compare_eq_iff_eq.1 hq]
    · exact h.announced hq
  older := h.older
  changed := h.changed

/-- What a transaction in progress commits is remembered under a pointer beyond its own. -/
theorem remember (h : Represents s pointers) (hp : p ∈ s.inProgress) (changes : ChangeSet) :
    Represents (s.remember changes) (.commit s.nextPointer :: pointers) := by
  have hcommitted : ∀ {c : Nat} {past : ChangeSet}, (s.remember changes).committed[c]? = some past →
      (c = s.nextPointer ∧ past = changes ∧ changes.isEmpty = false) ∨ s.committed[c]? = some past := by
    intro c past hc
    simp only [Coordinator.remember] at hc
    split at hc
    · exact .inr hc
    · rename_i hempty
      rw [Std.ExtTreeMap.getElem?_insert] at hc
      split at hc
      · rename_i heq
        exact .inl ⟨(Std.compare_eq_iff_eq.1 heq).symm, (Option.some.inj hc).symm, by simpa using hempty⟩
      · exact .inr hc
  have hmem : ∀ {c}, c ∈ (s.remember changes).committed → c = s.nextPointer ∨ c ∈ s.committed := by
    intro c hc
    obtain ⟨past, hpast⟩ := Option.isSome_iff_exists.1 (Std.ExtTreeMap.mem_iff_isSome_getElem?.1 hc)
    rcases hcommitted hpast with ⟨rfl, -⟩ | hpast
    · exact .inl rfl
    · exact .inr (Std.ExtTreeMap.mem_iff_isSome_getElem?.2 (by rw [hpast]; rfl))
  constructor
  case opened => exact fun hq => List.mem_cons_of_mem _ (h.opened hq)
  case condemned => exact fun hq => List.mem_cons_of_mem _ (h.condemned hq)
  case committed =>
    intro c hc
    rcases hmem hc with rfl | hc
    · exact List.mem_cons_self
    · exact List.mem_cons_of_mem _ (h.committed hc)
  case below =>
    intro i hi
    rcases List.mem_cons.1 hi with rfl | hi
    · exact Nat.lt_succ_self _
    · exact Nat.lt_succ_of_lt (h.below hi)
  case descending => exact List.pairwise_cons.2 ⟨fun i hi => h.below hi, h.descending⟩
  case apart => exact h.apart
  case announced => exact h.announced
  case older =>
    intro c hc
    rcases hmem hc with rfl | hc
    · exact ⟨p, hp, h.below (h.opened hp)⟩
    · exact h.older hc
  case changed =>
    intro c past hc
    rcases hcommitted hc with ⟨-, rfl, hempty⟩ | hc
    · exact hempty
    · exact h.changed hc

/-- Every call about a transaction that had begun keeps the invariant. -/
theorem respond (h : Represents s pointers) (now : Nat) (call : CoordinatorCall)
    (hbegan : ∀ tx, call.about? = some tx → .write tx.writePointer ∈ pointers) :
    Represents (s.respond now call).2 (s.issuedBy ⟨call, (s.respond now call).1⟩ ++ pointers) := by
  cases havailable : s.available with
  | false =>
    obtain ⟨reason, he⟩ := respond_unavailable now havailable call
    rw [he]
    cases call <;> exact h
  | true =>
    cases call with
    | connect =>
      rw [← respondBy_prune, respondBy_connect prune now havailable]
      exact h.reach _ _
    | begin session =>
      rw [respond_begin now havailable]
      exact h.begin now
    | canCommit session tx changes =>
      rw [respond_canCommit now havailable]
      split
      · exact h
      · rename_i hopen
        split
        · exact h
        · exact h.announcing (not_not.1 hopen) changes
    | commit session tx =>
      rw [respond_commit now havailable]
      split
      · exact h
      · rename_i hopen
        split
        · exact h
        · exact (h.remember (not_not.1 hopen) _).finish _
    | abort session tx =>
      rw [respond_abort now havailable]
      exact h.finish _
    | invalidate session tx =>
      rw [respond_invalidate now havailable]
      exact h.invalidate (hbegan tx rfl)

/-- The invariant holds all along a run on transactions that had begun. -/
theorem play (timeoutMs : Nat) (events : List Occurrence)
    (hgenuine : (Coordinator.play { timeoutMs } events).log.Genuine) :
    Represents (Coordinator.play { timeoutMs } events).state (issued { timeoutMs } events) := by
  induction events with
  | nil => exact fresh timeoutMs
  | cons e earlier ih =>
    cases e with
    | reach available => exact (ih hgenuine).reach _ available
    | call now call => exact (ih hgenuine.1).respond now call fun tx habout => write_mem_issued.2 (hgenuine.2 tx habout)

theorem committed_eq_empty (h : Represents s pointers) (hnone : s.inProgress = ∅) : s.committed = ∅ := by
  rw [Std.ExtTreeMap.eq_empty_iff_forall_not_mem]
  intro c hc
  obtain ⟨p, hp, -⟩ := h.older hc
  simp [hnone] at hp

/-- The oldest transaction in progress began before every commit that is remembered. -/
theorem oldest_lt (h : Represents s pointers) {oldest : Nat} (holdest : s.inProgress.minKey? = some oldest)
    (hc : c ∈ s.committed) : oldest < c := by
  obtain ⟨p, hp, hlt⟩ := h.older hc
  rw [Std.ExtTreeMap.minKey?_eq_some_iff_mem_and_forall] at holdest
  have hle : oldest ≤ p := by simpa [Nat.isLE_compare] using holdest.2 p hp
  exact Nat.lt_of_le_of_lt hle hlt

end Represents

/-! ### Calls that change nothing -/

/-- Whether a call was turned down: it failed, or the transaction may not commit. -/
def Reply.Refused : Reply → Prop
  | ⟨.canCommit _ _ _, .ok false⟩ | ⟨.commit _ _, .ok false⟩ => True
  | ⟨_, .error _⟩ => True
  | _ => False

/-- A call that is turned down leaves the state as it was. -/
theorem respond_refused {s : Coordinator} {now : Nat} {call : CoordinatorCall}
    (h : Reply.Refused ⟨call, (s.respond now call).1⟩) : (s.respond now call).2 = s := by
  cases havailable : s.available with
  | false =>
    obtain ⟨reason, he⟩ := respond_unavailable now havailable call
    rw [he]
  | true =>
    cases call with
    | connect =>
      rw [← respondBy_prune, respondBy_connect prune now havailable] at h
      exact h.elim
    | begin session =>
      rw [respond_begin now havailable] at h
      exact h.elim
    | canCommit session tx changes =>
      rw [respond_canCommit now havailable] at h ⊢
      split
      · rfl
      · rename_i hopen
        split
        · rfl
        · rename_i hclear
          rw [if_neg hopen, if_neg hclear] at h
          exact h.elim
    | commit session tx =>
      rw [respond_commit now havailable] at h ⊢
      split
      · rfl
      · rename_i hopen
        split
        · rfl
        · rename_i hclear
          rw [if_neg hopen, if_neg hclear] at h
          exact h.elim
    | abort session tx =>
      rw [respond_abort now havailable] at h
      exact h.elim
    | invalidate session tx =>
      rw [respond_invalidate now havailable] at h
      exact h.elim

/-- **The representation of a coordinator is kept.**  Whatever happened to a coordinator, in any order and at any
times, on transactions that had begun: the pointers in its state have all been issued, those of transactions for
a begin and those of commits for a commit, they lie below the counter, and no pointer was ever issued for both.
No transaction in progress is invalid, and only those in progress have announced changes.  Commits are remembered
only while something is in progress, only if they lie beyond the oldest write pointer in progress, and only if
they changed something.  A call that fails and one that answers that a transaction may not commit leave the
state as it was, and a transaction that begins gets a pointer beyond all that were issued before. -/
theorem representation_kept (timeoutMs : Nat) (events : List Occurrence)
    (hgenuine : (play { timeoutMs } events).log.Genuine) :
    let s := (play { timeoutMs } events).state
    let pointers := issued { timeoutMs } events
    (∀ p, p ∈ s.inProgress ∨ p ∈ s.invalid ∨ p ∈ s.announced ∨ p ∈ s.committed → p < s.nextPointer) ∧
    (∀ p, p ∈ s.inProgress ∨ p ∈ s.invalid ∨ p ∈ s.announced → .write p ∈ pointers) ∧
    (∀ c, c ∈ s.committed → .commit c ∈ pointers) ∧
    (∀ p, .write p ∈ pointers → .commit p ∉ pointers) ∧
    (∀ p, p ∈ s.inProgress → p ∉ s.invalid) ∧
    (∀ p, p ∈ s.announced → p ∈ s.inProgress) ∧
    (s.inProgress = ∅ → s.committed = ∅) ∧
    (∀ oldest, s.inProgress.minKey? = some oldest → ∀ c, c ∈ s.committed → oldest < c) ∧
    (∀ (c : Nat) changes, s.committed[c]? = some changes → changes ≠ ∅) ∧
    (∀ now call, Reply.Refused ⟨call, (s.respond now call).1⟩ → (s.respond now call).2 = s) ∧
    pointers.Pairwise (fun later earlier => earlier.number < later.number) ∧
    ∀ now session tx, (s.respond now (.begin session)).1 = .ok tx → ∀ i ∈ pointers, i.number < tx.writePointer := by
  intro s pointers
  have h : Represents s pointers := Represents.play timeoutMs events hgenuine
  have hwrite : ∀ p, p ∈ s.inProgress ∨ p ∈ s.invalid ∨ p ∈ s.announced → .write p ∈ pointers := by
    rintro p (hp | hp | hp)
    · exact h.opened hp
    · exact h.condemned hp
    · exact h.opened (h.announced hp)
  refine ⟨?_, hwrite, fun c => h.committed, fun p hp hcommit => h.number_ne hp hcommit rfl, fun p => h.apart,
    fun p => h.announced, h.committed_eq_empty, fun oldest hmin c => h.oldest_lt hmin, ?_,
    fun now call => respond_refused, h.descending, ?_⟩
  · rintro p (hp | hp | hp | hp)
    · exact h.below (hwrite p (.inl hp))
    · exact h.below (hwrite p (.inr (.inl hp)))
    · exact h.below (hwrite p (.inr (.inr hp)))
    · exact h.below (h.committed hp)
  · rintro c changes hc rfl
    exact absurd (h.changed hc) (by simp)
  · intro now session tx htx i hi
    rw [(respond_begin_eq_ok htx).1, begin_writePointer]
    exact h.below hi

theorem state_overlapping {rows : ChangeSet} (hrows : rows.isEmpty = false) :
    (play { timeoutMs := 30000 } (overlapping rows)).state =
      Coordinator.prune
        { timeoutMs := 30000, nextPointer := 4
          inProgress := ((∅ : Std.ExtTreeMap Nat Nat).insert 1 0 |>.insert 2 0).erase 1
          announced := ((∅ : Std.ExtTreeMap Nat ChangeSet).insert 1 rows).erase 1
          committed := (∅ : Std.ExtTreeMap Nat ChangeSet).insert 3 rows } := by
  simp [overlapping, firstTx, play, respond, perform, onSession, begin, expire_zero, canCommit, commit, remember,
    finish, hasConflict_of_committed_eq_empty, hrows]

/-- While the second one of two overlapping transactions is in progress, the commit of the first one is
remembered, under a pointer between that of the second one and the next. -/
theorem representation_kept_overlapping :
    let rows : ChangeSet := .ofList [⟨"accounts", ⟨[.integer 1]⟩⟩] compare
    let s := (play { timeoutMs := 30000 } (overlapping rows)).state
    (play { timeoutMs := 30000 } (overlapping rows)).log.Genuine ∧
      s.inProgress.minKey? = some 2 ∧ 3 ∈ s.committed ∧ 2 < 3 ∧ 3 < s.nextPointer := by
  intro rows s
  have hgenuine : (play { timeoutMs := 30000 } (overlapping rows)).log.Genuine := by
    simp [overlapping, firstTx, play, respond, perform, onSession, begin, expire_zero, canCommit, commit,
      hasConflict_of_committed_eq_empty, Log.Genuine, CoordinatorCall.about?, Log.Began, Reply.fact]
  have hrows : rows.isEmpty = false := by decide +kernel
  have hstate := state_overlapping hrows
  have hopen : ∀ p, p ∈ s.inProgress ↔ p = 2 := by
    intro p
    simp [s, hstate, Std.ExtTreeMap.mem_erase]
    omega
  have hmin : s.inProgress.minKey? = some 2 := by
    rw [Std.ExtTreeMap.minKey?_eq_some_iff_mem_and_forall]
    simp [hopen]
  have hcommitted : 3 ∈ s.committed := by
    simp only [s, hstate, Std.ExtTreeMap.mem_iff_isSome_getElem?]
    rw [getElem?_committed_prune _ 2 (by simp) (by decide)]
    simp
  obtain ⟨hbelow, -, -, -, -, -, -, holdest, -⟩ := representation_kept 30000 (overlapping rows) hgenuine
  exact ⟨hgenuine, hmin, hcommitted, holdest 2 hmin 3 hcommitted, hbelow 3 (.inr (.inr (.inr hcommitted)))⟩

end Tabular.Coordinator
