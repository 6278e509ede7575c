import Tabular.Proofs.Coordinator.Steps
import Tabular.Proofs.Engine.Scene

/-!
# Tabular.Proofs.Engine.Sessions — one transaction at a time

Where units of work run one after another, a coordinator is `Idle` between them and `Busy` with one
transaction during each, and either strategy has a session for it.  One lemma per call of the coordinator,
and one each for acquiring and releasing a session.
-/

namespace Tabular

namespace Pool

variable {α : Type} {p : Pool α}

/-- Whether a pool has a number of items in use, and may have one at all. -/
structure Uses (n : Nat) (p : Pool α) : Prop where
  outstanding : p.outstanding = n
  room : 0 < p.maxSize

/-- A pool of which nothing is in use has an item or a slot for one. -/
theorem Uses.take (h : p.Uses 0) : p.take.Uses 1 ∧ (p.taken = .slot ∨ ∃ a, p.taken = .item a) := by
  have hone : p.outstanding + 1 = 1 := by rw [h.outstanding]
  cases hidle : p.idle with
  | cons a rest =>
    have htake : p.take = { p with idle := rest }.withOneMore := by rw [Pool.take, hidle]
    rw [htake]
    exact ⟨⟨hone, h.room⟩, .inr ⟨a, by rw [taken, hidle]⟩⟩
  | nil =>
    have hroom : p.hasRoom := by
      rw [hasRoom, hidle, h.outstanding]
      exact h.room
    have htake : p.take = p.withOneMore := by simp [Pool.take, hidle, hroom]
    rw [htake]
    exact ⟨⟨hone, h.room⟩, .inl (by simp [taken, hidle, hroom])⟩

theorem Uses.put (h : p.Uses 1) (a : α) (reusable : Bool) : (p.put a reusable).Uses 0 := by
  cases reusable with
  | true => exact ⟨congrArg (· - 1) h.outstanding, h.room⟩
  | false => exact ⟨congrArg (· - 1) h.outstanding, h.room⟩

end Pool

namespace LocalCoordinator

/-- The write pointer of the next transaction. -/
def next : LocalCoordinator → Nat
  | checking s => s.nextPointer
  | permissive s => s.begun + 1

/-- Whether no transaction is in progress, and nothing is remembered of earlier ones. -/
def Idle : LocalCoordinator → Prop
  | checking s => s.available = true ∧ s.inProgress = ∅ ∧ s.invalid = ∅ ∧ s.committed = ∅
  | permissive _ => True

/-- Whether one transaction is in progress, and nothing is remembered of earlier ones. -/
def Busy (tx : Transaction) : LocalCoordinator → Prop
  | checking s => s.available = true ∧ (∃ began, s.inProgress = Std.ExtTreeMap.insert ∅ tx.writePointer began) ∧
      s.invalid = ∅ ∧ s.committed = ∅
  | permissive _ => True

variable {k : LocalCoordinator} {tx : Transaction}

theorem Idle.connect (h : k.Idle) :
    ∃ session k', k.perform 0 .connect = (.ok session, k') ∧ k'.Idle ∧ k'.next = k.next := by
  cases k with
  | permissive s => exact ⟨_, _, rfl, trivial, rfl⟩
  | checking s =>
    obtain ⟨havailable, hquiet⟩ := h
    refine ⟨s.sessions + 1, checking { s with sessions := s.sessions + 1 }, ?_, ⟨havailable, hquiet⟩, rfl⟩
    simp [perform, Coordinator.perform, Coordinator.connect, havailable]

/-- A transaction that begins sees every version so far. -/
theorem Idle.begin (h : k.Idle) (session : Nat) :
    ∃ tx k', k.perform 0 (.begin session) = (.ok tx, k') ∧ k'.Busy tx ∧ tx.writePointer = k.next ∧
      k.next < k'.next ∧ ∀ q < k.next, tx.isVisible q = true := by
  cases k with
  | permissive s =>
    refine ⟨_, _, rfl, trivial, rfl, Nat.lt_succ_self _, fun q _ => ?_⟩
    have hreaches : Transaction.reaches ⟨s.begun + 1, none, ∅⟩ q := trivial
    simp [Transaction.isVisible, hreaches]
  | checking s =>
    obtain ⟨havailable, hprogress, hinvalid, hcommitted⟩ := h
    have hoverdue : s.overdue 0 = [] := by
      refine List.eq_nil_iff_forall_not_mem.2 fun p hp => ?_
      have hmem := s.mem_inProgress_of_mem_overdue hp
      simp [hprogress] at hmem
    have hexpire : s.expire 0 = s := by rw [Coordinator.expire, hoverdue]; rfl
    have hhidden : s.hidden = ∅ := by simp [Coordinator.hidden, hinvalid, hprogress]
    refine ⟨(s.begin 0).1, checking (s.begin 0).2, ?_, ⟨?_, ⟨0, ?_⟩, ?_, ?_⟩, ?_, ?_, fun q hq => ?_⟩
    · simp [perform, Coordinator.perform, Coordinator.onSession, havailable]
    · simpa [Coordinator.begin, hexpire] using havailable
    · simp [Coordinator.begin, hexpire, hprogress]
    · simpa [Coordinator.begin, hexpire] using hinvalid
    · simpa [Coordinator.begin, hexpire] using hcommitted
    · simp [Coordinator.begin, next]
    · simp [Coordinator.begin, next]
    · have hq' : q ≤ s.nextPointer - 1 := by
        have : q < s.nextPointer := hq
        omega
      simp [Coordinator.begin, Transaction.isVisible, Transaction.reaches, hexpire, hhidden, hq']

theorem Busy.canCommit (h : k.Busy tx) (session : Nat) (changes : ChangeSet) :
    ∃ k', k.perform 0 (.canCommit session tx changes) = (.ok true, k') ∧ k'.Busy tx ∧ k'.next = k.next := by
  cases k with
  | permissive s => exact ⟨_, rfl, trivial, rfl⟩
  | checking s =>
    obtain ⟨havailable, ⟨began, hprogress⟩, hinvalid, hcommitted⟩ := h
    have hnone := s.hasConflict_of_committed_eq_empty tx.writePointer hcommitted changes
    refine ⟨checking { s with announced := s.announced.insert tx.writePointer changes }, ?_,
      ⟨havailable, ⟨began, hprogress⟩, hinvalid, hcommitted⟩, rfl⟩
    simp [perform, Coordinator.perform, Coordinator.onSession, Coordinator.canCommit, havailable, hprogress,
      hnone]

/-- The end of the only transaction leaves nothing to remember. -/
theorem idle_finish {s : Coordinator} {p began : Nat} (havailable : s.available = true)
    (hprogress : s.inProgress = Std.ExtTreeMap.insert ∅ p began) (hinvalid : s.invalid = ∅) :
    (checking (s.finish p)).Idle := by
  have hempty : s.inProgress.erase p = ∅ := by
    rw [hprogress]
    exact Std.ExtTreeMap.ext_getElem? fun q => by simp
  refine ⟨by simpa using havailable, by simpa using hempty, by simpa using hinvalid, ?_⟩
  simp [Coordinator.finish, Coordinator.prune, hempty]

theorem Busy.commit (h : k.Busy tx) (session : Nat) :
    ∃ k', k.perform 0 (.commit session tx) = (.ok true, k') ∧ k'.Idle ∧ k.next ≤ k'.next := by
  cases k with
  | permissive s => exact ⟨_, rfl, trivial, Nat.le_refl _⟩
  | checking s =>
    obtain ⟨havailable, ⟨began, hprogress⟩, hinvalid, hcommitted⟩ := h
    have hnone := s.hasConflict_of_committed_eq_empty tx.writePointer hcommitted
      (s.announced.getD tx.writePointer ∅)
    refine ⟨checking ((s.remember (s.announced.getD tx.writePointer ∅)).finish tx.writePointer), ?_,
      idle_finish havailable hprogress hinvalid, ?_⟩
    · simp [perform, Coordinator.perform, Coordinator.onSession, Coordinator.commit, havailable, hprogress,
        hnone]
    · simp [next, Coordinator.remember]

theorem Busy.abort (h : k.Busy tx) (session : Nat) :
    ∃ k', k.perform 0 (.abort session tx) = (.ok (), k') ∧ k'.Idle ∧ k.next ≤ k'.next := by
  cases k with
  | permissive s => exact ⟨_, rfl, trivial, Nat.le_refl _⟩
  | checking s =>
    obtain ⟨havailable, ⟨began, hprogress⟩, hinvalid, -⟩ := h
    refine ⟨checking (s.finish tx.writePointer), ?_, idle_finish havailable hprogress hinvalid, ?_⟩
    · simp [perform, Coordinator.perform, Coordinator.onSession, havailable]
    · simp [next]

end LocalCoordinator

namespace Bench

/-! ### Sessions -/

/-- Whether a session can be had. -/
def Free (strategy : SessionStrategy) (c : Scene) : Prop :=
  match strategy with
  | .pool => c.pool.Uses 0
  | .perThread => ∀ thread : Nat, c.threads.slots[thread]? ≠ some none

/-- Whether the only session that is lent is one of the thread that runs. -/
def Lent (strategy : SessionStrategy) (c : Scene) : Prop :=
  match strategy with
  | .pool => c.pool.Uses 1
  | .perThread => ∀ thread : Nat, thread ≠ c.thread → c.threads.slots[thread]? ≠ some none

/-- The sessions of an engine over the coordinator of its process. -/
def sessionsOf (k : Nat) (strategy : SessionStrategy) (waitMs : Nat) : SessionSource SiteM :=
  .ofStrategy strategy Site.coordinator (.ofCell (Site.engineCell k)) waitMs Site.currentThread

variable {k waitMs : Nat} {strategy : SessionStrategy} {c : Scene}

/-- Opening a session while the coordinator is idle. -/
theorem Yields.connect {i : Option Nat} {post : Except StoreError Nat → Scene → Prop} (h : c.coordinator.Idle)
    (hpost : ∀ session coordinator, coordinator.Idle → coordinator.next = c.coordinator.next →
      post (.ok session) { c with coordinator }) :
    Yields i (Site.coordinator .connect).run c post := by
  obtain ⟨session, coordinator, hconnect, hidle, hnext⟩ := h.connect
  exact Yields.coordinator hconnect (hpost session coordinator hidle hnext)

/-- A session can be had where none is lent. -/
theorem Yields.acquire (h : c.coordinator.Idle) (hfree : Free strategy c) :
    Yields (some k) (sessionsOf k strategy waitMs).acquire.run c fun r c' =>
      ∃ session coordinator pool threads, r = .ok session ∧ c' = { c with coordinator, pool, threads } ∧
        Lent strategy c' ∧ coordinator.Idle ∧ coordinator.next = c.coordinator.next := by
  cases strategy with
  | pool =>
    obtain ⟨huses, htaken⟩ := Pool.Uses.take hfree
    refine action (pool ?_)
    rcases htaken with hslot | ⟨session, hitem⟩
    · rw [hslot]
      refine outcome (Yields.connect h fun session coordinator hidle hnext => ?_)
      exact action (modify (pool (pure ⟨session, coordinator, _, _, rfl, rfl, ⟨huses.1, huses.2⟩, hidle, hnext⟩)))
    · rw [hitem]
      exact pure ⟨session, _, _, _, rfl, rfl, huses, h, rfl⟩
  | perThread =>
    have hlent : ∀ thread : Nat, thread ≠ c.thread → (c.threads.lend c.thread).slots[thread]? ≠ some none := by
      intro thread hne
      simpa [ThreadSessions.lend, Std.ExtTreeMap.getElem?_insert, hne.symm] using hfree thread
    refine action (currentThread (action (threads ?_)))
    cases hslot : c.threads.slots.get? c.thread with
    | some slot =>
      cases slot with
      | some session => exact pure ⟨session, _, _, _, rfl, rfl, hlent, h, rfl⟩
      | none => exact absurd hslot (hfree c.thread)
    | none =>
      refine outcome (Yields.connect h fun session coordinator hidle hnext => ?_)
      refine action (modify (threads (reporting ?_)))
      exact pure ⟨session, coordinator, _, _, rfl, rfl, hlent, hidle, hnext⟩

/-- Where a session is given back, none is lent. -/
theorem Yields.release {session : Nat} {reusable : Bool} (hlent : Lent strategy c) :
    Yields (some k) ((sessionsOf k strategy waitMs).release session reusable) c fun _ c' =>
      ∃ pool threads, c' = { c with pool, threads } ∧ Free strategy c' := by
  cases strategy with
  | pool =>
    have hput : Free .pool { c with pool := c.pool.put session reusable } := Pool.Uses.put hlent _ _
    cases reusable with
    | true => exact modify (pool ⟨_, _, rfl, hput⟩)
    | false => exact bind (report (modify (pool ⟨_, _, rfl, hput⟩)))
  | perThread =>
    have hother : ∀ slots : Std.ExtTreeMap Nat (Option Nat),
        (∀ thread : Nat, thread ≠ c.thread → slots[thread]? = c.threads.slots[thread]?) →
        slots[c.thread]? ≠ some none → ∀ thread : Nat, slots[thread]? ≠ some none := by
      intro slots hsame hself thread
      by_cases hthread : thread = c.thread
      · rwa [hthread]
      · rw [hsame thread hthread]
        exact hlent thread hthread
    refine bind (currentThread ?_)
    cases reusable with
    | true =>
      refine modify (threads ⟨_, _, rfl, ?_⟩)
      show ∀ thread : Nat, (c.threads.giveBack c.thread session).slots[thread]? ≠ some none
      rw [ThreadSessions.giveBack]
      split
      · refine hother _ (fun thread hne => ?_) (by simp)
        simp [Std.ExtTreeMap.getElem?_insert, hne.symm]
      · rename_i hmem
        exact hother _ (fun _ _ => rfl) (by simp [hmem])
    | false =>
      refine bind (report (modify (threads ⟨_, _, rfl, ?_⟩)))
      refine hother (c.threads.slots.erase c.thread) (fun thread hne => ?_) (by simp)
      simp [Std.ExtTreeMap.getElem?_erase, hne.symm]

end Bench

end Tabular
