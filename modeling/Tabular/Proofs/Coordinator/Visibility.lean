import Tabular.Proofs.Coordinator.History

/-!
# Tabular.Proofs.Coordinator.Visibility — what transactions see, told from the answers

`Released` and `Condemned` say of a log that a write pointer was committed or aborted, and that it was
invalidated by a call.  `Reveals` relates a state to the log since a quiet start: whatever began and was
not released is hidden from every transaction but itself, and what was committed stays in sight.  Main
statement: `Reveals.respond`, every call keeps the relation.
-/

namespace Tabular.Coordinator

/-! ### Answers -/

section Respond

variable {s : Coordinator} (now : Nat) (h : s.available = true) (session : Nat) (tx : Transaction)

theorem respond_unavailable (h : s.available = false) (call : CoordinatorCall) :
    ∃ reason, s.respond now call = (.error (.coordinator reason), s) := by
  rw [← respondBy_prune]
  exact respondBy_unavailable prune now h call

include h

theorem respond_begin :
    s.respond now (.begin session) = (.ok (s.begin now).1, (s.begin now).2) := by
  rw [← respondBy_prune, respondBy_begin prune now h]
  rfl

theorem respond_canCommit (changes : ChangeSet) :
    s.respond now (.canCommit session tx changes) =
      if tx.writePointer ∉ s.inProgress then (.error (notInProgress tx.writePointer), s)
      else if s.hasConflict tx.writePointer changes then (.ok false, s)
      else (.ok true, { s with announced := s.announced.insert tx.writePointer changes }) := by
  rw [← respondBy_prune, respondBy_canCommit prune now h]

theorem respond_commit :
    s.respond now (.commit session tx) =
      if tx.writePointer ∉ s.inProgress then (.error (notInProgress tx.writePointer), s)
      else if s.hasConflict tx.writePointer (s.announced.getD tx.writePointer ∅) then (.ok false, s)
      else (.ok true, (s.remember (s.announced.getD tx.writePointer ∅)).finish tx.writePointer) := by
  rw [← respondBy_prune, respondBy_commit prune now h]
  rfl

theorem respond_abort :
    s.respond now (.abort session tx) = (.ok (), s.finish tx.writePointer) := by
  rw [← respondBy_prune, respondBy_abort prune now h]
  rfl

theorem respond_invalidate :
    s.respond now (.invalidate session tx) =
      (.ok (decide (tx.writePointer ∈ s.inProgress)), s.invalidate tx.writePointer) := by
  rw [← respondBy_prune, respondBy_invalidate prune now h]
  rfl

end Respond

/-- A transaction that begins is the next one, and its begin was answered by an available
coordinator. -/
theorem respond_begin_eq_ok {s : Coordinator} {now session : Nat} {tx : Transaction}
    (h : (s.respond now (.begin session)).1 = .ok tx) :
    tx = (s.begin now).1 ∧ (s.respond now (.begin session)).2 = (s.begin now).2 := by
  cases havailable : s.available with
  | false =>
    obtain ⟨reason, he⟩ := respond_unavailable now havailable (.begin session)
    rw [he] at h
    cases h
  | true =>
    rw [respond_begin now havailable] at h ⊢
    cases h
    exact ⟨rfl, rfl⟩

/-! ### What is released and what is condemned -/

/-- Whether a reply ends a transaction in such a way that its writes are in sight from then on. -/
def Reply.Releases (p : Nat) : Reply → Prop
  | ⟨.commit _ tx, .ok true⟩ => tx.writePointer = p
  | ⟨.abort _ tx, .ok ()⟩ => tx.writePointer = p
  | _ => False

/-- Whether a reply says that writes are never to be seen. -/
def Reply.Condemns (p : Nat) : Reply → Prop
  | ⟨.invalidate _ tx, .ok _⟩ => tx.writePointer = p
  | _ => False

theorem Reply.not_releases_error {p : Nat} {call : CoordinatorCall} {e : StoreError} :
    ¬ Reply.Releases p ⟨call, .error e⟩ := by
  cases call <;> exact id

theorem Reply.not_condemns_error {p : Nat} {call : CoordinatorCall} {e : StoreError} :
    ¬ Reply.Condemns p ⟨call, .error e⟩ := by
  cases call <;> exact id

/-- Whether a reply begins no transaction and ends none. -/
structure Reply.Inert (r : Reply) : Prop where
  began : ∀ p, r.fact ≠ .began p
  committed : ∀ p, r.fact ≠ .committed p
  releases : ∀ p, ¬ r.Releases p
  condemns : ∀ p, ¬ r.Condemns p

theorem Reply.inert_error (call : CoordinatorCall) (e : StoreError) : Reply.Inert ⟨call, .error e⟩ where
  began p := by cases call <;> exact nofun
  committed p := by cases call <;> exact nofun
  releases p := Reply.not_releases_error
  condemns p := Reply.not_condemns_error

theorem Reply.inert_connect (session : Nat) : Reply.Inert ⟨.connect, .ok session⟩ where
  began _ := nofun
  committed _ := nofun
  releases _ := id
  condemns _ := id

theorem Reply.inert_canCommit (session : Nat) (tx : Transaction) (changes : ChangeSet) (answer : Bool) :
    Reply.Inert ⟨.canCommit session tx changes, .ok answer⟩ where
  began p := by cases answer <;> exact nofun
  committed p := by cases answer <;> exact nofun
  releases _ := id
  condemns _ := id

/-- A commit that is refused leaves the transaction open. -/
theorem Reply.inert_refused (session : Nat) (tx : Transaction) :
    Reply.Inert ⟨.commit session tx, .ok false⟩ where
  began _ := nofun
  committed _ := nofun
  releases _ := id
  condemns _ := id

/-- A transaction is handed out by a reply that says so. -/
theorem Reply.ne_begin {r : Reply} (hbegan : ∀ p, r.fact ≠ .began p) (tx : Transaction) :
    ¬ ∃ session, r = ⟨.begin session, .ok tx⟩ := by
  rintro ⟨session, rfl⟩
  exact hbegan _ rfl

/-- What is in progress after a call was so before and was not ended by the call, or has begun by it. -/
theorem mem_inProgress_of_respond {s : Coordinator} {now : Nat} {call : CoordinatorCall} {p : Nat}
    (hp : p ∈ (s.respond now call).2.inProgress) :
    (p ∈ s.inProgress ∧ ¬ Reply.Releases p ⟨call, (s.respond now call).1⟩ ∧
      ¬ Reply.Condemns p ⟨call, (s.respond now call).1⟩) ∨
    (p = s.nextPointer ∧ ∃ session, call = .begin session) := by
  have herased : ∀ q, p ∈ s.inProgress.erase q → p ∈ s.inProgress ∧ ¬ q = p := by
    intro q hq
    simpa [and_comm] using Std.ExtTreeMap.mem_erase.1 hq
  generalize hanswer : s.respond now call = answered at hp ⊢
  cases havailable : s.available with
  | false =>
    obtain ⟨reason, he⟩ := respond_unavailable now havailable call
    rw [he] at hanswer
    subst hanswer
    exact .inl ⟨hp, Reply.not_releases_error, Reply.not_condemns_error⟩
  | true =>
    cases call with
    | connect =>
      rw [← respondBy_prune, respondBy_connect prune now havailable] at hanswer
      subst hanswer
      exact .inl ⟨hp, id, id⟩
    | begin session =>
      rw [respond_begin now havailable] at hanswer
      subst hanswer
      rcases (mem_begin_inProgress s p now).1 hp with hp | hp
      · exact .inr ⟨hp, session, rfl⟩
      · exact .inl ⟨((mem_expire_inProgress s p now).1 hp).1, id, id⟩
    | canCommit session tx changes =>
      rw [respond_canCommit now havailable] at hanswer
      split at hanswer
      · subst hanswer
        exact .inl ⟨hp, Reply.not_releases_error, Reply.not_condemns_error⟩
      · split at hanswer <;> subst hanswer <;> exact .inl ⟨hp, id, id⟩
    | commit session tx =>
      rw [respond_commit now havailable] at hanswer
      split at hanswer
      · subst hanswer
        exact .inl ⟨hp, Reply.not_releases_error, Reply.not_condemns_error⟩
      · split at hanswer <;> subst hanswer
        · exact .inl ⟨hp, id, id⟩
        · rw [finish_inProgress] at hp
          exact .inl ⟨(herased _ hp).1, (herased _ hp).2, id⟩
    | abort session tx =>
      rw [respond_abort now havailable] at hanswer
      subst hanswer
      rw [finish_inProgress] at hp
      exact .inl ⟨(herased _ hp).1, (herased _ hp).2, id⟩
    | invalidate session tx =>
      rw [respond_invalidate now havailable] at hanswer
      subst hanswer
      rw [invalidate_inProgress] at hp
      exact .inl ⟨(herased _ hp).1, id, (herased _ hp).2⟩

namespace Log

/-- Whether a write pointer was committed or aborted. -/
def Released (p : Nat) (log : Log) : Prop := ∃ r ∈ log, r.Releases p

/-- Whether a write pointer was invalidated by a call. -/
def Condemned (p : Nat) (log : Log) : Prop := ∃ r ∈ log, r.Condemns p

/-- Whether a transaction was handed out. -/
def HandedOut (tx : Transaction) (log : Log) : Prop := ∃ session, ⟨.begin session, .ok tx⟩ ∈ log

variable {r : Reply} {log : Log} {p : Nat} {tx : Transaction}

@[simp] theorem released_cons : Released p (r :: log) ↔ r.Releases p ∨ Released p log := by
  simp [Released]

@[simp] theorem condemned_cons : Condemned p (r :: log) ↔ r.Condemns p ∨ Condemned p log := by
  simp [Condemned]

@[simp] theorem handedOut_cons :
    HandedOut tx (r :: log) ↔ (∃ session, r = ⟨.begin session, .ok tx⟩) ∨ HandedOut tx log := by
  simp only [HandedOut, List.mem_cons, exists_or]
  simp only [eq_comm]

theorem HandedOut.began (h : HandedOut tx log) : Began tx.writePointer log := by
  obtain ⟨session, hmem⟩ := h
  exact ⟨_, hmem, rfl⟩

theorem Began.exists_handedOut (h : Began p log) : ∃ tx, HandedOut tx log ∧ tx.writePointer = p := by
  obtain ⟨r, hmem, hr⟩ := h
  generalize hr' : r = r' at hr
  unfold Reply.fact at hr
  split at hr
  case h_1 session tx =>
    subst hr'
    cases hr
    exact ⟨tx, ⟨session, hmem⟩, rfl⟩
  all_goals cases hr

theorem exists_of_fact_announced {changes : ChangeSet} (h : r.fact = .announced p changes) :
    ∃ session tx, tx.writePointer = p ∧ r = ⟨.canCommit session tx changes, .ok true⟩ := by
  unfold Reply.fact at h
  split at h <;> cases h
  exact ⟨_, _, rfl, rfl⟩

end Log

/-- Whether nothing is under way at a coordinator, and all it knows is older than its next pointer. -/
structure Quiet (s : Coordinator) : Prop where
  idle : ∀ p, p ∉ s.inProgress
  unannounced : ∀ p, p ∉ s.announced
  invalid_lt : ∀ p ∈ s.invalid, p < s.nextPointer
  committed_lt : ∀ c ∈ s.committed, c < s.nextPointer

/-- How what is hidden depends on what was answered since a quiet start. -/
structure Reveals (start s : Coordinator) (log : Log) : Prop where
  first_le : start.nextPointer ≤ s.nextPointer
  open_ge : ∀ ⦃p⦄, p ∈ s.inProgress → start.nextPointer ≤ p
  began_ge : ∀ ⦃p⦄, log.Began p → start.nextPointer ≤ p
  invalid_lt : ∀ ⦃p⦄, p ∈ s.invalid → ¬ log.Condemned p → p < s.nextPointer
  valid : ∀ ⦃p⦄, p ∈ s.inProgress → ¬ log.Condemned p → p ∉ s.invalid
  hidden : ∀ ⦃p⦄, log.Began p → ¬ log.Released p → p ∈ s.inProgress ∨ p ∈ s.invalid
  shown : ∀ ⦃p⦄, log.Committed p → ¬ log.Condemned p → p ∉ s.invalid
  beyond : ∀ ⦃tx p⦄, log.HandedOut tx → tx.writePointer < p → tx.isVisible p = false
  unseen : ∀ ⦃tx p⦄, log.HandedOut tx → log.Began p → ¬ log.Released p → p ≠ tx.writePointer →
    tx.isVisible p = false
  old : ∀ ⦃p⦄, p < start.nextPointer → ¬ log.Condemned p → (p ∈ s.invalid ↔ p ∈ start.invalid)

theorem Quiet.tracks {s : Coordinator} (h : s.Quiet) : Tracks s [] where
  open_lt hp := absurd hp (h.idle _)
  committed_lt hc := h.committed_lt _ hc
  announced_open hp := absurd hp (h.unannounced _)
  began hp := absurd hp (h.idle _)
  began_lt hp := by simp [Log.Began] at hp
  recorded hp := absurd hp (h.idle _)
  unrecorded _ := rfl
  conflict hp := absurd hp (h.idle _)
  ended hp := by simp [Log.Committed] at hp
  orderly := trivial

theorem Quiet.reveals {s : Coordinator} (h : s.Quiet) : Reveals s s [] where
  first_le := Nat.le_refl _
  open_ge _ hp := absurd hp (h.idle _)
  began_ge _ hp := by simp [Log.Began] at hp
  invalid_lt _ hp _ := h.invalid_lt _ hp
  valid _ hp := absurd hp (h.idle _)
  hidden _ hp := by simp [Log.Began] at hp
  shown _ hp := by simp [Log.Committed] at hp
  beyond _ _ hp := by simp [Log.HandedOut] at hp
  unseen _ _ hp := by simp [Log.HandedOut] at hp
  old _ _ _ := Iff.rfl

namespace Reveals

variable {start s s' : Coordinator} {log : Log} {r : Reply} {p : Nat}

/-- Nothing is revealed by a reply that begins and ends no transaction. -/
theorem cons_same (h : Reveals start s log) (hopen : s'.inProgress = s.inProgress)
    (hinvalid : s'.invalid = s.invalid) (hnext : s'.nextPointer = s.nextPointer)
    (hr : r.Inert) : Reveals start s' (r :: log) := by
  obtain ⟨hbegan, hcommitted, hreleases, hcondemns⟩ := hr
  have hhanded := Reply.ne_begin hbegan
  constructor
  case first_le => exact hnext ▸ h.first_le
  case open_ge => simpa [hopen] using h.open_ge
  case began_ge => simpa [hbegan] using h.began_ge
  case invalid_lt => simpa [hinvalid, hnext, hcondemns] using h.invalid_lt
  case valid => simpa [hopen, hinvalid, hcondemns] using h.valid
  case hidden => simpa [hopen, hinvalid, hbegan, hreleases] using h.hidden
  case shown => simpa [hinvalid, hcommitted, hcondemns] using h.shown
  case beyond => simpa [hhanded] using h.beyond
  case unseen => simpa [hhanded, hbegan, hreleases] using h.unseen
  case old => simpa [hinvalid, hcondemns] using h.old

/-- A commit or an abort brings the writes of one transaction into sight. -/
theorem released (h : Reveals start s log) (hopen : s'.inProgress = s.inProgress.erase p)
    (hinvalid : s'.invalid = s.invalid) (hnext : s.nextPointer ≤ s'.nextPointer)
    (hbegan : ∀ q, r.fact ≠ .began q) (hcommitted : ∀ q, r.fact = .committed q → q ∈ s.inProgress)
    (hreleases : ∀ q, r.Releases q ↔ q = p) (hcondemns : ∀ q, ¬ r.Condemns q) :
    Reveals start s' (r :: log) := by
  have hhanded := Reply.ne_begin hbegan
  constructor
  case first_le => exact Nat.le_trans h.first_le hnext
  case open_ge =>
    intro q hq
    rw [hopen] at hq
    exact h.open_ge (Std.ExtTreeMap.mem_of_mem_erase hq)
  case began_ge => simpa [hbegan] using h.began_ge
  case invalid_lt =>
    intro q hq hnot
    rw [hinvalid] at hq
    exact Nat.lt_of_lt_of_le (h.invalid_lt hq (by simpa [hcondemns] using hnot)) hnext
  case valid =>
    intro q hq hnot
    rw [hopen] at hq
    rw [hinvalid]
    exact h.valid (Std.ExtTreeMap.mem_of_mem_erase hq) (by simpa [hcondemns] using hnot)
  case hidden =>
    intro q hq hnot
    simp only [Log.released_cons, hreleases, not_or] at hnot
    rw [hopen, hinvalid, Std.ExtTreeMap.mem_erase]
    rcases h.hidden (by simpa [hbegan] using hq) hnot.2 with hq | hq
    · refine .inl ⟨?_, hq⟩
      simpa using fun heq : p = q => hnot.1 heq.symm
    · exact .inr hq
  case shown =>
    intro q hq hnot
    rw [hinvalid]
    have hnot : ¬ log.Condemned q := by simpa [hcondemns] using hnot
    rcases Log.committed_cons.1 hq with hq | hq
    · exact h.valid (hcommitted q hq) hnot
    · exact h.shown hq hnot
  case beyond => simpa [hhanded] using h.beyond
  case unseen =>
    intro tx q htx hq hnot hne
    simp only [Log.released_cons, not_or] at hnot
    exact h.unseen (by simpa [hhanded] using htx) (by simpa [hbegan] using hq) hnot.2 hne
  case old => simpa [hinvalid, hcondemns] using h.old

/-- What is invalidated by a call is hidden for good. -/
theorem condemned (h : Reveals start s log) (hopen : s'.inProgress = s.inProgress.erase p)
    (hinvalid : s'.invalid = s.invalid.insert p) (hnext : s'.nextPointer = s.nextPointer)
    (hbegan : ∀ q, r.fact ≠ .began q) (hcommitted : ∀ q, r.fact ≠ .committed q)
    (hreleases : ∀ q, ¬ r.Releases q) (hcondemns : ∀ q, r.Condemns q ↔ q = p) :
    Reveals start s' (r :: log) := by
  have hhanded := Reply.ne_begin hbegan
  have hmem : ∀ q, ¬ Log.Condemned q (r :: log) →
      ¬ log.Condemned q ∧ (q ∈ s'.invalid ↔ q ∈ s.invalid) := by
    intro q hnot
    simp only [Log.condemned_cons, hcondemns, not_or] at hnot
    refine ⟨hnot.2, ?_⟩
    have hne : p ≠ q := fun heq => hnot.1 heq.symm
    simp [hinvalid, hne]
  constructor
  case first_le => exact hnext ▸ h.first_le
  case open_ge =>
    intro q hq
    rw [hopen] at hq
    exact h.open_ge (Std.ExtTreeMap.mem_of_mem_erase hq)
  case began_ge => simpa [hbegan] using h.began_ge
  case invalid_lt =>
    intro q hq hnot
    obtain ⟨hnot, hsame⟩ := hmem q hnot
    exact hnext ▸ h.invalid_lt (hsame.1 hq) hnot
  case valid =>
    intro q hq hnot
    obtain ⟨hnot, hsame⟩ := hmem q hnot
    rw [hopen] at hq
    rw [hsame]
    exact h.valid (Std.ExtTreeMap.mem_of_mem_erase hq) hnot
  case hidden =>
    intro q hq hnot
    rw [hopen, hinvalid, Std.ExtTreeMap.mem_erase, Std.ExtTreeSet.mem_insert]
    by_cases heq : p = q
    · exact .inr (.inl (by simp [heq]))
    · rcases h.hidden (by simpa [hbegan] using hq) (by simpa [hreleases] using hnot) with hq | hq
      · exact .inl ⟨by simpa using heq, hq⟩
      · exact .inr (.inr hq)
  case shown =>
    intro q hq hnot
    obtain ⟨hnot, hsame⟩ := hmem q hnot
    rw [hsame]
    exact h.shown (by simpa [hcommitted] using hq) hnot
  case beyond => simpa [hhanded] using h.beyond
  case unseen => simpa [hhanded, hbegan, hreleases] using h.unseen
  case old =>
    intro q hq hnot
    obtain ⟨hnot, hsame⟩ := hmem q hnot
    rw [hsame]
    exact h.old hq hnot

/-- A transaction that begins does not see what is hidden, and nobody who began before sees it. -/
theorem begun (h : Reveals start s log) (ht : Tracks s log) (now session : Nat) :
    Reveals start (s.begin now).2 (⟨.begin session, .ok (s.begin now).1⟩ :: log) := by
  have hfact : ∀ q, Reply.fact ⟨.begin session, .ok (s.begin now).1⟩ = .began q ↔
      q = s.nextPointer := by
    intro q
    simp [Reply.fact, eq_comm]
  have hnone : ∀ q, ¬ Reply.Releases q ⟨.begin session, .ok (s.begin now).1⟩ := fun q hq => hq
  have hnone' : ∀ q, ¬ Reply.Condemns q ⟨.begin session, .ok (s.begin now).1⟩ := fun q hq => hq
  have hinvalid : ∀ q, q ∈ (s.begin now).2.invalid ↔ q ∈ s.invalid ∨ q ∈ s.overdue now := by
    intro q
    rw [mem_begin_invalid, mem_expire_invalid]
  have hopen : ∀ q, q ∈ (s.begin now).2.inProgress ↔
      q = s.nextPointer ∨ (q ∈ s.inProgress ∧ q ∉ s.overdue now) := by
    intro q
    rw [mem_begin_inProgress, mem_expire_inProgress]
  have hoverdue : ∀ {q}, q ∈ s.overdue now → q ∈ s.inProgress := mem_inProgress_of_mem_overdue s
  constructor
  case first_le => simpa using Nat.le_succ_of_le h.first_le
  case open_ge =>
    intro q hq
    rcases (hopen q).1 hq with rfl | ⟨hq, -⟩
    · exact h.first_le
    · exact h.open_ge hq
  case began_ge =>
    intro q hq
    rcases Log.began_cons.1 hq with hq | hq
    · exact (hfact q).1 hq ▸ h.first_le
    · exact h.began_ge hq
  case invalid_lt =>
    intro q hq hnot
    have hnot : ¬ log.Condemned q := by simpa [hnone'] using hnot
    rw [begin_nextPointer]
    rcases (hinvalid q).1 hq with hq | hq
    · exact Nat.lt_succ_of_lt (h.invalid_lt hq hnot)
    · exact Nat.lt_succ_of_lt (ht.open_lt (hoverdue hq))
  case valid =>
    intro q hq hnot hq'
    have hnot : ¬ log.Condemned q := by simpa [hnone'] using hnot
    rcases (hopen q).1 hq with rfl | ⟨hq, hq''⟩
    · rcases (hinvalid _).1 hq' with hq' | hq'
      · exact Nat.lt_irrefl _ (h.invalid_lt hq' hnot)
      · exact Nat.lt_irrefl _ (ht.open_lt (hoverdue hq'))
    · rcases (hinvalid q).1 hq' with hq' | hq'
      · exact h.valid hq hnot hq'
      · exact hq'' hq'
  case hidden =>
    intro q hq hnot
    rw [hopen, hinvalid]
    rcases Log.began_cons.1 hq with hq | hq
    · exact .inl (.inl ((hfact q).1 hq))
    · rcases h.hidden hq (by simpa [hnone] using hnot) with hq | hq
      · by_cases hlate : q ∈ s.overdue now
        · exact .inr (.inr hlate)
        · exact .inl (.inr ⟨hq, hlate⟩)
      · exact .inr (.inl hq)
  case shown =>
    intro q hq hnot
    rw [hinvalid]
    have hq : log.Committed q := by simpa [Reply.fact] using hq
    rintro (hq' | hq')
    · exact h.shown hq (by simpa [hnone'] using hnot) hq'
    · exact (ht.ended hq).2 (hoverdue hq')
  case beyond =>
    intro tx q htx hlt
    rcases Log.handedOut_cons.1 htx with ⟨_, heq⟩ | htx
    · cases heq
      rw [begin_writePointer] at hlt
      rw [Bool.eq_false_iff, Ne, isVisible_begin]
      omega
    · exact h.beyond htx hlt
  case unseen =>
    intro tx q htx hq hnot hne
    have hnot : ¬ log.Released q := by simpa [hnone] using hnot
    rcases Log.handedOut_cons.1 htx with ⟨_, heq⟩ | htx
    · cases heq
      rcases Log.began_cons.1 hq with hq | hq
      · exact absurd ((hfact q).1 hq) (by simpa using hne)
      · rw [Bool.eq_false_iff, Ne, isVisible_begin]
        have hhidden := h.hidden hq hnot
        rintro (rfl | ⟨-, hvalid, hended⟩)
        · exact hne (by simp)
        · exact hhidden.elim hended hvalid
    · rcases Log.began_cons.1 hq with hq | hq
      · -- the new pointer is beyond the read limit of every transaction that began before
        exact h.beyond htx ((hfact q).1 hq ▸ ht.began_lt htx.began)
      · exact h.unseen htx hq hnot hne
  case old =>
    intro q hq hnot
    rw [hinvalid, ← h.old hq (by simpa [hnone'] using hnot)]
    constructor
    · rintro (hq' | hq')
      · exact hq'
      · exact absurd (h.open_ge (hoverdue hq')) (by omega)
    · exact Or.inl

theorem reach (h : Reveals start s log) (available : Bool) : Reveals start { s with available } log where
  first_le := h.first_le
  open_ge := h.open_ge
  began_ge := h.began_ge
  invalid_lt := h.invalid_lt
  valid := h.valid
  hidden := h.hidden
  shown := h.shown
  beyond := h.beyond
  unseen := h.unseen
  old := h.old

/-- Every call keeps the relation to the log. -/
theorem respond (h : Reveals start s log) (ht : Tracks s log) (now : Nat) (call : CoordinatorCall) :
    Reveals start (s.respond now call).2 (⟨call, (s.respond now call).1⟩ :: log) := by
  cases havailable : s.available with
  | false =>
    obtain ⟨reason, he⟩ := respond_unavailable now havailable call
    rw [he]
    exact h.cons_same rfl rfl rfl (Reply.inert_error _ _)
  | true =>
    cases call with
    | connect =>
      rw [← respondBy_prune, respondBy_connect prune now havailable]
      exact h.cons_same rfl rfl rfl (Reply.inert_connect _)
    | begin session =>
      rw [respond_begin now havailable]
      exact h.begun ht now session
    | canCommit session tx changes =>
      rw [respond_canCommit now havailable]
      split
      · exact h.cons_same rfl rfl rfl (Reply.inert_error _ _)
      · split
        · exact h.cons_same rfl rfl rfl (Reply.inert_canCommit _ _ _ _)
        · exact h.cons_same rfl rfl rfl (Reply.inert_canCommit _ _ _ _)
    | commit session tx =>
      rw [respond_commit now havailable]
      split
      · exact h.cons_same rfl rfl rfl (Reply.inert_error _ _)
      · rename_i hopen
        split
        · exact h.cons_same rfl rfl rfl (Reply.inert_refused _ _)
        · refine h.released (finish_inProgress _ _) (finish_invalid _ _) ?_ (fun _ => nofun) ?_
            (fun q => eq_comm) fun _ => nofun
          · rw [finish_nextPointer]
            exact Nat.le_succ _
          · rintro q ⟨⟩
            exact Classical.not_not.1 hopen
    | abort session tx =>
      rw [respond_abort now havailable]
      exact h.released (finish_inProgress _ _) (finish_invalid _ _)
        (Nat.le_of_eq (finish_nextPointer _ _).symm) (fun _ => nofun) (fun _ => nofun)
        (fun q => eq_comm) fun _ => nofun
    | invalidate session tx =>
      rw [respond_invalidate now havailable]
      exact h.condemned (invalidate_inProgress _ _) (invalidate_invalid _ _)
        (invalidate_nextPointer _ _) (fun _ => nofun) (fun _ => nofun) (fun _ => nofun)
        fun q => eq_comm

end Reveals

end Tabular.Coordinator
