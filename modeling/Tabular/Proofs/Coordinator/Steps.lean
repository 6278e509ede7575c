import Tabular.Coordinator.Basic

/-!
# Tabular.Proofs.Coordinator.Steps — what the steps of the coordinator change

One lemma per field and step, read off the definitions once, so that no later proof unfolds a step:
which transactions are in progress, which are invalid, what is announced and which conflicts are found
after `prune`, `finish`, `invalidate` and `expire`.  Main statement: `hasConflict_prune`, forgetting
committed changes loses no conflict of a transaction in progress.
-/

namespace Tabular.Coordinator

variable (s : Coordinator) (p q now : Nat)

/-! ### Forgetting -/

theorem prune_eq : ∃ kept, s.prune = { s with committed := kept } := by
  unfold prune
  cases s.inProgress.minKey? with
  | some oldest => exact ⟨_, rfl⟩
  | none => exact ⟨_, rfl⟩

@[simp] theorem prune_inProgress : s.prune.inProgress = s.inProgress := by
  obtain ⟨kept, h⟩ := s.prune_eq
  rw [h]

@[simp] theorem prune_announced : s.prune.announced = s.announced := by
  obtain ⟨kept, h⟩ := s.prune_eq
  rw [h]

@[simp] theorem prune_invalid : s.prune.invalid = s.invalid := by
  obtain ⟨kept, h⟩ := s.prune_eq
  rw [h]

@[simp] theorem prune_nextPointer : s.prune.nextPointer = s.nextPointer := by
  obtain ⟨kept, h⟩ := s.prune_eq
  rw [h]

@[simp] theorem prune_available : s.prune.available = s.available := by
  obtain ⟨kept, h⟩ := s.prune_eq
  rw [h]

theorem mem_committed_of_mem_prune {c : Nat} (h : c ∈ s.prune.committed) : c ∈ s.committed := by
  unfold prune at h
  cases hmin : s.inProgress.minKey? with
  | some oldest =>
    simp only [hmin] at h
    exact Std.ExtTreeMap.mem_of_mem_filter h
  | none =>
    simp [hmin] at h

theorem getElem?_committed_prune {c : Nat} (hp : p ∈ s.inProgress) (hpc : p < c) :
    s.prune.committed[c]? = s.committed[c]? := by
  unfold prune
  cases hmin : s.inProgress.minKey? with
  | some oldest =>
    -- the oldest transaction in progress began no later than `p`
    have hle : oldest ≤ p := by
      rw [Std.ExtTreeMap.minKey?_eq_some_iff_mem_and_forall] at hmin
      simpa [Nat.isLE_compare] using hmin.2 p hp
    have hkeep : oldest ≤ c := by omega
    cases h : s.committed[c]? with
    | some past => simp [hkeep, h, Option.filter]
    | none => simp [h]
  | none =>
    have hempty := Std.ExtTreeMap.minKey?_eq_none_iff.1 hmin
    simp [hempty] at hp

/-! ### Conflicts -/

theorem hasConflict_eq_true_iff {changes : ChangeSet} :
    s.hasConflict p changes = true ↔
      ∃ c past, s.committed[c]? = some past ∧ p < c ∧ past.meets changes = true := by
  simp [hasConflict, Std.ExtTreeMap.mem_toList_iff_getElem?_eq_some]

theorem hasConflict_of_committed_eq_empty (h : s.committed = ∅) (changes : ChangeSet) :
    s.hasConflict p changes = false := by
  simp [hasConflict, h]

/-- Forgetting loses no conflict of a transaction in progress. -/
theorem hasConflict_prune {changes : ChangeSet} (hp : p ∈ s.inProgress) :
    s.prune.hasConflict p changes = s.hasConflict p changes := by
  rw [Bool.eq_iff_iff, hasConflict_eq_true_iff, hasConflict_eq_true_iff]
  constructor
  · rintro ⟨c, past, hc, hpc, hmeets⟩
    rw [getElem?_committed_prune s p hp hpc] at hc
    exact ⟨c, past, hc, hpc, hmeets⟩
  · rintro ⟨c, past, hc, hpc, hmeets⟩
    rw [← getElem?_committed_prune s p hp hpc] at hc
    exact ⟨c, past, hc, hpc, hmeets⟩

/-! ### Ending transactions -/

@[simp] theorem finish_inProgress : (s.finish p).inProgress = s.inProgress.erase p := by
  simp [finish]

@[simp] theorem finish_announced : (s.finish p).announced = s.announced.erase p := by
  simp [finish]

@[simp] theorem finish_invalid : (s.finish p).invalid = s.invalid := by
  simp [finish]

@[simp] theorem finish_nextPointer : (s.finish p).nextPointer = s.nextPointer := by
  simp [finish]

@[simp] theorem finish_available : (s.finish p).available = s.available := by
  simp [finish]

@[simp] theorem invalidate_inProgress : (s.invalidate p).inProgress = s.inProgress.erase p := by
  simp [invalidate]

@[simp] theorem invalidate_invalid : (s.invalidate p).invalid = s.invalid.insert p := by
  simp [invalidate]

@[simp] theorem invalidate_nextPointer : (s.invalidate p).nextPointer = s.nextPointer := by
  simp [invalidate]

/-! ### Expiry -/

theorem foldl_invalidate_nextPointer (ps : List Nat) :
    (ps.foldl invalidate s).nextPointer = s.nextPointer := by
  induction ps generalizing s with
  | nil => rfl
  | cons p ps ih => rw [List.foldl_cons, ih, invalidate_nextPointer]

theorem mem_foldl_invalidate_inProgress (ps : List Nat) :
    q ∈ (ps.foldl invalidate s).inProgress ↔ q ∈ s.inProgress ∧ q ∉ ps := by
  induction ps generalizing s with
  | nil => simp
  | cons p ps ih =>
    rw [List.foldl_cons, ih]
    simp [Std.ExtTreeMap.mem_erase]
    grind

theorem mem_foldl_invalidate_invalid (ps : List Nat) :
    q ∈ (ps.foldl invalidate s).invalid ↔ q ∈ s.invalid ∨ q ∈ ps := by
  induction ps generalizing s with
  | nil => simp
  | cons p ps ih =>
    rw [List.foldl_cons, ih]
    simp
    grind

theorem mem_inProgress_of_mem_overdue {q now : Nat} (h : q ∈ s.overdue now) : q ∈ s.inProgress := by
  rw [overdue, Std.ExtTreeMap.mem_keys] at h
  exact Std.ExtTreeMap.mem_of_mem_filter h

@[simp] theorem expire_nextPointer : (s.expire now).nextPointer = s.nextPointer :=
  foldl_invalidate_nextPointer s _

theorem mem_expire_inProgress :
    q ∈ (s.expire now).inProgress ↔ q ∈ s.inProgress ∧ q ∉ s.overdue now :=
  mem_foldl_invalidate_inProgress s q _

theorem mem_expire_invalid : q ∈ (s.expire now).invalid ↔ q ∈ s.invalid ∨ q ∈ s.overdue now :=
  mem_foldl_invalidate_invalid s q _

/-- At the beginning of time nothing is overdue. -/
theorem expire_zero (h : 0 < s.timeoutMs) : s.expire 0 = s := by
  have hnone : s.overdue 0 = [] := by
    refine List.eq_nil_iff_forall_not_mem.2 fun p hp => ?_
    rw [overdue, Std.ExtTreeMap.mem_keys, Std.ExtTreeMap.mem_filter] at hp
    obtain ⟨hmem, hlate⟩ := hp
    simp at hlate
    omega
  rw [expire, hnone]
  rfl

/-! ### Snapshots -/

theorem mem_hidden : q ∈ s.hidden ↔ q ∈ s.invalid ∨ q ∈ s.inProgress := by
  simp [hidden]

/-- A transaction that begins does not see what is invalid or in progress, whether or not its begin
lets some of it expire. -/
theorem mem_excluded_begin : q ∈ (s.begin now).1.excluded ↔ q ∈ s.invalid ∨ q ∈ s.inProgress := by
  have hoverdue : q ∈ s.overdue now → q ∈ s.inProgress := mem_inProgress_of_mem_overdue s
  simp only [begin, mem_hidden, mem_expire_inProgress, mem_expire_invalid]
  grind

@[simp] theorem begin_writePointer : (s.begin now).1.writePointer = s.nextPointer := by
  simp [begin]

@[simp] theorem begin_readLimit : (s.begin now).1.readLimit = some (s.nextPointer - 1) := by
  simp [begin]

@[simp] theorem begin_nextPointer : (s.begin now).2.nextPointer = s.nextPointer + 1 := by
  simp [begin]

theorem mem_begin_inProgress :
    q ∈ (s.begin now).2.inProgress ↔ q = s.nextPointer ∨ q ∈ (s.expire now).inProgress := by
  simp [begin]
  grind

theorem mem_begin_invalid : q ∈ (s.begin now).2.invalid ↔ q ∈ (s.expire now).invalid := by
  simp [begin]

/-- What a transaction that begins sees: what was written before, unless it is in progress or
invalid. -/
theorem isVisible_begin :
    (s.begin now).1.isVisible q = true ↔
      q = s.nextPointer ∨ (q ≤ s.nextPointer - 1 ∧ q ∉ s.invalid ∧ q ∉ s.inProgress) := by
  simp [Transaction.isVisible, Transaction.reaches, mem_excluded_begin]

end Tabular.Coordinator
