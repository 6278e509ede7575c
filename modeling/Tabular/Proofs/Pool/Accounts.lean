import Tabular.Proofs.Pool.Usage

/-!
# Tabular.Proofs.Pool.Accounts — where the items of a pool are

The accounts of a pool say how many items are about and that every item is in one place at most: idle, in
the hands of a user, or out of the pool for good.  Main statement: `Kept.step`, every step keeps them.
-/

namespace Tabular.Pool.Usage

open Sharing

variable {ι α : Type} [DecidableEq ι] [DecidableEq α] {resource : String} {waitMs maxSize : Nat}
  {s t : Usage ι α} {i j : ι} {a b : α} {steps : List (UserStep α)}
  {p : UserProgram α (Except StoreError α)} {result : Except StoreError α}

/-! ### Items that are yet to be counted -/

/-- Whether a user was made an item and has yet to count it. -/
abbrev Filling (s : Usage ι α) (i : ι) (a : α) : Prop :=
  s.busy.At (fun steps _ => steps.head? = some (.asked (.call ()) (.ok a))) i

omit [DecidableEq α] in
/-- Only somebody who was just made an item has one to count. -/
theorem filling_of_setBusy (h : (s.setBusy i steps p).Filling j a)
    (hne : steps.head? ≠ some (.asked (.call ()) (.ok a))) : s.Filling j a := by
  by_cases hji : j = i
  · subst hji
    exact absurd (Underway.at_put_self.1 h) hne
  · exact (Underway.at_put_of_ne hji).1 h

/-! ### Where an item is -/

/-- How often an item is idle, in the hands of a user, or out of the pool for good. -/
def places (s : Usage ι α) (a : α) : Nat :=
  s.pool.idle.count a + s.log.out.count a + s.log.broken.count a + s.log.dropped.count a

omit [DecidableEq ι] in
theorem count_erase_of_mem {items : List α} (h : a ∈ items) :
    (items.erase a).count b + (if a = b then 1 else 0) = items.count b := by
  by_cases hab : a = b
  · subst hab
    have hpos : 0 < items.count a := List.count_pos_iff.2 h
    rw [List.count_erase_self, if_pos rfl]
    omega
  · rw [List.count_erase_of_ne (Ne.symm hab), if_neg hab, Nat.add_zero]

/-- An item stays in as many places as it was, unless it is one that is counted for the first time. -/
theorem places_turn (h : Turn resource waitMs s t) (b : α) :
    t.places b = s.places b ∨ ∃ i, s.Filling i b ∧ ¬ t.Filling i b ∧ t.places b = s.places b + 1 := by
  cases h with
  | begin | reserve | giveUp | make | fail | giveBack => exact .inl rfl
  | reuse i hbusy hidle =>
    left
    simp only [places, finish, Log.out, Log.broken, Log.dropped, withOneMore, hidle, List.count_cons]
    omega
  | fill i a hbusy =>
    simp only [places, finish, Log.out, Log.broken, Log.dropped, Pool.fill, List.count_cons]
    by_cases hab : a = b
    · subst hab
      refine .inr ⟨i, ⟨_, _, hbusy, rfl⟩, fun hfilling => (Underway.at_finish.1 hfilling).1 rfl, ?_⟩
      · simp only [beq_self_eq_true, if_true]
        omega
    · left
      simp [hab]
  | checkin a reusable hout =>
    left
    have hcount := count_erase_of_mem (b := b) hout
    cases reusable <;>
      simp only [places, Log.out, Log.broken, Log.dropped, put, List.count_cons, beq_iff_eq, if_true,
        Bool.false_eq_true, if_false] <;>
      omega
  | clear =>
    left
    simp only [places, Log.out, Log.broken, Log.dropped, clearIdle, List.count_append, List.count_nil]
    omega

/-! ### The accounts of a pool -/

/-- The accounts of a pool. -/
structure Kept (resource : String) (waitMs maxSize : Nat) (s : Usage ι α) : Prop where
  maxSize_eq : s.pool.maxSize = maxSize
  /-- Every checkout is where it can be. -/
  stage : s.busy.All fun _ => Stage resource waitMs
  /-- Each slot belongs to an item in the hands of a user or to a user who is creating one. -/
  outstanding : ∃ creators, s.busy.Has (fun steps _ => steps ≠ []) creators ∧
    s.pool.outstanding = s.log.out.length + creators
  room : s.pool.outstanding + s.pool.idle.length ≤ maxSize
  peak_le : s.pool.peak ≤ maxSize
  created : s.pool.created =
    s.log.out.length + s.pool.idle.length + s.pool.discarded + s.log.dropped.length
  once : ∀ a, s.places a ≤ 1
  made : ∀ a, 0 < s.places a → a ∈ s.made
  /-- An item that is yet to be counted is nowhere. -/
  fresh : ∀ i a, s.Filling i a → a ∈ s.made ∧ s.places a = 0
  distinct : ∀ i j a, s.Filling i a → s.Filling j a → i = j
  /-- What is given to a user was not out of the pool for good. -/
  final : ∀ later i a earlier, s.log = later ++ .checkedOut i (.ok a) :: earlier →
    a ∉ Log.broken earlier ∧ a ∉ Log.dropped earlier

namespace Kept

omit [DecidableEq ι] in
theorem start : Kept resource waitMs maxSize (start maxSize : Usage ι α) where
  maxSize_eq := rfl
  stage i steps p h := by cases h
  outstanding := ⟨0, .nobody, rfl⟩
  room := Nat.zero_le _
  peak_le := Nat.zero_le _
  created := rfl
  once a := Nat.zero_le _
  made a h := absurd h (Nat.lt_irrefl 0)
  fresh i a h := absurd h (Underway.not_at_of_none rfl)
  distinct i j a h := absurd h (Underway.not_at_of_none rfl)
  final later i a earlier h := by simp [Usage.start] at h

theorem stage_turn (h : Kept resource waitMs maxSize s) (hturn : Turn resource waitMs s t) :
    t.busy.All fun _ => Stage resource waitMs := by
  cases hturn with
  | begin i hfree => exact h.stage.put .start
  | reserve i hbusy hidle hroom => exact h.stage.put (.making _)
  | make i hbusy a hnew => exact h.stage.put (.filling a _)
  | fail i hbusy e => exact h.stage.put (.givingBack e _)
  | reuse | giveUp | fill | giveBack => exact h.stage.finish
  | checkin | clear => exact h.stage

theorem outstanding_turn (h : Kept resource waitMs maxSize s) (hturn : Turn resource waitMs s t) :
    ∃ creators, t.busy.Has (fun steps _ => steps ≠ []) creators ∧
      t.pool.outstanding = t.log.out.length + creators := by
  obtain ⟨creators, hcreators, heq⟩ := h.outstanding
  have hnot : ∀ {i p}, s.busy i = some ([], p) → ¬ s.Creating i := fun hbusy hcreating =>
    (Underway.at_iff hbusy).1 hcreating rfl
  cases hturn with
  | begin i hfree =>
    exact ⟨creators, hcreators.stay (iff_of_false (Underway.not_at_of_none hfree) (· rfl)), heq⟩
  | reuse i hbusy hidle =>
    refine ⟨creators, hcreators.finish (hnot hbusy), ?_⟩
    simp only [finish, withOneMore, Log.out, List.length_cons]
    omega
  | reserve i hbusy hidle hroom =>
    refine ⟨creators + 1, hcreators.enter (hnot hbusy) (List.cons_ne_nil _ _), ?_⟩
    simp only [setBusy, withOneMore]
    omega
  | giveUp i hbusy hidle hroom => exact ⟨creators, hcreators.finish (hnot hbusy), heq⟩
  | make i hbusy a hnew =>
    exact ⟨creators, hcreators.stay ((Underway.at_iff hbusy).trans (by simp)), heq⟩
  | fail i hbusy e => exact ⟨creators, hcreators.stay ((Underway.at_iff hbusy).trans (by simp)), heq⟩
  | fill i a hbusy =>
    have hcreating : s.Creating i := ⟨_, _, hbusy, List.cons_ne_nil _ _⟩
    have hpos := hcreators.pos hcreating
    refine ⟨creators - 1, hcreators.leave hcreating, ?_⟩
    simp only [finish, Pool.fill, Log.out, List.length_cons]
    omega
  | giveBack i e hbusy =>
    have hcreating : s.Creating i := ⟨_, _, hbusy, List.cons_ne_nil _ _⟩
    have hpos := hcreators.pos hcreating
    refine ⟨creators - 1, hcreators.leave hcreating, ?_⟩
    simp only [finish, Pool.giveBack, Log.out]
    omega
  | checkin a reusable hout =>
    refine ⟨creators, hcreators, ?_⟩
    have hpos : 0 < s.log.out.length := List.length_pos_of_mem hout
    have hlength := List.length_erase_of_mem hout
    cases reusable <;> simp only [put, Log.out, if_true, Bool.false_eq_true, if_false] <;> omega
  | clear => exact ⟨creators, hcreators, heq⟩

theorem maxSize_turn (hturn : Turn resource waitMs s t) : t.pool.maxSize = s.pool.maxSize := by
  cases hturn with
  | checkin a reusable hout => cases reusable <;> rfl
  | _ => rfl

theorem room_turn (h : Kept resource waitMs maxSize s) (hturn : Turn resource waitMs s t) :
    t.pool.outstanding + t.pool.idle.length ≤ maxSize := by
  have hroom := h.room
  cases hturn with
  | begin | giveUp | make | fail | fill => exact hroom
  | reuse i hbusy hidle =>
    simp only [hidle, List.length_cons] at hroom
    simp only [finish, withOneMore]
    omega
  | reserve i hbusy hidle hfree =>
    rw [hasRoom, h.maxSize_eq] at hfree
    simp only [setBusy, withOneMore]
    omega
  | giveBack i e hbusy =>
    simp only [finish, Pool.giveBack]
    omega
  | checkin a reusable hout =>
    obtain ⟨creators, -, heq⟩ := h.outstanding
    have hpos : 0 < s.log.out.length := List.length_pos_of_mem hout
    cases reusable <;> simp only [put, if_true, Bool.false_eq_true, if_false, List.length_cons] <;> omega
  | clear =>
    simp only [clearIdle, List.length_nil]
    omega

/-- No more items were in use at once than are now, or were before. -/
theorem peak_turn (h : Kept resource waitMs maxSize s) (hturn : Turn resource waitMs s t) :
    t.pool.peak ≤ maxSize := by
  have hpeak := h.peak_le
  have hroom := h.room
  cases hturn with
  | begin | giveUp | make | fail | fill | giveBack | clear => exact hpeak
  | reuse i hbusy hidle =>
    simp only [hidle, List.length_cons] at hroom
    simp only [finish, withOneMore]
    omega
  | reserve i hbusy hidle hfree =>
    rw [hasRoom, h.maxSize_eq] at hfree
    simp only [setBusy, withOneMore]
    omega
  | checkin a reusable hout => cases reusable <;> exact hpeak

theorem created_turn (h : Kept resource waitMs maxSize s) (hturn : Turn resource waitMs s t) :
    t.pool.created = t.log.out.length + t.pool.idle.length + t.pool.discarded + t.log.dropped.length := by
  have hcreated := h.created
  cases hturn with
  | begin | reserve | giveUp | make | fail | giveBack => exact hcreated
  | reuse i hbusy hidle =>
    simp only [hidle, List.length_cons] at hcreated
    simp only [finish, withOneMore, Log.out, Log.dropped, List.length_cons]
    omega
  | fill i a hbusy =>
    simp only [finish, Pool.fill, Log.out, Log.dropped, List.length_cons]
    omega
  | checkin a reusable hout =>
    have hpos : 0 < s.log.out.length := List.length_pos_of_mem hout
    have hlength := List.length_erase_of_mem hout
    cases reusable <;>
      simp only [put, Log.out, Log.dropped, if_true, Bool.false_eq_true, if_false, List.length_cons] <;>
      omega
  | clear =>
    simp only [clearIdle, Log.out, Log.dropped, List.length_append, List.length_nil]
    omega

theorem made_subset (hturn : Turn resource waitMs s t) : s.made ⊆ t.made := by
  cases hturn with
  | make i hbusy a hnew => exact List.subset_cons_self _ _
  | _ => exact List.Subset.refl _

/-- Whoever has an item to count had it before, or it has just been made. -/
theorem filling_turn (hturn : Turn resource waitMs s t) (hfilling : t.Filling j b) :
    s.Filling j b ∨ b ∉ s.made ∧ b ∈ t.made ∧ t.places b = s.places b ∧
      ∀ k, k ≠ j → t.Filling k b → s.Filling k b := by
  cases hturn with
  | begin i hfree => exact .inl (filling_of_setBusy hfilling nofun)
  | reserve i hbusy hidle hroom => exact .inl (filling_of_setBusy hfilling nofun)
  | fail i hbusy e => exact .inl (filling_of_setBusy hfilling nofun)
  | make i hbusy a hnew =>
    by_cases hji : j = i
    · subst hji
      cases Underway.at_put_self.1 hfilling
      exact .inr ⟨hnew, List.mem_cons_self, rfl, fun k hk => (Underway.at_put_of_ne hk).1⟩
    · exact .inl ((Underway.at_put_of_ne hji).1 hfilling)
  | reuse | giveUp | fill | giveBack => exact .inl (Underway.at_finish.1 hfilling).2
  | checkin | clear => exact .inl hfilling

theorem once_turn (h : Kept resource waitMs maxSize s) (hturn : Turn resource waitMs s t) (a : α) :
    t.places a ≤ 1 := by
  rcases places_turn hturn a with heq | ⟨i, hfilling, -, heq⟩
  · exact heq ▸ h.once a
  · rw [heq, (h.fresh i a hfilling).2]

theorem made_turn (h : Kept resource waitMs maxSize s) (hturn : Turn resource waitMs s t) (a : α)
    (hpos : 0 < t.places a) : a ∈ t.made := by
  rcases places_turn hturn a with heq | ⟨i, hfilling, -, -⟩
  · exact made_subset hturn (h.made a (heq ▸ hpos))
  · exact made_subset hturn (h.fresh i a hfilling).1

theorem fresh_turn (h : Kept resource waitMs maxSize s) (hturn : Turn resource waitMs s t) (i : ι) (a : α)
    (hfilling : t.Filling i a) : a ∈ t.made ∧ t.places a = 0 := by
  rcases filling_turn hturn hfilling with hbefore | ⟨hnew, hmade, heq, -⟩
  · obtain ⟨hmade, hzero⟩ := h.fresh i a hbefore
    refine ⟨made_subset hturn hmade, ?_⟩
    rcases places_turn hturn a with heq | ⟨k, hcounted, hnot, -⟩
    · rw [heq, hzero]
    · exact absurd (h.distinct k i a hcounted hbefore ▸ hfilling) hnot
  · refine ⟨hmade, ?_⟩
    rw [heq]
    exact Nat.eq_zero_of_not_pos fun hpos => hnew (h.made a hpos)

theorem distinct_turn (h : Kept resource waitMs maxSize s) (hturn : Turn resource waitMs s t) (i j : ι)
    (a : α) (hi : t.Filling i a) (hj : t.Filling j a) : i = j := by
  rcases filling_turn hturn hi with hi' | ⟨hnew, -, -, hothers⟩
  · rcases filling_turn hturn hj with hj' | ⟨hnew, -, -, hothers⟩
    · exact h.distinct i j a hi' hj'
    · exact absurd (h.fresh i a hi').1 hnew
  · by_contra hne
    exact hnew (h.fresh j a (hothers j (Ne.symm hne) hj)).1

/-- What a step gives to a user was idle, or has yet to be counted. -/
theorem given_turn (hturn : Turn resource waitMs s t) :
    t.log = s.log ∨ ∃ entry, t.log = entry :: s.log ∧
      ∀ i a, entry = .checkedOut i (.ok a) → a ∈ s.pool.idle ∨ s.Filling i a := by
  cases hturn with
  | begin | reserve | make | fail => exact .inl rfl
  | reuse i hbusy hidle =>
    refine .inr ⟨_, rfl, fun _ _ heq => ?_⟩
    cases heq
    exact .inl (hidle ▸ List.mem_cons_self)
  | fill i a hbusy =>
    refine .inr ⟨_, rfl, fun _ _ heq => ?_⟩
    cases heq
    exact .inr ⟨_, _, hbusy, rfl⟩
  | giveUp | giveBack | checkin | clear => exact .inr ⟨_, rfl, nofun⟩

omit [DecidableEq ι] in
/-- What is idle, or has yet to be counted, is not out of the pool for good. -/
theorem not_gone (h : Kept resource waitMs maxSize s) (hgiven : a ∈ s.pool.idle ∨ s.Filling i a) :
    a ∉ s.log.broken ∧ a ∉ s.log.dropped := by
  rw [← List.count_eq_zero, ← List.count_eq_zero]
  rcases hgiven with hidle | hfilling
  · have hpos : 0 < s.pool.idle.count a := List.count_pos_iff.2 hidle
    have honce := h.once a
    unfold places at honce
    omega
  · have hzero := (h.fresh i a hfilling).2
    unfold places at hzero
    omega

theorem final_turn (h : Kept resource waitMs maxSize s) (hturn : Turn resource waitMs s t)
    (later : Log ι α) (i : ι) (a : α) (earlier : Log ι α)
    (hlog : t.log = later ++ .checkedOut i (.ok a) :: earlier) :
    a ∉ earlier.broken ∧ a ∉ earlier.dropped := by
  rcases given_turn hturn with heq | ⟨entry, heq, hgiven⟩
  · exact h.final later i a earlier (heq ▸ hlog)
  · rw [heq] at hlog
    cases later with
    | nil =>
      obtain ⟨hentry, rfl⟩ := List.cons.inj hlog
      exact h.not_gone (hgiven i a hentry)
    | cons entry' later => exact h.final later i a earlier (List.cons.inj hlog).2

/-- Every step keeps the accounts. -/
theorem step (h : Kept resource waitMs maxSize s) (hnext : Next resource waitMs s t) :
    Kept resource waitMs maxSize t := by
  have hturn := hnext.turn h.stage
  exact {
    maxSize_eq := (maxSize_turn hturn).trans h.maxSize_eq
    stage := h.stage_turn hturn
    outstanding := h.outstanding_turn hturn
    room := h.room_turn hturn
    peak_le := h.peak_turn hturn
    created := h.created_turn hturn
    once := h.once_turn hturn
    made := h.made_turn hturn
    fresh := h.fresh_turn hturn
    distinct := h.distinct_turn hturn
    final := h.final_turn hturn }

end Kept

theorem kept_of_reaches (h : Reaches resource waitMs (start maxSize) s) :
    Kept resource waitMs maxSize s := by
  induction h with
  | refl => exact Kept.start
  | tail _ hnext ih => exact ih.step hnext

end Tabular.Pool.Usage
