import Tabular.Proofs.Pool.Accounts

/-!
# Tabular.Proofs.Pool.Conservation — pools are bounded and lose nothing

Main statements: `items_conserved`, what the accounts of a pool come to, whatever its users do and in any
order, and what each single step may do to the pool.
-/

namespace Tabular.Pool.Usage

open Sharing

variable {ι α : Type} [DecidableEq ι] [DecidableEq α] {resource : String} {waitMs maxSize : Nat}
  {s t : Usage ι α} {i j : ι} {steps : List (UserStep α)} {p : UserProgram α (Except StoreError α)}

/-! ### What a step does to the pool -/

/-- Whether the making of an item for a user has just failed. -/
def Failed (s : Usage ι α) (i : ι) (e : StoreError) : Prop :=
  s.busy.At (fun steps _ => steps.head? = some (.asked (.call ()) (.error e))) i

/-- Whether a step starts to create an item only when none is idle, leaves the pool alone while one is
being created, gives the slot back of one that could not be made, and fails a checkout only then or if the
pool is full of items in use. -/
structure Proper (resource : String) (waitMs maxSize : Nat) (s t : Usage ι α) : Prop where
  starts : ∀ i, ¬ s.Creating i → t.Creating i →
    s.pool.idle = [] ∧ s.pool.outstanding < maxSize ∧
      t.pool = { s.pool with
        outstanding := s.pool.outstanding + 1, peak := max s.pool.peak (s.pool.outstanding + 1) }
  creates : ∀ i, s.Creating i → t.Creating i → t.busy i ≠ s.busy i → t.pool = s.pool
  givesBack : ∀ i e, s.Failed i e → t.busy i ≠ s.busy i →
    t.log = .checkedOut i (.error e) :: s.log ∧ 0 < s.pool.outstanding ∧
      t.pool = { s.pool with outstanding := s.pool.outstanding - 1 }
  fails : ∀ i e, t.log = .checkedOut i (.error e) :: s.log →
    s.Failed i e ∨
    (¬ s.Creating i ∧ e = .poolTimeout resource waitMs ∧ s.pool.idle = [] ∧
      s.pool.outstanding = maxSize ∧ t.pool = { s.pool with timeouts := s.pool.timeouts + 1 })

namespace Kept

theorem starts (h : Kept resource waitMs maxSize s) (hturn : Turn resource waitMs s t)
    (hnot : ¬ s.Creating i) (hcreating : t.Creating i) :
    s.pool.idle = [] ∧ s.pool.outstanding < maxSize ∧ t.pool = s.pool.withOneMore := by
  have hself : ∀ {j steps p}, (s.busy.put j steps p).Begun i → i = j := fun hbegun =>
    by_contra fun hij => hnot ((Underway.at_put_of_ne hij).1 hbegun)
  cases hturn with
  | begin j hfree =>
    obtain rfl := hself hcreating
    exact absurd rfl (Underway.at_put_self.1 hcreating)
  | reserve j hbusy hidle hroom =>
    rw [hasRoom, hidle, h.maxSize_eq] at hroom
    exact ⟨hidle, hroom, rfl⟩
  | make j hbusy a hnew =>
    obtain rfl := hself hcreating
    exact absurd ⟨_, _, hbusy, List.cons_ne_nil _ _⟩ hnot
  | fail j hbusy e =>
    obtain rfl := hself hcreating
    exact absurd ⟨_, _, hbusy, List.cons_ne_nil _ _⟩ hnot
  | reuse | giveUp | fill | giveBack => exact absurd (Underway.at_finish.1 hcreating).2 hnot
  | checkin | clear => exact absurd hcreating hnot

end Kept

/-- Whoever creates an item leaves the pool alone until the item is there, or is not to be had. -/
theorem pool_eq_of_creating (hturn : Turn resource waitMs s t) (hcreating : s.Creating i)
    (hstill : t.Creating i) (hmoves : t.busy i ≠ s.busy i) : t.pool = s.pool := by
  cases hturn with
  | begin | make | fail => rfl
  | reserve j hbusy hidle hroom =>
    obtain rfl := Underway.eq_of_put_ne hmoves
    exact absurd rfl ((Underway.at_iff hbusy).1 hcreating)
  | reuse | giveUp | fill | giveBack =>
    exact absurd (Underway.finish_of_ne (Underway.at_finish.1 hstill).1) hmoves
  | checkin | clear => exact absurd rfl hmoves

namespace Kept

omit [DecidableEq ι] in
theorem outstanding_pos (h : Kept resource waitMs maxSize s) (hcreating : s.Creating i) :
    0 < s.pool.outstanding := by
  obtain ⟨creators, hcreators, heq⟩ := h.outstanding
  have hpos := hcreators.pos hcreating
  omega

theorem givesBack (h : Kept resource waitMs maxSize s) (hturn : Turn resource waitMs s t) {e : StoreError}
    (hfailed : s.Failed i e) (hmoves : t.busy i ≠ s.busy i) :
    t.log = .checkedOut i (.error e) :: s.log ∧ 0 < s.pool.outstanding ∧ t.pool = s.pool.giveBack := by
  cases hturn with
  | giveBack j e' hbusy =>
    obtain rfl := Underway.eq_of_finish_ne hmoves
    cases (Underway.at_iff hbusy).1 hfailed
    exact ⟨rfl, h.outstanding_pos ⟨_, _, hbusy, List.cons_ne_nil _ _⟩, rfl⟩
  | begin j hfree =>
    obtain rfl := Underway.eq_of_put_ne hmoves
    exact absurd hfailed (Underway.not_at_of_none hfree)
  | reserve j hbusy | make j hbusy | fail j hbusy =>
    obtain rfl := Underway.eq_of_put_ne hmoves
    cases (Underway.at_iff hbusy).1 hfailed
  | reuse j hbusy | giveUp j hbusy | fill j a hbusy =>
    obtain rfl := Underway.eq_of_finish_ne hmoves
    cases (Underway.at_iff hbusy).1 hfailed
  | checkin | clear => exact absurd rfl hmoves

theorem fails (h : Kept resource waitMs maxSize s) (hturn : Turn resource waitMs s t) {e : StoreError}
    (hlog : t.log = .checkedOut i (.error e) :: s.log) :
    s.Failed i e ∨
    (¬ s.Creating i ∧ e = .poolTimeout resource waitMs ∧ s.pool.idle = [] ∧
      s.pool.outstanding = maxSize ∧ t.pool = { s.pool with timeouts := s.pool.timeouts + 1 }) := by
  cases hturn with
  | giveBack j e' hbusy =>
    cases (List.cons.inj hlog).1
    exact .inl ⟨_, _, hbusy, rfl⟩
  | giveUp j hbusy hidle hroom =>
    cases (List.cons.inj hlog).1
    have hbound := h.room
    rw [hasRoom, h.maxSize_eq] at hroom
    rw [hidle, List.length_nil] at hroom hbound
    exact .inr ⟨fun hcreating => (Underway.at_iff hbusy).1 hcreating rfl, rfl, hidle, by omega, rfl⟩
  | reuse | fill | checkin | clear => cases (List.cons.inj hlog).1
  | begin | reserve | make | fail => exact absurd hlog.symm (List.cons_ne_self _ _)

theorem proper (h : Kept resource waitMs maxSize s) (hnext : Next resource waitMs s t) :
    Proper resource waitMs maxSize s t where
  starts _ := h.starts (hnext.turn h.stage)
  creates _ := pool_eq_of_creating (hnext.turn h.stage)
  givesBack _ _ := h.givesBack (hnext.turn h.stage)
  fails _ _ := h.fails (hnext.turn h.stage)

omit [DecidableEq ι] in
/-- No item is in two hands, or in a hand and idle. -/
theorem nodup (h : Kept resource waitMs maxSize s) : (s.log.out ++ s.pool.idle).Nodup := by
  rw [List.nodup_iff_count_le_one]
  intro a
  have honce := h.once a
  unfold places at honce
  rw [List.count_append]
  omega

omit [DecidableEq ι] in
theorem outstanding_eq (h : Kept resource waitMs maxSize s) :
    (s.pool.outstanding : ℕ∞) = s.log.out.length + {i | s.Creating i}.encard := by
  obtain ⟨creators, hcreators, heq⟩ := h.outstanding
  rw [heq, hcreators.encard_eq, Nat.cast_add]

end Kept

/-- **A pool never has more items than it may, and knows where they are.**  Whatever users do, in any
order: the items that are in use, being made or idle are at most `maxSize` at any time; those counted as
outstanding are the ones in the hands of users and the ones being made; no item is in two places; an item
that was returned as one that cannot be used again, or dropped while idle, is never given to a user again;
whatever was created is in a hand, idle, discarded or dropped; and every step is proper. -/
theorem items_conserved (h : Reaches resource waitMs (start maxSize) s) :
    (s.pool.outstanding + s.pool.idle.length ≤ maxSize ∧ s.pool.peak ≤ maxSize) ∧
      (s.pool.outstanding : ℕ∞) = s.log.out.length + {i | s.Creating i}.encard ∧
      (s.log.out ++ s.pool.idle).Nodup ∧
      (∀ later i a earlier, s.log = later ++ .checkedOut i (.ok a) :: earlier →
        .checkedIn a false ∉ earlier ∧ ∀ items, .cleared items ∈ earlier → a ∉ items) ∧
      s.pool.created =
        s.log.out.length + s.pool.idle.length + s.pool.discarded + s.log.dropped.length ∧
      ∀ t, Next resource waitMs s t → Proper resource waitMs maxSize s t := by
  have hkept := kept_of_reaches h
  refine ⟨⟨hkept.room, hkept.peak_le⟩, hkept.outstanding_eq, hkept.nodup, ?_, hkept.created,
    fun t => hkept.proper⟩
  intro later i a earlier hlog
  obtain ⟨hbroken, hdropped⟩ := hkept.final later i a earlier hlog
  exact ⟨fun hmem => hbroken (Log.mem_broken.2 hmem),
    fun items hmem ha => hdropped (Log.mem_dropped.2 ⟨items, hmem, ha⟩)⟩

/-- Two users of a pool of one item: the first gets a new one, the second waits in vain; the item comes back
broken, and no other can be made. -/
theorem reaches_broken : ∃ s : Usage Nat Nat,
    Reaches "client" 5 (start 1) s ∧
      s.log = [.checkedOut 1 (.error (.connection "refused")), .checkedIn 7 false,
        .checkedOut 1 (.error (.poolTimeout "client" 5)), .checkedOut 0 (.ok 7)] ∧
      s.pool = { maxSize := 1, created := 1, discarded := 1, timeouts := 1, peak := 1 } := by
  have first : Reaches "client" 5 (start 1 : Usage Nat Nat) _ :=
    (((Relation.ReflTransGen.refl.tail (.begin 0 rfl)).tail (.access 0 rfl (.asked _ _ _))).tail
      (.make 0 rfl (.asked _ _ (.ok 7)) (fun _ _ => List.not_mem_nil))).tail
      (.access 0 rfl (.asked _ _ _))
  have second : Reaches "client" 5 (start 1 : Usage Nat Nat) _ :=
    ((first.tail (.begin 1 rfl)).tail (.access 1 rfl (.asked _ _ _))).tail
      (.checkin 7 false List.mem_cons_self (.asked _ _ _))
  have third : Reaches "client" 5 (start 1 : Usage Nat Nat) _ :=
    (((second.tail (.begin 1 rfl)).tail (.access 1 rfl (.asked _ _ _))).tail
      (.make 1 rfl (.asked _ _ (.error (.connection "refused"))) nofun)).tail
      (.access 1 rfl (.asked _ _ _))
  exact ⟨_, third, rfl, rfl⟩

/-- Of the item that broke nothing is left, the item that could not be made has no slot, and whatever comes
next is proper. -/
theorem items_conserved_broken : ∃ s : Usage Nat Nat,
    Reaches "client" 5 (start 1) s ∧ s.log.out = [] ∧ s.pool.idle = [] ∧ s.pool.created = 1 ∧
      s.pool.discarded = 1 ∧ s.pool.timeouts = 1 ∧ s.pool.outstanding = 0 ∧
      (0 : ℕ∞) = 0 + {i | s.Creating i}.encard ∧ ∀ t, Next "client" 5 s t → Proper "client" 5 1 s t := by
  obtain ⟨s, hs, hlog, hpool⟩ := reaches_broken
  obtain ⟨-, houtstanding, -, -, -, hproper⟩ := items_conserved hs
  rw [hlog, hpool] at houtstanding
  refine ⟨s, hs, ?_, ?_, ?_, ?_, ?_, ?_, houtstanding, hproper⟩
  · rw [hlog]
    rfl
  all_goals rw [hpool]

end Tabular.Pool.Usage
