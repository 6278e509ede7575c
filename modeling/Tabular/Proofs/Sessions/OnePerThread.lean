import Tabular.Proofs.Sessions.Slots

/-!
# Tabular.Proofs.Sessions.OnePerThread — a session per thread

Main statement: `one_per_thread`, what it comes to that a process remembers of its threads what they have
done: each thread has one session at a time, and the process knows how many there are.
-/

namespace Tabular.ThreadSessions.Process

open Sharing

variable {s t : Process} {i : Nat} {steps : List ThreadStep} {p : ThreadProgram (Except StoreError Nat)}

/-- An acquisition by a thread whose session is lent changes nothing. -/
theorem Sound.unchanged (h : Sound s) (hturn : Turn s t) (hlent : (s.log i).lent ≠ [])
    (hmoves : t.busy i ≠ s.busy i) :
    t.sessions = s.sessions ∧ t.opened = s.opened ∧ (t.log i).lent = (s.log i).lent := by
  cases hturn with
  | begin j hfree => exact ⟨rfl, rfl, rfl⟩
  | refuse j hbusy hslot =>
    obtain rfl := Underway.eq_of_finish_ne hmoves
    exact ⟨lend_eq_self hslot, rfl, (congrArg Log.lent log_note_self).trans rfl⟩
  | reuse j hbusy hslot =>
    obtain rfl := Underway.eq_of_finish_ne hmoves
    exact absurd ((h.proper i).lent_of_kept _ (h.kept_of_slot hbusy hslot)) hlent
  | reserve j hbusy hslot =>
    obtain rfl := Underway.eq_of_put_ne hmoves
    rw [h.slot_of_start hbusy] at hslot
    rcases Log.slot_eq_none.1 hslot with hnot | ⟨-, hnone⟩
    · rw [h.running hbusy] at hnot
      cases hnot
    · exact absurd hnone hlent
  | connect j hbusy | fail j hbusy =>
    obtain rfl := Underway.eq_of_put_ne hmoves
    exact absurd (h.none_of_begun hbusy (List.cons_ne_nil _ _)).1 hlent
  | count j session hbusy | close j e hbusy =>
    obtain rfl := Underway.eq_of_finish_ne hmoves
    exact absurd (h.none_of_begun hbusy (List.cons_ne_nil _ _)).1 hlent
  | giveBack | discard | exit => exact absurd rfl hmoves

theorem Sound.not_owns_of_begun (h : Sound s) (hbegun : s.busy.Begun i) : ¬ s.Owns i := by
  obtain ⟨steps, p, hbusy, hsteps⟩ := hbegun
  obtain ⟨hlent, hkept⟩ := h.none_of_begun hbusy hsteps
  rintro ⟨-, hnot | hnot⟩
  · exact hnot hlent
  · exact hnot hkept

/-- The threads with a slot are those that have a session and those for which one is being opened. -/
theorem Sound.mem_slots (h : Sound s) : i ∈ s.sessions.slots ↔ s.Owns i ∨ s.busy.Begun i := by
  rw [Std.ExtTreeMap.mem_iff_isSome_getElem?]
  cases h.inLine i with
  | free hfree hslot =>
    rw [hslot, Log.isSome_slot, or_iff_left (Underway.not_at_of_none hfree), Owns]
  | started hbusy hruns hslot =>
    have hnot : ¬ s.busy.Begun i := fun hbegun => (Underway.at_iff hbusy).1 hbegun rfl
    rw [hslot, Log.isSome_slot, or_iff_left hnot, Owns]
  | begun hbusy hsteps hruns hnone hslot =>
    rw [hslot]
    exact iff_of_true rfl (.inr ⟨_, _, hbusy, hsteps⟩)

theorem Sound.live_eq (h : Sound s) :
    (s.sessions.live : ℕ∞) = {i | s.Owns i}.encard + {i | s.busy.Begun i}.encard := by
  have hdisjoint : Disjoint {i | s.Owns i} {i | s.busy.Begun i} :=
    Set.disjoint_left.2 fun i howns hbegun => h.not_owns_of_begun hbegun howns
  rw [live_eq_encard, ← Set.encard_union_eq hdisjoint]
  exact congrArg Set.encard (Set.ext fun i => h.mem_slots)

theorem Sound.opened_eq (h : Sound s) :
    (s.sessions.opened : ℕ∞) + {i | ∃ a, s.Counting i a}.encard = s.opened.length := by
  obtain ⟨n, hn, heq⟩ := h.counted
  have hset : {i | ∃ a, s.Counting i a} =
      {i | s.busy.At (fun steps _ => ∃ a, steps.head? = some (.asked (.call .connect) (.ok a))) i} := by
    ext i
    constructor
    · rintro ⟨a, steps, p, hbusy, hhead⟩
      exact ⟨steps, p, hbusy, a, hhead⟩
    · rintro ⟨steps, p, hbusy, a, hhead⟩
      exact ⟨a, steps, p, hbusy, hhead⟩
  rw [hset, hn.encard_eq, ← heq, Nat.cast_add]

/-- An acquisition takes three steps at most, and waits for nobody. -/
theorem Sound.goes_on (h : Sound s) (hbusy : s.busy i = some (steps, p)) :
    steps.length ≤ 2 ∧ ∃ t, Next s t ∧ t.busy i ≠ s.busy i := by
  have hmoves : ∀ {u : Process} {step q}, u.busy = s.busy →
      (goOn u i (step :: steps) q).busy i ≠ s.busy i := by
    intro u step q hu
    rw [hbusy]
    cases q with
    | done result => simp [goOn, finish, Underway.finish_self]
    | act x next => simp [goOn, setBusy, Underway.put_self]
    | ask r next => simp [goOn, setBusy, Underway.put_self]
  cases h.stage i steps p hbusy with
  | start => exact ⟨Nat.zero_le _, _, .access i hbusy (.asked _ _ _), hmoves rfl⟩
  | opening before =>
    have hnew : ∀ session, (.error (.connection "refused") : Except StoreError Nat) = .ok session →
        session ∉ s.opened := by
      intro session hok
      cases hok
    exact ⟨Nat.le_succ 1, _, .connect i hbusy (.asked _ _ _) hnew, hmoves rfl⟩
  | counting session before => exact ⟨Nat.le_refl 2, _, .access i hbusy (.asked _ _ _), hmoves rfl⟩
  | closing e before => exact ⟨Nat.le_refl 2, _, .access i hbusy (.asked _ _ _), hmoves rfl⟩

/-- A thread for which no session could be opened has none. -/
theorem Sound.none_of_failed (h : Sound s) {e : StoreError} {earlier : Log}
    (hlog : s.log i = .acquired steps (.error e) :: earlier) (hconnects : connects steps ≠ [])
    (hbegun : ¬ s.busy.Begun i) : i ∉ s.sessions.slots ∧ ¬ s.Owns i := by
  have hfits : Log.Fits i earlier steps (.error e) := (hlog ▸ (h.proper i).fits).1
  have howns : ¬ s.Owns i := by
    rintro ⟨-, hhas⟩
    rw [hlog] at hhas
    rcases hhas with hlent | hkept
    · exact hconnects (hfits.of_lent hlent).2
    · obtain ⟨session, hsession⟩ := Option.ne_none_iff_exists'.1 hkept
      exact hconnects (hfits.of_kept session hsession).2
  exact ⟨fun hmem => (h.mem_slots.1 hmem).elim howns hbegun, howns⟩

/-- **Each thread has one session at a time.**  Whatever threads do, in any order: an acquisition by a
thread whose session is lent fails and changes nothing; a thread that has given its session back is lent
the same again; any other acquisition comes to the answer to one call for a session, and a thread for which
none could be opened has none; no session is lent to two threads, or after it broke; the process counts the
running threads that have a session, or for which one is being opened, and all sessions that were opened;
and an acquisition waits for nobody. -/
theorem one_per_thread (h : Reaches start s) :
    (∀ i, (s.log i).lent.length ≤ 1) ∧
      (∀ i later steps result earlier, s.log i = later ++ .acquired steps result :: earlier →
        Log.Fits i earlier steps result) ∧
      (∀ i t, Next s t → (s.log i).lent ≠ [] → t.busy i ≠ s.busy i →
        t.sessions = s.sessions ∧ t.opened = s.opened ∧ (t.log i).lent = (s.log i).lent) ∧
      (∀ i steps e earlier, s.log i = .acquired steps (.error e) :: earlier → connects steps ≠ [] →
        ¬ s.busy.Begun i → i ∉ s.sessions.slots ∧ ¬ s.Owns i) ∧
      (∀ i j a, s.Borrowed i a → s.Borrowed j a → i = j) ∧
      ((s.sessions.live : ℕ∞) = {i | s.Owns i}.encard + {i | s.busy.Begun i}.encard ∧
        (s.sessions.opened : ℕ∞) + {i | ∃ a, s.Counting i a}.encard = s.opened.length) ∧
      ((∀ i, s.busy i = none) →
        (s.sessions.live : ℕ∞) = {i | s.Owns i}.encard ∧ s.sessions.opened = s.opened.length) ∧
      ∀ i steps p, s.busy i = some (steps, p) →
        steps.length ≤ 2 ∧ ∃ t, Next s t ∧ t.busy i ≠ s.busy i := by
  have hsound := sound_of_reaches h
  refine ⟨fun i => (hsound.proper i).lent_le, fun i later steps result earlier hlog => ?_,
    fun i t hnext => hsound.unchanged (hnext.turn hsound.stage), fun i steps e earlier => hsound.none_of_failed,
    hsound.owner, ⟨hsound.live_eq, hsound.opened_eq⟩, fun hfree => ?_,
    fun i steps p => hsound.goes_on⟩
  · exact (hlog ▸ (hsound.proper i).fits).fits
  · have hnobody : ∀ place, {i | s.busy.At place i} = ∅ := fun place =>
      Set.eq_empty_iff_forall_notMem.2 fun i => Underway.not_at_of_none (hfree i)
    obtain ⟨n, hn, heq⟩ := hsound.counted
    have hzero := hn.encard_eq
    rw [hnobody, Set.encard_empty, eq_comm, Nat.cast_eq_zero] at hzero
    rw [hsound.live_eq, hnobody, Set.encard_empty, add_zero]
    exact ⟨rfl, by omega⟩

/-- Two threads: the first gets a new session, is refused another one, gives its own back, is lent it again,
and it breaks; for the second none can be opened. -/
theorem reaches_broken : ∃ s : Process,
    Reaches start s ∧ (∀ i, s.busy i = none) ∧ s.Borrowed 1 7 ∧ s.opened = [7] ∧
      ∃ steps, s.log 2 = [.acquired steps (.error (.connection "refused"))] ∧ connects steps ≠ [] := by
  have first : Reaches start _ :=
    (((Relation.ReflTransGen.refl.tail (.begin 1 rfl rfl)).tail (.access 1 rfl (.asked _ _ _))).tail
      (.connect 1 rfl (.asked _ _ (.ok 7)) (fun _ _ => List.not_mem_nil))).tail
      (.access 1 rfl (.asked _ _ _))
  have second : Reaches start _ :=
    ((first.tail (.begin 1 rfl rfl)).tail (.access 1 rfl (.asked _ _ _))).tail
      (.release 1 7 true rfl List.mem_cons_self (.asked _ _ _))
  have third : Reaches start _ :=
    ((second.tail (.begin 1 rfl rfl)).tail (.access 1 rfl (.asked _ _ _))).tail
      (.release 1 7 false rfl List.mem_cons_self (.asked _ _ _))
  have fourth : Reaches start _ :=
    (((third.tail (.begin 2 rfl rfl)).tail (.access 2 rfl (.asked _ _ _))).tail
      (.connect 2 rfl (.asked _ _ (.error (.connection "refused"))) nofun)).tail
      (.access 2 rfl (.asked _ _ _))
  refine ⟨_, fourth, fun i => ?_, ⟨_, .tail _ (.head _)⟩, rfl, _, rfl, nofun⟩
  match i with
  | 0 | 1 | 2 | _ + 3 => rfl

/-- The session that broke was lent to the first thread only, the second thread has none, and the process
counts one that was opened. -/
theorem one_per_thread_broken : ∃ s : Process,
    Reaches start s ∧ s.Borrowed 1 7 ∧ (∀ i, s.Borrowed i 7 → i = 1) ∧ 2 ∉ s.sessions.slots ∧
      s.sessions.opened = 1 ∧ (s.sessions.live : ℕ∞) = {i | s.Owns i}.encard := by
  obtain ⟨s, hs, hfree, hfirst, hopened, steps, hsecond, hconnects⟩ := reaches_broken
  obtain ⟨-, -, -, hfailed, howner, -, hcounts, -⟩ := one_per_thread hs
  obtain ⟨hlive, hcount⟩ := hcounts hfree
  refine ⟨s, hs, hfirst, fun i hi => howner i 1 7 hi hfirst, ?_, by rw [hcount, hopened]; rfl, hlive⟩
  exact (hfailed 2 steps _ _ hsecond hconnects (Underway.not_at_of_none (hfree 2))).1

end Tabular.ThreadSessions.Process
