import Tabular.Proofs.Sessions.Borrowing

/-!
# Tabular.Proofs.Sessions.Slots — what a process remembers of its threads

Main statement: `Sound.step`, every step of a process keeps what is remembered of its threads in line with
what they have done.
-/

namespace Tabular.ThreadSessions

open Sharing

/-! ### The sessions -/

section Slots

variable {s : ThreadSessions} {i j session : Nat}

theorem slot_lend : (s.lend i).slots[j]? = if i = j then some none else s.slots[j]? := by
  simp [lend, Std.ExtTreeMap.getElem?_insert]

theorem slot_close : (s.close i).slots[j]? = if i = j then none else s.slots[j]? := by
  simp [close, Std.ExtTreeMap.getElem?_erase]

theorem slot_giveBack :
    (s.giveBack i session).slots[j]? =
      if i = j then s.slots[i]?.map fun _ => some session else s.slots[j]? := by
  unfold giveBack
  split
  · rename_i hmem
    obtain ⟨slot, hslot⟩ := Option.isSome_iff_exists.1 (Std.ExtTreeMap.mem_iff_isSome_getElem?.1 hmem)
    simp [Std.ExtTreeMap.getElem?_insert, hslot]
  · rename_i hmem
    split
    · rename_i hij
      rw [← hij, Std.ExtTreeMap.getElem?_eq_none hmem]
      rfl
    · rfl

/-- A session that is lent already is not lent again. -/
theorem lend_eq_self (h : s.slots[i]? = some none) : s.lend i = s := by
  have hslots : (s.lend i).slots = s.slots := by
    refine Std.ExtTreeMap.ext_getElem? fun j => ?_
    rw [slot_lend]
    split
    · rename_i hij
      rw [← hij, h]
    · rfl
  calc s.lend i = ⟨(s.lend i).slots, s.opened⟩ := rfl
    _ = s := by rw [hslots]

/-- As many threads have a session as are counted. -/
theorem live_eq_encard : (s.live : ℕ∞) = {i | i ∈ s.slots}.encard := by
  have hset : {i | i ∈ s.slots} = ↑s.slots.keys.toFinset := by
    ext i
    simp
  rw [hset, Set.encard_coe_eq_coe_finsetCard, List.toFinset_card_of_nodup Std.ExtTreeMap.nodup_keys,
    Std.ExtTreeMap.length_keys, live]

end Slots

namespace Process

variable {s t : Process} {i j a b : Nat} {entry : Entry} {steps : List ThreadStep}
  {p : ThreadProgram (Except StoreError Nat)}

theorem log_note_self : (s.note i entry).log i = entry :: s.log i := Function.update_self ..

theorem log_note_of_ne (h : j ≠ i) : (s.note i entry).log j = s.log j := Function.update_of_ne h ..

/-- Whether a thread has acquired a session. -/
def Borrowed (s : Process) (i a : Nat) : Prop := ∃ steps, .acquired steps (.ok a) ∈ s.log i

/-- What is remembered of a thread is in line with what it has done. -/
inductive InLine (s : Process) (i : Nat) : Prop where
  | free (hbusy : s.busy i = none) (hslot : s.sessions.slots[i]? = (s.log i).slot)
  | started {p : ThreadProgram (Except StoreError Nat)} (hbusy : s.busy i = some ([], p))
    (hruns : (s.log i).running) (hslot : s.sessions.slots[i]? = (s.log i).slot)
  /-- A thread for which a session is being opened has none yet, and its slot is taken. -/
  | begun {steps : List ThreadStep} {p : ThreadProgram (Except StoreError Nat)}
    (hbusy : s.busy i = some (steps, p)) (hsteps : steps ≠ []) (hruns : (s.log i).running)
    (hnone : (s.log i).slot = none) (hslot : s.sessions.slots[i]? = some none)

theorem InLine.noted {log : Log} (hbusy : s.busy i = none) (hlog : s.log i = log)
    (hslot : s.sessions.slots[i]? = log.slot) : s.InLine i := .free hbusy (hlog ▸ hslot)

/-- What a process remembers of its threads is in line with what they have done. -/
structure Sound (s : Process) : Prop where
  stage : s.busy.All Stage
  proper : ∀ i, (s.log i).Proper i
  inLine : ∀ i, s.InLine i
  counted : ∃ n, s.busy.Has (fun steps _ => ∃ a, steps.head? = some (.asked (.call .connect) (.ok a))) n ∧
    s.sessions.opened + n = s.opened.length
  opened : ∀ i a, s.Borrowed i a → a ∈ s.opened
  fresh : ∀ i a, s.Counting i a → a ∈ s.opened ∧ ∀ j, ¬ s.Borrowed j a
  distinct : ∀ i j a, s.Counting i a → s.Counting j a → i = j
  owner : ∀ i j a, s.Borrowed i a → s.Borrowed j a → i = j

/-! ### Who acquired what -/

theorem mem_log_note : .acquired steps (.ok a) ∈ (s.note i entry).log j ↔
    i = j ∧ entry = .acquired steps (.ok a) ∨ .acquired steps (.ok a) ∈ s.log j := by
  by_cases h : i = j
  · subst h
    simp [log_note_self, eq_comm]
  · simp [log_note_of_ne (Ne.symm h), h]

theorem borrowed_note_of_ne (h : (s.note i entry).Borrowed j a)
    (hne : ∀ steps, entry ≠ .acquired steps (.ok a)) : s.Borrowed j a := by
  obtain ⟨steps, hmem⟩ := h
  exact ⟨steps, (mem_log_note.1 hmem).resolve_left fun heq => hne steps heq.2⟩

theorem borrowed_note_acquired {b : Nat} (h : (s.note i (.acquired steps (.ok b))).Borrowed j a) :
    i = j ∧ b = a ∨ s.Borrowed j a := by
  obtain ⟨steps, hmem⟩ := h
  rcases mem_log_note.1 hmem with ⟨hij, heq⟩ | hmem
  · cases heq
    exact .inl ⟨hij, rfl⟩
  · exact .inr ⟨steps, hmem⟩

/-- Only a thread for which a session was just opened has one to count. -/
theorem counting_of_setBusy (h : (s.setBusy i steps p).Counting j a)
    (hne : steps.head? ≠ some (.asked (.call .connect) (.ok a))) : s.Counting j a := by
  by_cases hji : j = i
  · subst hji
    exact absurd (Underway.at_put_self.1 h) hne
  · exact (Underway.at_put_of_ne hji).1 h

namespace Sound

theorem start : Sound start where
  stage i steps p h := nomatch h
  proper i := .nil
  inLine i := .free rfl (by simp [Process.start, Log.slot, Log.running, Log.kept, Log.lent])
  counted := ⟨0, .nobody, rfl⟩
  opened i a h := nomatch h
  fresh i a h := absurd h (Underway.not_at_of_none rfl)
  distinct i j a h := absurd h (Underway.not_at_of_none rfl)
  owner i j a h := nomatch h

theorem stage_turn (h : Sound s) (hturn : Turn s t) : t.busy.All Stage := by
  cases hturn with
  | begin i hfree => exact h.stage.put .start
  | reserve i hbusy hslot => exact h.stage.put (.opening _)
  | connect i hbusy session hnew => exact h.stage.put (.counting session _)
  | fail i hbusy e => exact h.stage.put (.closing e _)
  | reuse | refuse | count | close => exact h.stage.finish
  | giveBack | discard | exit => exact h.stage

theorem running (h : Sound s) (hbusy : s.busy i = some (steps, p)) : (s.log i).running := by
  cases h.inLine i with
  | free hfree hslot => cases hfree.symm.trans hbusy
  | started _ hruns hslot => exact hruns
  | begun _ hsteps hruns hnone hslot => exact hruns

theorem slot_of_free (h : Sound s) (hfree : s.busy i = none) : s.sessions.slots[i]? = (s.log i).slot := by
  cases h.inLine i with
  | free _ hslot => exact hslot
  | started hbusy hruns hslot => exact hslot
  | begun hbusy hsteps hruns hnone hslot => cases hfree.symm.trans hbusy

/-- The slot of a thread that has yet to take the first step of an acquisition. -/
theorem slot_of_start (h : Sound s) (hbusy : s.busy i = some ([], p)) :
    s.sessions.slots[i]? = (s.log i).slot := by
  cases h.inLine i with
  | free _ hslot => exact hslot
  | started _ hruns hslot => exact hslot
  | begun hbusy' hsteps hruns hnone hslot =>
    cases hbusy.symm.trans hbusy'
    exact absurd rfl hsteps

theorem slot_of_begun (h : Sound s) (hbusy : s.busy i = some (steps, p)) (hsteps : steps ≠ []) :
    s.sessions.slots[i]? = some none ∧ (s.log i).slot = none := by
  cases h.inLine i with
  | free hfree hslot => cases hfree.symm.trans hbusy
  | started hbusy' hruns hslot =>
    cases hbusy.symm.trans hbusy'
    exact absurd rfl hsteps
  | begun _ _ hruns hnone hslot => exact ⟨hslot, hnone⟩

/-- A thread that is lent its own session gives it back before it is lent it again. -/
theorem kept_of_slot (h : Sound s) (hbusy : s.busy i = some ([], p))
    (hslot : s.sessions.slots[i]? = some (some a)) : (s.log i).kept = some a := by
  rw [h.slot_of_start hbusy] at hslot
  exact (Log.slot_eq_some_some.1 hslot).2

/-- A thread for which a session is being opened has none. -/
theorem none_of_begun (h : Sound s) (hbusy : s.busy i = some (steps, p)) (hsteps : steps ≠ []) :
    (s.log i).lent = [] ∧ (s.log i).kept = none := by
  rcases Log.slot_eq_none.1 (h.slot_of_begun hbusy hsteps).2 with hnot | ⟨hkept, hlent⟩
  · rw [h.running hbusy] at hnot
    cases hnot
  · exact ⟨hlent, hkept⟩

/-- Whoever has acquired a session had before, or had one to count. -/
theorem borrowed_turn (h : Sound s) (hturn : Turn s t) (hborrowed : t.Borrowed i a) :
    s.Borrowed i a ∨ s.Counting i a ∧ ¬ t.Counting i a := by
  cases hturn with
  | begin | reserve | connect | fail => exact .inl hborrowed
  | reuse j hbusy hslot =>
    rcases borrowed_note_acquired hborrowed with ⟨rfl, rfl⟩ | hbefore
    · exact .inl ((h.proper j).good _ (.inr (h.kept_of_slot hbusy hslot))).2
    · exact .inl hbefore
  | count j session hbusy =>
    rcases borrowed_note_acquired hborrowed with ⟨rfl, rfl⟩ | hbefore
    · exact .inr ⟨⟨_, _, hbusy, rfl⟩, fun hcounting => (Underway.at_finish.1 hcounting).1 rfl⟩
    · exact .inl hbefore
  | refuse | close | giveBack | discard | exit => exact .inl (borrowed_note_of_ne hborrowed nofun)

theorem opened_subset (hturn : Turn s t) : s.opened ⊆ t.opened := by
  cases hturn with
  | connect i hbusy session hnew => exact List.subset_cons_self _ _
  | _ => exact List.Subset.refl _

/-- Whoever has a session to count had it before, or it has just been opened. -/
theorem counting_turn (hturn : Turn s t) (hcounting : t.Counting i a) :
    s.Counting i a ∨ a ∉ s.opened ∧ a ∈ t.opened ∧ (∀ j, t.Borrowed j a → s.Borrowed j a) ∧
      ∀ j, j ≠ i → t.Counting j a → s.Counting j a := by
  cases hturn with
  | begin j hfree => exact .inl (counting_of_setBusy hcounting nofun)
  | reserve j hbusy hslot => exact .inl (counting_of_setBusy hcounting nofun)
  | fail j hbusy e => exact .inl (counting_of_setBusy hcounting nofun)
  | connect j hbusy session hnew =>
    by_cases hij : i = j
    · subst hij
      cases Underway.at_put_self.1 hcounting
      exact .inr ⟨hnew, List.mem_cons_self, fun _ => id, fun k hk => (Underway.at_put_of_ne hk).1⟩
    · exact .inl ((Underway.at_put_of_ne hij).1 hcounting)
  | reuse | refuse | count | close => exact .inl (Underway.at_finish.1 hcounting).2
  | giveBack | discard | exit => exact .inl hcounting

theorem opened_turn (h : Sound s) (hturn : Turn s t) (i a : Nat) (hborrowed : t.Borrowed i a) :
    a ∈ t.opened := by
  refine opened_subset hturn ?_
  rcases h.borrowed_turn hturn hborrowed with hbefore | ⟨hcounting, -⟩
  · exact h.opened i a hbefore
  · exact (h.fresh i a hcounting).1

theorem fresh_turn (h : Sound s) (hturn : Turn s t) (i a : Nat) (hcounting : t.Counting i a) :
    a ∈ t.opened ∧ ∀ j, ¬ t.Borrowed j a := by
  rcases counting_turn hturn hcounting with hbefore | ⟨hnew, hopened, hborrowed, -⟩
  · obtain ⟨hopened, hnobody⟩ := h.fresh i a hbefore
    refine ⟨opened_subset hturn hopened, fun j hj => ?_⟩
    rcases h.borrowed_turn hturn hj with hj | ⟨hj, hnot⟩
    · exact hnobody j hj
    · exact hnot (h.distinct i j a hbefore hj ▸ hcounting)
  · exact ⟨hopened, fun j hj => hnew (h.opened j a (hborrowed j hj))⟩

theorem distinct_turn (h : Sound s) (hturn : Turn s t) (i j a : Nat) (hi : t.Counting i a)
    (hj : t.Counting j a) : i = j := by
  rcases counting_turn hturn hi with hi' | ⟨hnew, -, -, hothers⟩
  · rcases counting_turn hturn hj with hj' | ⟨hnew, -⟩
    · exact h.distinct i j a hi' hj'
    · exact absurd (h.fresh i a hi').1 hnew
  · by_contra hne
    exact hnew (h.fresh j a (hothers j (Ne.symm hne) hj)).1

theorem owner_turn (h : Sound s) (hturn : Turn s t) (i j a : Nat) (hi : t.Borrowed i a)
    (hj : t.Borrowed j a) : i = j := by
  rcases h.borrowed_turn hturn hi with hi | ⟨hi, -⟩ <;> rcases h.borrowed_turn hturn hj with hj | ⟨hj, -⟩
  · exact h.owner i j a hi hj
  · exact absurd hi ((h.fresh j a hj).2 i)
  · exact absurd hj ((h.fresh i a hi).2 j)
  · exact h.distinct i j a hi hj

/-! ### What each thread has done -/

theorem fits_reuse (h : Sound s) (hbusy : s.busy i = some ([], p))
    (hslot : s.sessions.slots[i]? = some (some a)) {before : ThreadSessions} :
    (s.log i).Fits i [.asked (.update (·.lend i)) before] (.ok a) := by
  have hkept := h.kept_of_slot hbusy hslot
  refine ⟨fun hlent => absurd ((h.proper i).lent_of_kept a hkept) hlent, fun b hb => ?_, fun _ hnone => ?_,
    fun b hb => ?_⟩
  · rw [hkept] at hb
    cases hb
    exact ⟨rfl, rfl⟩
  · rw [hkept] at hnone
    cases hnone
  · cases hb
    exact ((h.proper i).good a (.inr hkept)).1

theorem fits_refuse (h : Sound s) (hbusy : s.busy i = some ([], p))
    (hslot : s.sessions.slots[i]? = some none) {before : ThreadSessions} :
    (s.log i).Fits i [.asked (.update (·.lend i)) before] (.error (SessionSource.alreadyLent i)) := by
  rw [h.slot_of_start hbusy] at hslot
  obtain ⟨-, hkept, hlent⟩ := Log.slot_eq_some_none.1 hslot
  refine ⟨fun _ => ⟨rfl, rfl⟩, fun b hb => ?_, fun hnone => absurd hnone hlent, nofun⟩
  rw [hkept] at hb
  cases hb

theorem fits_connect (h : Sound s) (hbusy : s.busy i = some (steps, p)) (hsteps : steps ≠ [])
    {steps' : List ThreadStep} {result : Except StoreError Nat} (hconnects : connects steps' = [result])
    (hnew : ∀ a, result = .ok a → ¬ s.Borrowed i a) : (s.log i).Fits i steps' result := by
  obtain ⟨hlent, hkept⟩ := h.none_of_begun hbusy hsteps
  refine ⟨fun hnot => absurd hlent hnot, fun b hb => ?_,
    fun _ _ => ⟨hconnects, fun a ha steps hmem => hnew a ha ⟨steps, hmem⟩⟩, fun a ha hreleased => ?_⟩
  · rw [hkept] at hb
    cases hb
  · exact hnew a ha ((h.proper i).acquired_of_released a false hreleased)

theorem proper_note (h : Sound s) (hentry : Log.Proper i (entry :: s.log i)) (j : Nat) :
    ((s.note i entry).log j).Proper j := by
  by_cases hji : j = i
  · subst hji
    rw [log_note_self]
    exact hentry
  · rw [log_note_of_ne hji]
    exact h.proper j

theorem proper_turn (h : Sound s) (hturn : Turn s t) : ∀ i, (t.log i).Proper i := by
  cases hturn with
  | begin | reserve | connect | fail => exact h.proper
  | reuse i hbusy hslot => exact h.proper_note ((h.proper i).acquired (h.fits_reuse hbusy hslot))
  | refuse i hbusy hslot => exact h.proper_note ((h.proper i).acquired (h.fits_refuse hbusy hslot))
  | count i session hbusy =>
    refine h.proper_note ((h.proper i).acquired (h.fits_connect hbusy (List.cons_ne_nil _ _) ?_ ?_))
    · rfl
    · intro a ha
      cases ha
      exact (h.fresh i session ⟨_, _, hbusy, rfl⟩).2 i
  | close i e hbusy =>
    refine h.proper_note ((h.proper i).acquired (h.fits_connect hbusy (List.cons_ne_nil _ _) ?_ ?_))
    · rfl
    · exact fun a ha => nomatch ha
  | giveBack i session hfree hlent => exact h.proper_note ((h.proper i).released hlent)
  | discard i session hfree hlent => exact h.proper_note ((h.proper i).released hlent)
  | exit i hfree hruns => exact h.proper_note (h.proper i).exited

/-! ### The slots -/

theorem inLine_turn (h : Sound s) (hturn : Turn s t) : ∀ i, t.InLine i := by
  -- every step concerns one thread; of the others all is as it was
  obtain ⟨i, hself, hothers⟩ : ∃ i, t.InLine i ∧ ∀ j, j ≠ i →
      t.busy j = s.busy j ∧ t.log j = s.log j ∧ t.sessions.slots[j]? = s.sessions.slots[j]? := by
    cases hturn with
    | begin i hfree hruns =>
      exact ⟨i, .started Underway.put_self hruns (h.slot_of_free hfree), fun j hj =>
        ⟨Underway.put_of_ne hj, rfl, rfl⟩⟩
    | reuse i hbusy hslot =>
      refine ⟨i, .noted Underway.finish_self log_note_self ?_, fun j hj =>
        ⟨Underway.finish_of_ne hj, log_note_of_ne hj, slot_lend.trans (if_neg (Ne.symm hj))⟩⟩
      rw [Log.slot_acquired (h.running hbusy)]
      exact slot_lend.trans (if_pos rfl)
    | refuse i hbusy hslot =>
      refine ⟨i, .noted Underway.finish_self log_note_self ?_, fun j hj =>
        ⟨Underway.finish_of_ne hj, log_note_of_ne hj, slot_lend.trans (if_neg (Ne.symm hj))⟩⟩
      exact (slot_lend.trans (if_pos rfl)).trans (hslot.symm.trans (h.slot_of_start hbusy))
    | reserve i hbusy hslot =>
      refine ⟨i, .begun Underway.put_self (List.cons_ne_nil _ _) (h.running hbusy) ?_ ?_, fun j hj =>
        ⟨Underway.put_of_ne hj, rfl, slot_lend.trans (if_neg (Ne.symm hj))⟩⟩
      · exact (h.slot_of_start hbusy).symm.trans hslot
      · exact slot_lend.trans (if_pos rfl)
    | connect i hbusy | fail i hbusy =>
      obtain ⟨hslot, hnone⟩ := h.slot_of_begun hbusy (List.cons_ne_nil _ _)
      exact ⟨i, .begun Underway.put_self (List.cons_ne_nil _ _) (h.running hbusy) hnone hslot, fun j hj =>
        ⟨Underway.put_of_ne hj, rfl, rfl⟩⟩
    | count i session hbusy =>
      refine ⟨i, .noted Underway.finish_self log_note_self ?_, fun j hj =>
        ⟨Underway.finish_of_ne hj, log_note_of_ne hj, rfl⟩⟩
      rw [Log.slot_acquired (h.running hbusy)]
      exact (h.slot_of_begun hbusy (List.cons_ne_nil _ _)).1
    | close i e hbusy =>
      refine ⟨i, .noted Underway.finish_self log_note_self ?_, fun j hj =>
        ⟨Underway.finish_of_ne hj, log_note_of_ne hj, slot_close.trans (if_neg (Ne.symm hj))⟩⟩
      exact (slot_close.trans (if_pos rfl)).trans (h.slot_of_begun hbusy (List.cons_ne_nil _ _)).2.symm
    | giveBack i session hfree hlent =>
      refine ⟨i, .noted hfree log_note_self ?_, fun j hj =>
        ⟨rfl, log_note_of_ne hj, slot_giveBack.trans (if_neg (Ne.symm hj))⟩⟩
      rw [(h.proper i).slot_giveBack hlent, ← h.slot_of_free hfree]
      exact slot_giveBack.trans (if_pos rfl)
    | discard i session hfree hlent =>
      refine ⟨i, .noted hfree log_note_self ?_, fun j hj =>
        ⟨rfl, log_note_of_ne hj, slot_close.trans (if_neg (Ne.symm hj))⟩⟩
      rw [(h.proper i).slot_discard hlent]
      exact slot_close.trans (if_pos rfl)
    | exit i hfree hruns =>
      refine ⟨i, .noted hfree log_note_self ?_, fun j hj =>
        ⟨rfl, log_note_of_ne hj, slot_close.trans (if_neg (Ne.symm hj))⟩⟩
      exact slot_close.trans (if_pos rfl)
  intro j
  by_cases hji : j = i
  · exact hji ▸ hself
  · obtain ⟨hbusy, hlog, hslot⟩ := hothers j hji
    cases h.inLine j with
    | free hbusy' hslot' => exact .free (hbusy.trans hbusy') (by rw [hslot, hlog, hslot'])
    | started hbusy' hruns hslot' =>
      exact .started (hbusy.trans hbusy') (hlog ▸ hruns) (by rw [hslot, hlog, hslot'])
    | begun hbusy' hsteps hruns hnone hslot' =>
      exact .begun (hbusy.trans hbusy') hsteps (hlog ▸ hruns) (hlog ▸ hnone) (hslot.trans hslot')

/-- Sessions that were opened are counted, but for the last ones. -/
theorem counted_turn (h : Sound s) (hturn : Turn s t) :
    ∃ n, t.busy.Has (fun steps _ => ∃ a, steps.head? = some (.asked (.call .connect) (.ok a))) n ∧
      t.sessions.opened + n = t.opened.length := by
  obtain ⟨n, hn, heq⟩ := h.counted
  cases hturn with
  | begin i hfree => exact ⟨n, hn.stay (iff_of_false (Underway.not_at_of_none hfree) nofun), heq⟩
  | reserve i hbusy | fail i hbusy =>
    exact ⟨n, hn.stay ((Underway.at_iff hbusy).trans (iff_of_false nofun nofun)), heq⟩
  | connect i hbusy session hnew =>
    refine ⟨n + 1, hn.enter (fun hat => ?_) ⟨session, rfl⟩, ?_⟩
    · obtain ⟨a, ha⟩ := (Underway.at_iff hbusy).1 hat
      cases ha
    · simp only [setBusy, List.length_cons]
      omega
  | count i session hbusy =>
    have hat : s.busy.At (fun steps _ => ∃ a, steps.head? = some (.asked (.call .connect) (.ok a))) i :=
      ⟨_, _, hbusy, session, rfl⟩
    have hpos := hn.pos hat
    refine ⟨n - 1, hn.leave hat, ?_⟩
    simp only [finish, note, countOpened]
    omega
  | reuse i hbusy | refuse i hbusy | close i e hbusy =>
    refine ⟨n, hn.finish fun hat => ?_, heq⟩
    obtain ⟨a, ha⟩ := (Underway.at_iff hbusy).1 hat
    cases ha
  | giveBack i session =>
    refine ⟨n, hn, ?_⟩
    simp only [note, ThreadSessions.giveBack]
    split <;> exact heq
  | discard | exit => exact ⟨n, hn, heq⟩

/-- Every step keeps what is remembered in line. -/
theorem step (h : Sound s) (hnext : Next s t) : Sound t := by
  have hturn := hnext.turn h.stage
  exact {
    stage := h.stage_turn hturn
    proper := h.proper_turn hturn
    inLine := h.inLine_turn hturn
    counted := h.counted_turn hturn
    opened := h.opened_turn hturn
    fresh := h.fresh_turn hturn
    distinct := h.distinct_turn hturn
    owner := h.owner_turn hturn }

end Sound

theorem sound_of_reaches (h : Reaches start s) : Sound s := by
  induction h with
  | refl => exact Sound.start
  | tail _ hnext ih => exact ih.step hnext

end Process

end Tabular.ThreadSessions
