import Tabular.Proofs.Sessions.Threads

/-!
# Tabular.Proofs.Sessions.Borrowing — what one thread does with sessions

A `Log` is `Proper` if its thread borrows one session at a time, its own as long as that is good.  Main
statements: one lemma for each entry that a thread may add to a proper log, and `Log.slot`, what is to be
remembered of a thread.
-/

namespace Tabular.ThreadSessions.Log

variable {thread session a : Nat} {reusable : Bool} {log earlier : Log} {steps : List ThreadStep}
  {result : Except StoreError Nat} {e : StoreError}

/-! ### What is to be remembered of a thread -/

/-- The slot of a thread: that it has a session, and which one unless it is lent. -/
def slot (log : Log) : Option (Option Nat) :=
  if log.running then
    match log.kept with
    | some session => some (some session)
    | none => if log.lent = [] then none else some none
  else none

theorem slot_eq_some_none : log.slot = some none ↔ log.running ∧ log.kept = none ∧ log.lent ≠ [] := by
  unfold slot
  split
  · cases log.kept <;> simp [*]
  · simp [*]

theorem slot_eq_some_some : log.slot = some (some a) ↔ log.running ∧ log.kept = some a := by
  unfold slot
  split
  · cases log.kept <;> simp [*]
  · simp [*]

theorem slot_eq_none : log.slot = none ↔ log.running = false ∨ log.kept = none ∧ log.lent = [] := by
  unfold slot
  split
  · cases log.kept <;> simp [*]
  · simp [*]

theorem isSome_slot : log.slot.isSome ↔ log.running ∧ (log.lent ≠ [] ∨ log.kept ≠ none) := by
  unfold slot
  split
  · cases log.kept <;> simp [*]
  · simp [*]

theorem slot_acquired (hruns : log.running) : slot (.acquired steps (.ok session) :: log) = some none :=
  slot_eq_some_none.2 ⟨hruns, rfl, List.cons_ne_nil _ _⟩

/-! ### One session at a time -/

/-- What an acquisition of a thread has to come to: nothing if the session is lent, the session that the
thread keeps if there is one, and else the answer to the one call for a session, which is a new one; never a
session that broke. -/
structure Fits (thread : Nat) (earlier : Log) (steps : List ThreadStep)
    (result : Except StoreError Nat) : Prop where
  of_lent : earlier.lent ≠ [] → result = .error (SessionSource.alreadyLent thread) ∧ connects steps = []
  of_kept : ∀ session, earlier.kept = some session → result = .ok session ∧ connects steps = []
  of_none : earlier.lent = [] → earlier.kept = none → connects steps = [result] ∧
    ∀ session, result = .ok session → ∀ steps', .acquired steps' (.ok session) ∉ earlier
  good : ∀ session, result = .ok session → .released session false ∉ earlier

/-- Whether each acquisition of a thread came to what it had to. -/
def AllFit (thread : Nat) : Log → Prop
  | .acquired steps result :: earlier => Fits thread earlier steps result ∧ AllFit thread earlier
  | _ :: earlier => AllFit thread earlier
  | [] => True

theorem AllFit.fits {later : Log} (h : AllFit thread (later ++ .acquired steps result :: earlier)) :
    Fits thread earlier steps result := by
  induction later with
  | nil => exact h.1
  | cons entry later ih =>
    cases entry with
    | acquired steps' result' => exact ih h.2
    | released session reusable => exact ih h
    | exited => exact ih h

/-- Whether a thread borrows one session at a time, and one that broke never again. -/
structure Proper (thread : Nat) (log : Log) : Prop where
  lent_le : log.lent.length ≤ 1
  lent_of_kept : ∀ session, log.kept = some session → log.lent = []
  running_of_kept : ∀ session, log.kept = some session → log.running
  /-- A session that is lent or kept was acquired, and did not break. -/
  good : ∀ session, session ∈ log.lent ∨ log.kept = some session →
    .released session false ∉ log ∧ ∃ steps, .acquired steps (.ok session) ∈ log
  acquired_of_released : ∀ session reusable, .released session reusable ∈ log →
    ∃ steps, .acquired steps (.ok session) ∈ log
  fits : AllFit thread log

namespace Proper

theorem nil : Proper thread [] where
  lent_le := Nat.zero_le _
  lent_of_kept _ h := nomatch h
  running_of_kept _ h := nomatch h
  good session h := by simp [lent, kept] at h
  acquired_of_released session reusable h := by simp at h
  fits := trivial

variable (h : Proper thread log)
include h

/-- What is released was acquired, whatever has happened since. -/
theorem acquired_of_released_cons {entry : Entry} (hnot : ∀ session reusable, entry ≠ .released session reusable)
    (hmem : .released session reusable ∈ entry :: log) :
    ∃ steps, .acquired steps (.ok session) ∈ entry :: log := by
  obtain ⟨steps, hacquired⟩ :=
    h.acquired_of_released session reusable ((List.mem_cons.1 hmem).resolve_left fun heq => hnot _ _ heq.symm)
  exact ⟨steps, List.mem_cons_of_mem _ hacquired⟩

theorem acquired (hfits : Fits thread log steps result) :
    Proper thread (.acquired steps result :: log) := by
  cases result with
  | ok session =>
    have hempty : log.lent = [] := by
      by_contra hlent
      cases (hfits.of_lent hlent).1
    refine ⟨?_, (fun _ hkept => nomatch hkept), (fun _ hkept => nomatch hkept), ?_, ?_, hfits, h.fits⟩
    · simp [lent, hempty]
    · intro session' hin
      obtain rfl : session' = session := by simpa [lent, kept, hempty] using hin
      exact ⟨by simpa using hfits.good _ rfl, steps, List.mem_cons_self⟩
    · exact fun _ _ => h.acquired_of_released_cons nofun
  | error e =>
    refine ⟨h.lent_le, h.lent_of_kept, h.running_of_kept, ?_,
      fun _ _ => h.acquired_of_released_cons nofun, hfits, h.fits⟩
    intro session hin
    obtain ⟨hgood, steps', hmem⟩ := h.good session hin
    exact ⟨by simpa using hgood, steps', List.mem_cons_of_mem _ hmem⟩

theorem lent_eq (hlent : session ∈ log.lent) : log.lent = [session] := by
  obtain ⟨a, ha⟩ := List.length_eq_one_iff.1 (Nat.le_antisymm h.lent_le (List.length_pos_of_mem hlent))
  rw [ha] at hlent ⊢
  rw [List.mem_singleton.1 hlent]

theorem lent_released (hlent : session ∈ log.lent) : lent (.released session reusable :: log) = [] := by
  rw [lent, h.lent_eq hlent, List.erase_cons_head]

theorem released (hlent : session ∈ log.lent) : Proper thread (.released session reusable :: log) := by
  have hnone : lent (.released session reusable :: log) = [] := h.lent_released hlent
  have hkept : ∀ a, kept (.released session reusable :: log) = some a →
      reusable = true ∧ log.running ∧ a = session := by
    intro a ha
    unfold kept at ha
    split at ha
    · rename_i hboth
      cases ha
      exact ⟨(Bool.and_eq_true_iff.1 hboth).1, (Bool.and_eq_true_iff.1 hboth).2, rfl⟩
    · cases ha
  obtain ⟨hgood, steps, hacquired⟩ := h.good session (.inl hlent)
  refine ⟨hnone ▸ Nat.zero_le _, fun _ _ => hnone, fun a ha => (hkept a ha).2.1, ?_, ?_, h.fits⟩
  · rintro a (ha | ha)
    · rw [hnone] at ha
      cases ha
    · obtain ⟨rfl, -, rfl⟩ := hkept a ha
      exact ⟨by simpa using hgood, steps, List.mem_cons_of_mem _ hacquired⟩
  · intro a reusable' hmem
    rcases List.mem_cons.1 hmem with heq | hmem
    · cases heq
      exact ⟨steps, List.mem_cons_of_mem _ hacquired⟩
    · obtain ⟨steps', hacquired'⟩ := h.acquired_of_released a reusable' hmem
      exact ⟨steps', List.mem_cons_of_mem _ hacquired'⟩

theorem exited : Proper thread (.exited :: log) := by
  refine ⟨h.lent_le, (fun _ hkept => nomatch hkept), (fun _ hkept => nomatch hkept), ?_,
    fun _ _ => h.acquired_of_released_cons nofun, h.fits⟩
  rintro a (ha | ha)
  · obtain ⟨hgood, steps, hmem⟩ := h.good a (.inl ha)
    exact ⟨by simpa using hgood, steps, List.mem_cons_of_mem _ hmem⟩
  · cases ha

/-- A session that comes back takes the slot of its thread, if the thread runs. -/
theorem slot_giveBack (hlent : session ∈ log.lent) :
    slot (.released session true :: log) = log.slot.map fun _ => some session := by
  cases hruns : log.running with
  | false => simp [slot, running, hruns]
  | true =>
    have hkept : log.kept = none := Option.eq_none_iff_forall_ne_some.2 fun a ha => by
      rw [h.lent_of_kept a ha] at hlent
      cases hlent
    have hslot := slot_eq_some_none.2 ⟨hruns, hkept, List.ne_nil_of_mem hlent⟩
    rw [hslot]
    exact slot_eq_some_some.2 ⟨hruns, if_pos (by simp [hruns])⟩

theorem slot_discard (hlent : session ∈ log.lent) : slot (.released session false :: log) = none :=
  slot_eq_none.2 (.inr ⟨rfl, h.lent_released hlent⟩)

end Proper

end Tabular.ThreadSessions.Log
