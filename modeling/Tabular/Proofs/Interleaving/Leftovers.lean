import Tabular.Proofs.Interleaving.Atomic
import Tabular.Proofs.Interleaving.Leases

/-!
# Tabular.Proofs.Interleaving.Leftovers — no transaction is left behind

A transaction that could not be settled goes on the list of its runner.  Whoever takes it from there has it
in its hands until it is settled or goes back on the list (`History.hands`).  Main statement:
`nothing_left_behind`, every transaction that is in progress belongs to an execution that still runs or
waits to be settled, and what waits is marked as what it is.
-/

namespace Tabular.Interleaving

open Interaction (Follows)
open Coordinator (Log)
open Samples (accounts closing)

variable {ι : Type} [DecidableEq ι] {α : ι → Type}

namespace History

/-- The unfinished transactions in the hands of an execution after its steps, the latest first: those that
it took from the list and has neither settled nor put back. -/
def hands : List Step → List Unfinished
  | [] => []
  | .asked (.unfinished change) listed :: earlier =>
    (hands earlier ++ listed).filter (· ∉ change listed)
  | .asked (.coordinator (.abort _ tx)) (.ok _) :: earlier => (hands earlier).eraseP (·.tx = tx)
  | .asked (.coordinator (.invalidate _ tx)) (.ok _) :: earlier => (hands earlier).eraseP (·.tx = tx)
  | _ :: earlier => hands earlier

/-- Whether a transaction was settled: aborted if none of its cells remained, or else invalidated. -/
def Settled (h : History ι) (orphan : Unfinished) : Prop :=
  ∃ i call a, Settles orphan call ∧ (i, .asked (.coordinator call) (.ok a)) ∈ h

/-- Whether an execution has put a transaction on the list. -/
def Listed (h : History ι) (i : ι) (orphan : Unfinished) : Prop :=
  ∃ change listed, (i, .asked (.unfinished change) listed) ∈ h ∧ orphan ∈ change listed

end History

/-- Whether an unfinished transaction of a runner waits: it is on the list of the runner, or in the hands of
an execution of the runner that still runs. -/
def System.Waits (runnerOf : ι → Nat) (s : System α) (runner : Nat) (orphan : Unfinished) : Prop :=
  orphan ∈ s.world.unfinished runner ∨
    ∃ k, runnerOf k = runner ∧ (∀ result, s.program k ≠ .done result) ∧
      orphan ∈ History.hands (s.history.of k)

section Hands

variable {β : Type} {work : Work Elsewhere β} {steps : List Step} {step : Step} {φ φ' : Phase}
  {tx : Transaction}

theorem hands_cons_of_looks (h : Looks tx step) : History.hands (step :: steps) = History.hands steps := by
  unfold Looks at h
  split at h <;> first | rfl | cases h

theorem hands_cons_of_settles {orphan : Unfinished} {call : CoordinatorCall} (h : Settles orphan call)
    (a : call.Answer) : History.hands (.asked (.coordinator call) (.ok a) :: steps) =
      (History.hands steps).eraseP (·.tx = orphan.tx) := by
  cases h <;> rfl

theorem hands_cons_of_error {call : CoordinatorCall} {e : StoreError} :
    History.hands (.asked (.coordinator call) (.error e) :: steps) = History.hands steps := by
  cases call <;> rfl

/-- What the steps of an execution say is in its hands is what its phase says. -/
theorem Conduct.hands_eq (h : Conduct work steps φ) : φ.hands = History.hands steps := by
  induction h with
  | here => rfl
  | @step steps φ φ' step hmoves hmove ih =>
    cases hmove
    case look hlooks => exact ih.trans (hands_cons_of_looks hlooks).symm
    case take change hchange listed =>
      rw [History.hands, ← ih, hchange]
      exact (List.filter_eq_self.2 fun _ _ => by simp).symm
    case putBack change hands hchange listed =>
      rw [History.hands, ← ih, hchange]
      refine (List.filter_eq_nil_iff.2 fun orphan horphan => ?_).symm
      have hback : orphan ∈ listed ++ hands := List.mem_append.2 (List.mem_append.1 horphan).symm
      rw [decide_eq_true_iff]
      exact fun hnot => hnot hback
    case leave rolledBack change hcells hchange listed hholds =>
      rw [History.hands, ← ih, hchange, hholds.hands_eq]
      refine (List.filter_eq_nil_iff.2 fun orphan horphan => ?_).symm
      have hlisted : orphan ∈ listed := by simpa using horphan
      simp [hlisted]
    case settle rest call hcall a =>
      rw [hands_cons_of_settles hcall, ← ih]
      simp [Phase.hands]
    case settleFails => exact ih.trans hands_cons_of_error.symm
    case undo hholds => exact hholds.hands_eq.symm.trans ih
    case undoFails hholds => exact hholds.hands_eq.symm.trans ih
    case endIt hcall _ a hholds =>
      rw [hands_cons_of_settles hcall, ← ih, hholds.hands_eq]
      rfl
    case endItFails hholds =>
      rw [hands_cons_of_error, ← ih, hholds.hands_eq]
      rfl
    all_goals exact ih

end Hands

/-! ### What is kept of a transaction -/

section Grow

variable {h : History ι} {entry : ι × Step} {i : ι} {orphan : Unfinished}

omit [DecidableEq ι] in
theorem History.Settled.cons (hsettled : h.Settled orphan) : History.Settled (entry :: h) orphan := by
  obtain ⟨i, call, a, hcall, hmem⟩ := hsettled
  exact ⟨i, call, a, hcall, List.mem_cons_of_mem _ hmem⟩

omit [DecidableEq ι] in
theorem History.Listed.cons (hlisted : h.Listed i orphan) : History.Listed (entry :: h) i orphan := by
  obtain ⟨change, listed, hmem, horphan⟩ := hlisted
  exact ⟨change, listed, List.mem_cons_of_mem _ hmem, horphan⟩

omit [DecidableEq ι] in
/-- What the coordinator has settled it has released or condemned. -/
theorem History.Settled.ended (hsettled : h.Settled orphan) :
    h.log.Released orphan.tx.writePointer ∨ h.log.Condemned orphan.tx.writePointer := by
  obtain ⟨i, call, a, hcall, hmem⟩ := hsettled
  have hlog : (⟨call, .ok a⟩ : Coordinator.Reply) ∈ h.log := List.mem_filterMap.2 ⟨_, hmem, rfl⟩
  cases hcall with
  | abort session hback => exact .inl ⟨_, hlog, rfl⟩
  | invalidate session hback => exact .inr ⟨_, hlog, rfl⟩

end Grow

/-- Whether an unfinished transaction is on the list of a runner or in the hands of one of its
executions. -/
def Pending (runnerOf : ι → Nat) (w : World) (φ : ι → Phase) (runner : Nat) (orphan : Unfinished) : Prop :=
  orphan ∈ w.unfinished runner ∨ ∃ k, runnerOf k = runner ∧ orphan ∈ (φ k).hands

/-- How what was left behind is accounted for. -/
structure Kept (runnerOf : ι → Nat) (s : System α) (φ : ι → Phase) : Prop where
  /-- What has ended was settled or put on the list. -/
  ended : ∀ i tx cells, φ i = .ended tx cells →
    ∃ back, s.history.Settled ⟨tx, back⟩ ∨ s.history.Listed i ⟨tx, back⟩
  /-- What was put on the list was settled, or is pending. -/
  listed : ∀ i orphan, s.history.Listed i orphan →
    s.history.Settled orphan ∨ Pending runnerOf s.world φ (runnerOf i) orphan
  /-- What was ended is no longer in progress. -/
  closed : ∀ p, s.history.log.Released p ∨ s.history.log.Condemned p → p ∉ s.world.coordinator.inProgress

namespace Kept

omit [DecidableEq ι] in
theorem start (works : (i : ι) → Work Elsewhere (α i)) (runnerOf : ι → Nat) {w : World} (h : w.Quiet) :
    Kept runnerOf (.start works w) fun _ => .idle [] where
  ended _ _ _ h := nomatch h
  listed i orphan h := by
    obtain ⟨change, listed, hmem, -⟩ := h
    cases hmem
  closed p _ := h.coordinator.idle p

variable {works : (i : ι) → Work Elsewhere (α i)} {start : World} {runnerOf : ι → Nat} {s : System α}
  {φ : ι → Phase}

section Step

variable {i : ι} {step : Step} {φ' : Phase} {w : World}
  (hmove : Move (works i) (φ i) step φ') (hadmits : s.world.Admits (runnerOf i) step w)

include hmove hadmits

/-- What is pending stays pending, unless the step settles it. -/
theorem pending_step {runner : Nat} {orphan : Unfinished}
    (h : Pending runnerOf s.world φ runner orphan) :
    History.Settled ((i, step) :: s.history) orphan ∨
      Pending runnerOf w (Function.update φ i φ') runner orphan := by
  rcases h with hlisted | ⟨k, rfl, hhands⟩
  · cases hadmits with
    | leave => exact .inr (.inl hlisted)
    | coordinator => exact .inr (.inl hlisted)
    | store => exact .inr (.inl hlisted)
    | unfinished change =>
      by_cases hrunner : runner = runnerOf i
      · subst hrunner
        rcases hmove.of_mem_listed hlisted with hhands | hback
        · exact .inr (.inr ⟨i, rfl, by rwa [Function.update_self]⟩)
        · exact .inr (.inl (by simpa using hback))
      · exact .inr (.inl (by simpa [hrunner] using hlisted))
  · by_cases hki : k = i
    · subst hki
      rcases hmove.of_mem_hands hhands with hhands | ⟨change, listed, rfl, hback⟩ | ⟨call, a, hcall, rfl⟩
      · exact .inr (.inr ⟨k, rfl, by rwa [Function.update_self]⟩)
      · cases hadmits with
        | leave hleaves => exact hleaves.elim
        | unfinished => exact .inr (.inl (by simpa using hback))
      · exact .inl ⟨k, call, a, hcall, List.mem_cons_self⟩
    · exact .inr (.inr ⟨k, rfl, by rwa [Function.update_of_ne hki]⟩)

theorem listed_step (h : Kept runnerOf s φ) (j : ι) (orphan : Unfinished)
    (hlisted : History.Listed ((i, step) :: s.history) j orphan) :
    History.Settled ((i, step) :: s.history) orphan ∨
      Pending runnerOf w (Function.update φ i φ') (runnerOf j) orphan := by
  obtain ⟨change, listed, hmem, horphan⟩ := hlisted
  rcases List.mem_cons.1 hmem with heq | hmem
  · cases heq
    cases hadmits with
    | leave hleaves => exact hleaves.elim
    | unfinished => exact .inr (.inl (by simpa using horphan))
  · rcases h.listed j orphan ⟨change, listed, hmem, horphan⟩ with hsettled | hpending
    · exact .inl hsettled.cons
    · exact pending_step hmove hadmits hpending

omit hadmits in
theorem ended_step (h : Kept runnerOf s φ) (j : ι) (tx : Transaction) (cells : Cells)
    (hj : Function.update φ i φ' j = .ended tx cells) :
    ∃ back, History.Settled ((i, step) :: s.history) ⟨tx, back⟩ ∨
      History.Listed ((i, step) :: s.history) j ⟨tx, back⟩ := by
  have hold : φ j = .ended tx cells →
      ∃ back, History.Settled ((i, step) :: s.history) ⟨tx, back⟩ ∨
        History.Listed ((i, step) :: s.history) j ⟨tx, back⟩ := by
    intro hj
    obtain ⟨back, hback⟩ := h.ended j tx cells hj
    exact ⟨back, hback.imp History.Settled.cons History.Listed.cons⟩
  by_cases hji : j = i
  · subst hji
    rw [Function.update_self] at hj
    subst hj
    rcases hmove.of_ended with hj | ⟨back, call, a, hcall, rfl⟩ | ⟨back, change, listed, rfl, hmem⟩
    · exact hold hj
    · exact ⟨back, .inl ⟨j, call, a, hcall, List.mem_cons_self⟩⟩
    · exact ⟨back, .inr ⟨change, listed, List.mem_cons_self, hmem⟩⟩
  · rw [Function.update_of_ne hji] at hj
    exact hold hj

omit hmove in
theorem closed_step (h : Kept runnerOf s φ) (hsound : Sound works start s φ) (p : Nat)
    (hp : (History.log ((i, step) :: s.history)).Released p ∨
      (History.log ((i, step) :: s.history)).Condemned p) : p ∉ w.coordinator.inProgress := by
  cases hadmits with
  | leave hleaves =>
    rw [History.log_cons_of_none (Sound.leaves_reply? hleaves)] at hp
    exact h.closed p hp
  | store => exact h.closed p hp
  | unfinished => exact h.closed p hp
  | @coordinator call answer now hanswer =>
    subst hanswer
    rw [History.log_cons_of_reply rfl, Log.released_cons, Log.condemned_cons] at hp
    intro hopen
    rcases Coordinator.mem_inProgress_of_respond hopen with ⟨hold, hreleases, hcondemns⟩ | ⟨rfl, hbegin⟩
    · refine h.closed p ?_ hold
      exact hp.imp (Or.resolve_left · hreleases) (Or.resolve_left · hcondemns)
    · -- the next pointer is nobody's yet
      obtain ⟨session, rfl⟩ := hbegin
      have hbegan : s.history.log.Began s.world.coordinator.nextPointer := by
        rcases hp with (hno | hp) | (hno | hp)
        · exact hno.elim
        · obtain ⟨j, tx, htx, hj⟩ := hsound.released _ hp
          rw [← htx]
          refine hsound.began (i := j) ?_
          rcases hj with ⟨held, hj⟩ | hj <;> rw [hj] <;> rfl
        · exact hno.elim
        · obtain ⟨j, tx, cells, htx, hj⟩ := hsound.condemned _ hp
          rw [← htx]
          exact hsound.began (i := j) (by rw [hj]; rfl)
      exact absurd (hsound.tracks.began_lt hbegan) (Nat.lt_irrefl _)

end Step

theorem step {i : ι} {step : Step} {φ' : Phase} {w : World} {p : Program (Except StoreError (α i))}
    (h : Kept runnerOf s φ) (hsound : Sound works start s φ) (hmove : Move (works i) (φ i) step φ')
    (hadmits : s.world.Admits (runnerOf i) step w) :
    Kept runnerOf ⟨w, Function.update s.program i p, (i, step) :: s.history⟩ (Function.update φ i φ') where
  ended := ended_step hmove h
  listed := listed_step hmove hadmits h
  closed := closed_step hadmits h hsound

omit [DecidableEq ι] in
theorem reach (h : Kept runnerOf s φ) (available : Bool) :
    Kept runnerOf
      { s with world := { s.world with coordinator := { s.world.coordinator with available } } } φ where
  ended := h.ended
  listed := h.listed
  closed := h.closed

end Kept

/-- In every interleaving that starts quietly, what was left behind is accounted for. -/
theorem kept_of_reaches {works : (i : ι) → Work Elsewhere (α i)} {runnerOf : ι → Nat} {start : World}
    {s : System α} (hstart : start.Quiet) (hs : System.Reaches runnerOf (.start works start) s) :
    ∃ φ, Sound works start s φ ∧ Kept runnerOf s φ := by
  induction hs with
  | refl => exact ⟨_, Sound.start works hstart, Kept.start works runnerOf hstart⟩
  | tail _ hnext ih =>
    obtain ⟨φ, hsound, hkept⟩ := ih
    cases hnext with
    | step i htakes hadmits =>
      obtain ⟨φ', hmove, hsound'⟩ := hsound.step htakes hadmits
      exact ⟨_, hsound', hkept.step hsound hmove hadmits⟩
    | reach available => exact ⟨φ, hsound.reach available, hkept.reach available⟩

namespace Sound

variable {works : (i : ι) → Work Elsewhere (α i)} {runnerOf : ι → Nat} {start : World} {s : System α}
  {φ : ι → Phase} {i : ι} {tx : Transaction} {orphan : Unfinished} {runner : Nat}

/-- What is in the hands of an execution is in the hands of one that still runs. -/
theorem waits_of_pending (h : Sound works start s φ)
    (hpending : Pending runnerOf s.world φ runner orphan) : s.Waits runnerOf runner orphan := by
  refine hpending.imp_right ?_
  rintro ⟨k, hk, hhands⟩
  refine ⟨k, hk, fun result hdone => ?_, by rwa [← (h.conduct k).hands_eq]⟩
  have hfinal := h.obeys k
  rw [hdone] at hfinal
  rw [(Phase.Final.over hfinal).hands_eq] at hhands
  cases hhands

theorem pending_of_waits (h : Sound works start s φ) (hwaits : s.Waits runnerOf runner orphan) :
    Pending runnerOf s.world φ runner orphan := by
  refine hwaits.imp_right ?_
  rintro ⟨k, hk, -, hhands⟩
  exact ⟨k, hk, by rwa [(h.conduct k).hands_eq]⟩

/-- What waits has ended, and is marked as rolled back only if it left no cells. -/
theorem ended_of_waits (h : Sound works start s φ) (hwaits : s.Waits runnerOf runner orphan) :
    ∃ i cells, φ i = .ended orphan.tx cells ∧ (orphan.rolledBack = true → cells = .empty) :=
  h.orphans orphan <| (h.pending_of_waits hwaits).imp (fun hlisted => ⟨runner, hlisted⟩)
    fun ⟨k, _, hhands⟩ => ⟨k, hhands⟩

/-- A transaction whose execution failed has ended. -/
theorem ended_of_error (h : Sound works start s φ) {e : StoreError}
    (hdone : s.program i = .done (.error e)) (hi : (φ i).tx? = some tx) :
    ∃ cells, φ i = .ended tx cells := by
  have hfinal := h.obeys i
  rw [hdone] at hfinal
  rcases hfinal with hi' | ⟨tx', cells, hi'⟩
  · rw [hi'] at hi
    cases hi
  · rw [hi'] at hi
    cases hi
    exact ⟨cells, hi'⟩

/-- What has ended was settled, or waits. -/
theorem settled_or_waits (h : Sound works start s φ) (hkept : Kept runnerOf s φ) {cells : Cells}
    (hi : φ i = .ended tx cells) :
    (∃ back, s.history.Settled ⟨tx, back⟩) ∨ ∃ back, s.Waits runnerOf (runnerOf i) ⟨tx, back⟩ := by
  obtain ⟨back, hsettled | hlisted⟩ := hkept.ended i tx cells hi
  · exact .inl ⟨back, hsettled⟩
  · rcases hkept.listed i _ hlisted with hsettled | hpending
    · exact .inl ⟨back, hsettled⟩
    · exact .inr ⟨back, h.waits_of_pending hpending⟩

end Sound

/-- **No transaction is left behind.**  Take any number of executions of any runners over one coordinator
and one store, interleaved in any way, while the store may fail at any time, the coordinator may come and
go, and transactions expire.  What is in progress belongs to an execution that still runs, or waits to be
settled.  What waits as rolled back has no cell left.  A transaction that failed and has a cell left is
invalid, or waits to be invalidated.  What an execution puts on the list waits until it is settled.  Every
execution makes proper use of its session, and gives it back in the end. -/
theorem nothing_left_behind {works : (i : ι) → Work Elsewhere (α i)} {runnerOf : ι → Nat} {start : World}
    {s : System α} (hstart : start.Quiet) (hs : System.Reaches runnerOf (.start works start) s) :
    (∀ p ∈ s.world.coordinator.inProgress, ∃ i tx, s.history.Began i tx ∧ tx.writePointer = p ∧
      ((∀ result, s.program i ≠ .done result) ∨ ∃ back, s.Waits runnerOf (runnerOf i) ⟨tx, back⟩)) ∧
    (∀ runner orphan, s.Waits runnerOf runner orphan → orphan.rolledBack = true →
      ∀ row, s.world.store.cell? row orphan.tx.writePointer = none) ∧
    (∀ i e tx row, s.program i = .done (.error e) → s.history.Began i tx →
      (s.world.store.cell? row tx.writePointer).isSome →
      tx.writePointer ∈ s.world.coordinator.invalid ∨ s.Waits runnerOf (runnerOf i) ⟨tx, false⟩) ∧
    (∀ i orphan, s.history.Listed i orphan →
      s.history.Settled orphan ∨ s.Waits runnerOf (runnerOf i) orphan) ∧
    ∀ i, Borrows (s.history.of i) ∧ ∀ result, s.program i = .done result →
      (History.returned (s.history.of i)).map Lease.session = History.lent (s.history.of i) := by
  obtain ⟨φ, h, hkept⟩ := kept_of_reaches hstart hs
  refine ⟨fun p hp => ?_, fun runner orphan hwaits hback row => ?_, fun i e tx row hdone hbegan hrow => ?_,
    fun i orphan hlisted => ?_, fun i => ?_⟩
  · obtain ⟨tx, hhanded, htx⟩ := (h.tracks.began hp).exists_handedOut
    obtain ⟨i, hi⟩ := (h.handedOut tx).1 hhanded
    refine ⟨i, tx, h.began_iff.2 hi, htx, ?_⟩
    by_cases hdone : ∃ result, s.program i = .done result
    · obtain ⟨result, hdone⟩ := hdone
      have hfinal := h.obeys i
      rw [hdone] at hfinal
      cases result with
      | ok a =>
        obtain ⟨tx', held, hi'⟩ := hfinal
        have htx' : tx' = tx := by
          rw [hi'] at hi
          exact Option.some.inj hi
        have hcommitted := h.committed i tx' held hi'
        rw [htx', htx] at hcommitted
        exact absurd hp (h.tracks.ended hcommitted).2
      | error e =>
        obtain ⟨cells, hi'⟩ := h.ended_of_error hdone hi
        refine .inr ((h.settled_or_waits hkept hi').resolve_left ?_)
        rintro ⟨back, hsettled⟩
        exact hkept.closed _ hsettled.ended (htx ▸ hp)
    · exact .inl (not_exists.1 hdone)
  · obtain ⟨i, cells, hi, hcells⟩ := h.ended_of_waits hwaits
    rw [h.stored i orphan.tx (by rw [hi]; rfl) row, hi, hcells hback]
    rfl
  · have hi := h.began_iff.1 hbegan
    obtain ⟨cells, hi'⟩ := h.ended_of_error hdone hi
    rw [h.stored i tx hi row] at hrow
    rcases h.settled_or_waits hkept hi' with ⟨back, hsettled⟩ | ⟨back, hwaits⟩
    · -- it was invalidated, since what is released has no cell
      have hnot := h.not_released hi (by rw [hi']; exact nofun) hrow
      exact .inl ((h.reveals.hidden (h.began hi) hnot).resolve_left (hkept.closed _ hsettled.ended))
    · cases back with
      | false => exact .inr hwaits
      | true =>
        obtain ⟨j, cells', hj, hcells⟩ := h.ended_of_waits hwaits
        have hji : j = i := h.distinct j i tx tx (by rw [hj]; rfl) hi rfl
        rw [← hji, hj, hcells rfl] at hrow
        cases hrow
  · exact (hkept.listed i orphan hlisted).imp_right h.waits_of_pending
  · exact borrows_of_leads (System.leads_of_reaches hs i)

/-- The transaction of an execution that broke has a cell left, and is invalid or waits to be invalidated;
the execution gave back the session that it had borrowed. -/
theorem nothing_left_behind_closing : ∃ (s : System fun _ : Unit => Unit) (tx : Transaction) (row : Change),
    System.Reaches (fun _ => 0) (.start (fun _ => closing) (.fresh accounts)) s ∧
      (s.world.store.cell? row tx.writePointer).isSome ∧
      (tx.writePointer ∈ s.world.coordinator.invalid ∨ s.Waits (fun _ => 0) 0 ⟨tx, false⟩) ∧
      (History.returned (s.history.of ())).map Lease.session = History.lent (s.history.of ()) := by
  obtain ⟨s, hs, ⟨e, hdone⟩, tx, row, hbegan, hrow⟩ := closing_breaks
  obtain ⟨-, -, hleft, -, hleases⟩ := nothing_left_behind (World.quiet_fresh accounts) hs
  exact ⟨s, tx, row, hs, hrow, hleft () e tx row hdone hbegan hrow, (hleases ()).2 _ hdone⟩

end Tabular.Interleaving
