import Tabular.Proofs.Interleaving.Execution

/-!
# Tabular.Proofs.Interleaving.Leases — a session is borrowed once and given back once

`Deals` lists the steps by which an execution borrows a session, calls the coordinator on it and gives it
back: after a call that failed it makes no other, and it gives the session back as broken if and only if
a call on it failed.  Main statements: `deals_executing`, every execution deals so, and `borrows_of_moves`,
which reads off the steps what that comes to.
-/

namespace Tabular.Interleaving

open Execution (Performs)
open Interaction (Follows Moves)

/-- How an execution stands with the session that it works on. -/
inductive Tenure where
  /-- It has no session yet. -/
  | waiting
  /-- It has borrowed a session; `sound` says whether all calls on it were answered. -/
  | holding (session : Nat) (sound : Bool)
  | returned (session : Nat) (sound : Bool)

/-- Whether a step has nothing to do with a session. -/
def Aside : Step → Prop
  | .met _ => True
  | .asked (.store _) _ => True
  | .asked (.find _) _ => True
  | .asked (.unfinished _) _ => True
  | _ => False

/-- The steps of an execution and how it stands with its session after each. -/
inductive Deals : Tenure → Step → Tenure → Prop where
  | acquire (session : Nat) : Deals .waiting (.asked .acquire (.ok session)) (.holding session true)
  | acquireFails (e : StoreError) : Deals .waiting (.asked .acquire (.error e)) .waiting
  | call {session : Nat} {call : CoordinatorCall} (h : call.session? = some session)
    (answer : Except StoreError call.Answer) :
    Deals (.holding session true) (.asked (.coordinator call) answer) (.holding session answer.isOk)
  | release (session : Nat) (sound : Bool) :
    Deals (.holding session sound) (.asked (.release session sound) ()) (.returned session sound)
  | aside {t : Tenure} {step : Step} (h : Aside step) : Deals t step t

variable {α β : Type} {work : Work Elsewhere α} {tx : Transaction} {t : Tenure} {session : Nat}

/-! ### What has nothing to do with sessions -/

/-- Whether a program never deals with a session. -/
abbrev Aloof (p : Program β) : Prop :=
  Follows (fun (_ : Unit) step _ => Aside step) (fun _ => True) (fun _ _ => True) () p

/-- Whether a program deals with the session of an execution as it may, and `post` holds in the end. -/
abbrev Dealing (post : Tenure → β → Prop) (t : Tenure) (p : Program β) : Prop :=
  Follows Deals (fun _ => True) post t p

theorem Aloof.dealing {p : Program β} (h : Aloof p) : Dealing (fun t' _ => t' = t) t p :=
  Follows.stays h fun _ _ _ hstep => .aside hstep

theorem aloof_writeCells (table : String) (version : Nat) (entries : List (RowKey × Option Row))
    (written : List RowKey) : Aloof (Participant.writeCells shared.store table version entries written) := by
  induction entries generalizing written with
  | nil => trivial
  | cons entry rest ih =>
    refine Follows.ask fun answer _ => ⟨(), trivial, ?_⟩
    cases answer with
    | ok u => exact ih _
    | error e => trivial

theorem aloof_persistAll (participants : List Participant) :
    Aloof (Participant.persistAll shared.store tx participants) := by
  induction participants with
  | nil => trivial
  | cons p rest ih =>
    have hpersist : Aloof (p.persist shared.store tx) :=
      Follows.bind (aloof_writeCells _ _ _ _) fun _ _ _ => trivial
    refine Follows.bind hpersist ?_
    rintro - ⟨result, p'⟩ -
    cases result with
    | ok u => exact Follows.bind ih fun _ _ _ => trivial
    | error e => trivial

theorem aloof_undoCells (table : String) (version : Nat) (keys : List RowKey) :
    Aloof (Participant.undoCells shared.store table version keys) := by
  induction keys with
  | nil => trivial
  | cons key rest ih =>
    refine Follows.ask fun answer _ => ⟨(), trivial, ?_⟩
    cases answer with
    | ok u => exact ih
    | error e => trivial

theorem aloof_rollbackAll (participants : List Participant) :
    Aloof (Participant.rollbackAll shared.store tx participants) := by
  induction participants with
  | nil => trivial
  | cons p rest ih =>
    have hrollback : Aloof (p.rollback shared.store tx) :=
      Follows.bind (aloof_undoCells _ _ _) fun _ _ _ => trivial
    refine Follows.bind hrollback ?_
    rintro - ⟨result, p'⟩ -
    have hrest : Aloof (do
        let r ← Participant.rollbackAll shared.store tx rest
        return (Participant.firstFailure result r.1, p' :: r.2)) := Follows.bind ih fun _ _ _ => trivial
    cases result with
    | ok u => exact hrest
    | error e => exact hrest

theorem aside_of_looks {step : Step} (h : Looks tx step) : Aside step := by
  unfold Looks at h
  split at h <;> trivial

theorem dealing_working : Dealing (fun t' _ => t' = t) t (working work tx) :=
  Follows.stays (fresh_perform work Fresh.empty) fun _ _ _ hlooks => .aside (aside_of_looks hlooks)

/-! ### Settling and ending -/

theorem dealing_settle (orphan : Unfinished) :
    Dealing (fun t result => t = .holding session result.isOk) (.holding session true)
      (shared.settle session orphan).run :=
  follows_settle session fun call _ hsession answer =>
    ⟨_, .call hsession answer, by cases answer <;> rfl⟩

theorem dealing_settleAll (hands : List Unfinished) :
    Dealing (fun t result => t = .holding session result.isOk) (.holding session true)
      (shared.settleAll session hands).run := by
  induction hands with
  | nil => exact rfl
  | cons orphan rest ih =>
    refine Follows.outcome (dealing_settle orphan) ?_
    rintro t result rfl
    cases result with
    | ok u => exact ih
    | error e => exact Follows.ask fun listed _ => ⟨_, .aside trivial, rfl⟩

theorem dealing_settleUnfinished :
    Dealing (fun t result => t = .holding session result.isOk) (.holding session true)
      (shared.settleUnfinished session).run :=
  Follows.ask fun listed _ => ⟨_, .aside trivial, dealing_settleAll listed⟩

/-- A transaction is abandoned on a session that can be used again in the end if it says so. -/
theorem dealing_abandon (usable : Bool) (participants : List Participant) :
    Dealing (fun t reusable => t = .holding session reusable) (.holding session usable)
      (shared.abandon session usable tx participants) := by
  refine Follows.bind (aloof_rollbackAll participants).dealing ?_
  rintro t ⟨result, participants'⟩ rfl
  cases usable with
  | false => exact Follows.ask fun listed _ => ⟨_, .aside trivial, rfl⟩
  | true =>
    refine Follows.bind (dealing_settle _) ?_
    rintro t settled rfl
    cases settled with
    | ok u => exact rfl
    | error e => exact Follows.ask fun listed _ => ⟨_, .aside trivial, rfl⟩

theorem dealing_failWith (usable : Bool) (participants : List Participant) (e : StoreError) :
    Dealing (fun t ending => t = .holding session ending.reusable) (.holding session usable)
      (shared.failWith session usable tx participants e) := by
  refine Follows.bind (dealing_abandon usable participants) ?_
  rintro t reusable rfl
  exact rfl

theorem dealing_confirm (participants : List Participant) (changeCount : Nat) :
    Dealing (fun t ending => t = .holding session ending.reusable) (.holding session true)
      (shared.confirm session tx participants changeCount) := by
  refine Follows.ask fun answer _ => ⟨_, .call rfl answer, ?_⟩
  cases answer with
  | error e => exact dealing_failWith _ _ _
  | ok accepted =>
    cases accepted with
    | false => exact dealing_failWith _ _ _
    | true => exact rfl

theorem dealing_commit (participants : List Participant) :
    Dealing (fun t ending => t = .holding session ending.reusable) (.holding session true)
      (shared.commit session tx participants) := by
  refine Follows.ask fun answer _ => ⟨_, .call rfl answer, ?_⟩
  cases answer with
  | error e => exact dealing_failWith _ _ _
  | ok accepted =>
    cases accepted with
    | false => exact dealing_failWith _ _ _
    | true =>
      refine Follows.bind (p := Participant.persistAll shared.store tx participants)
        (aloof_persistAll participants).dealing ?_
      rintro t ⟨result, written⟩ rfl
      cases result with
      | error e => exact dealing_failWith _ _ _
      | ok u => exact dealing_confirm _ _

/-! ### The execution -/

/-- Whether a runner deals so around the unit of work. -/
abbrev DealingAround (work : Work Elsewhere α) (post : Tenure → β → Prop) (t : Tenure) (x : ExecutionM Program β)
    (progress : Progress α) : Prop :=
  Performs (Follows Deals fun _ => True) (lifted work) (fun t b _ => post t b) t x progress

theorem dealing_inTransaction :
    DealingAround work (fun t ending => t = .holding session ending.reusable) (.holding session true)
      (shared.inTransaction session tx) { } := by
  refine Performs.report (Performs.bind (Performs.invoke (Follows.mono dealing_working ?_)))
  rintro t ⟨result, held⟩ rfl
  cases result with
  | ok a => exact Performs.lifted (dealing_commit _)
  | error failure => exact Performs.report (Performs.lifted (dealing_failWith _ _ _))

theorem dealing_onSession :
    DealingAround work (fun t ending => t = .holding session ending.reusable) (.holding session true)
      (shared.onSession session) { } := by
  refine Performs.lift (dealing_settleUnfinished.mono ?_)
  rintro t settled rfl
  cases settled with
  | error e => exact rfl
  | ok u =>
    refine Performs.lift (Follows.ask fun answer _ => ⟨_, .call rfl answer, ?_⟩)
    cases answer with
    | error e => exact rfl
    | ok tx => exact dealing_inTransaction

/-- Whether an execution has no session to give back. -/
def Tenure.Over : Tenure → Prop
  | holding _ _ => False
  | _ => True

/-- **Every execution borrows one session and gives it back.**  Whatever it is answered, it calls the
coordinator on that session only and stops at the first call that fails; it gives the session back in the
end, and says that it can be used again if and only if no call on it failed. -/
theorem deals_executing (work : Work Elsewhere α) :
    Dealing (fun t _ => t.Over) .waiting (executing work) := by
  have hacquire : Dealing (fun t acquired => match acquired with
      | .ok session => t = .holding session true
      | .error _ => t = .waiting) .waiting shared.sessions.acquire.run := by
    refine Follows.ask fun answer _ => ?_
    cases answer with
    | ok session => exact ⟨_, .acquire session, rfl⟩
    | error e => exact ⟨_, .acquireFails e, rfl⟩
  have hexecution : DealingAround work (fun t _ => t.Over) .waiting shared.execution { } := by
    refine Performs.lift (hacquire.mono ?_)
    rintro t (e | session) rfl
    · trivial
    · refine Performs.bind (dealing_onSession.mono ?_)
      rintro t ending progress rfl
      exact Performs.lift (Follows.ask fun _ _ => ⟨_, .release session _, trivial⟩)
  exact Performs.run hexecution

/-! ### What the steps come to -/

namespace History

/-- The session that a step borrows. -/
def lent? : Step → Option Nat
  | .asked .acquire (.ok session) => some session
  | _ => none

/-- The session that a step gives back, and whether as one that can be used again. -/
def returned? : Step → Option Lease
  | .asked (.release session reusable) _ => some ⟨session, reusable⟩
  | _ => none

/-- The sessions that steps borrowed. -/
def lent (steps : List Step) : List Nat := steps.filterMap lent?

/-- The sessions that steps gave back. -/
def returned (steps : List Step) : List Lease := steps.filterMap returned?

end History

/-- Whether no call to the coordinator failed. -/
def Answered (steps : List Step) : Prop := ∀ call e, .asked (.coordinator call) (.error e) ∉ steps

/-- Whether all calls to the coordinator were made on a session. -/
def CallsOn (session : Nat) (steps : List Step) : Prop :=
  ∀ call answer, .asked (.coordinator call) answer ∈ steps → call.session? = some session

/-- What the steps of an execution come to that stands so with its session. -/
def Tenure.Sums (steps : List Step) : Tenure → Prop
  | waiting => History.lent steps = [] ∧ History.returned steps = [] ∧
      ∀ call answer, .asked (.coordinator call) answer ∉ steps
  | holding session sound => History.lent steps = [session] ∧ History.returned steps = [] ∧
      CallsOn session steps ∧ (sound = true ↔ Answered steps)
  | returned session sound => History.lent steps = [session] ∧
      History.returned steps = [⟨session, sound⟩] ∧ CallsOn session steps ∧ (sound = true ↔ Answered steps)

section Cons

variable {steps : List Step} {step : Step}

theorem Aside.lent?_eq (h : Aside step) : History.lent? step = none := by
  unfold Aside at h
  split at h <;> first | rfl | cases h

theorem Aside.returned?_eq (h : Aside step) : History.returned? step = none := by
  unfold Aside at h
  split at h <;> first | rfl | cases h

theorem Aside.ne_call {call : CoordinatorCall} {answer : Except StoreError call.Answer}
    (h : Aside step) : .asked (.coordinator call) answer ≠ step := by
  rintro rfl
  exact h

theorem callsOn_cons_of_ne
    (h : ∀ (call : CoordinatorCall) answer, .asked (.coordinator call) answer ≠ step) :
    CallsOn session (step :: steps) ↔ CallsOn session steps := by
  refine forall₂_congr fun call answer => ?_
  rw [List.mem_cons, or_iff_right (h call answer)]

theorem answered_cons_of_ne
    (h : ∀ (call : CoordinatorCall) answer, .asked (.coordinator call) answer ≠ step) :
    Answered (step :: steps) ↔ Answered steps := by
  refine forall₂_congr fun call e => ?_
  rw [List.mem_cons, or_iff_right (h call _)]

theorem callsOn_cons_call {call : CoordinatorCall} {answer : Except StoreError call.Answer}
    (hsession : call.session? = some session) (h : CallsOn session steps) :
    CallsOn session (.asked (.coordinator call) answer :: steps) := by
  intro other answer' hmem
  rcases List.mem_cons.1 hmem with heq | hmem
  · cases heq
    exact hsession
  · exact h other answer' hmem

theorem answered_cons_call {call : CoordinatorCall} {answer : Except StoreError call.Answer}
    (h : Answered steps) :
    answer.isOk = true ↔ Answered (.asked (.coordinator call) answer :: steps) := by
  cases answer with
  | ok a =>
    refine iff_of_true rfl fun other e hmem => ?_
    rcases List.mem_cons.1 hmem with heq | hmem
    · cases heq
    · exact h other e hmem
  | error e => exact iff_of_false nofun fun hall => hall call e List.mem_cons_self

theorem Tenure.Sums.aside (h : t.Sums steps) (hstep : Aside step) : t.Sums (step :: steps) := by
  have hlent : History.lent (step :: steps) = History.lent steps :=
    List.filterMap_cons_none hstep.lent?_eq
  have hreturned : History.returned (step :: steps) = History.returned steps :=
    List.filterMap_cons_none hstep.returned?_eq
  have hne : ∀ (call : CoordinatorCall) answer, .asked (.coordinator call) answer ≠ step :=
    fun _ _ => hstep.ne_call
  cases t with
  | waiting =>
    refine ⟨hlent.trans h.1, hreturned.trans h.2.1, fun call answer hmem => ?_⟩
    exact h.2.2 call answer ((List.mem_cons.1 hmem).resolve_left (hne call answer))
  | holding session sound =>
    rw [Sums, hlent, hreturned, callsOn_cons_of_ne hne, answered_cons_of_ne hne]
    exact h
  | returned session sound =>
    rw [Sums, hlent, hreturned, callsOn_cons_of_ne hne, answered_cons_of_ne hne]
    exact h

theorem sums_of_moves (h : Moves Deals .waiting steps t) : t.Sums steps := by
  induction h with
  | here => exact ⟨rfl, rfl, fun _ _ => nofun⟩
  | @step steps t t' step hmoves hdeals ih =>
    cases hdeals with
    | acquire session =>
      obtain ⟨hlent, hreturned, hnone⟩ := ih
      have hcalls : CallsOn session steps := fun call answer hmem => (hnone call answer hmem).elim
      have hanswered : Answered steps := fun call e => hnone call _
      have hne : ∀ (call : CoordinatorCall) answer,
          .asked (.coordinator call) answer ≠ (.asked .acquire (.ok session) : Step) := fun _ _ => nofun
      refine ⟨congrArg (session :: ·) hlent, hreturned, (callsOn_cons_of_ne hne).2 hcalls, ?_⟩
      exact iff_of_true rfl ((answered_cons_of_ne hne).2 hanswered)
    | acquireFails e =>
      obtain ⟨hlent, hreturned, hnone⟩ := ih
      refine ⟨hlent, hreturned, fun call answer hmem => ?_⟩
      exact hnone call answer ((List.mem_cons.1 hmem).resolve_left nofun)
    | call hsession answer =>
      obtain ⟨hlent, hreturned, hcalls, hanswered⟩ := ih
      exact ⟨hlent, hreturned, callsOn_cons_call hsession hcalls, answered_cons_call (hanswered.1 rfl)⟩
    | release session sound =>
      obtain ⟨hlent, hreturned, hcalls, hanswered⟩ := ih
      have hne : ∀ (call : CoordinatorCall) answer, .asked (.coordinator call) answer ≠
          (.asked (.release session sound) () : Step) := fun _ _ => nofun
      refine ⟨hlent, congrArg (_ :: ·) hreturned, (callsOn_cons_of_ne hne).2 hcalls, ?_⟩
      exact hanswered.trans (answered_cons_of_ne hne).symm
    | aside haside => exact ih.aside haside

end Cons

/-- Whether steps make proper use of a session: at most one is borrowed, all calls are made on it, and it is
given back at most once, as one that can be used again if and only if no call failed. -/
structure Borrows (steps : List Step) : Prop where
  lent_le : (History.lent steps).length ≤ 1
  calls : ∀ call answer, .asked (.coordinator call) answer ∈ steps →
    ∃ session ∈ History.lent steps, call.session? = some session
  returned : History.returned steps = [] ∨
    (History.returned steps).map Lease.session = History.lent steps
  reusable : ∀ lease ∈ History.returned steps,
    (lease.reusable = true ↔ Answered steps)

theorem Tenure.Sums.borrows {steps : List Step} (h : t.Sums steps) : Borrows steps := by
  cases t with
  | waiting =>
    obtain ⟨hlent, hreturned, hnone⟩ := h
    refine ⟨by simp [hlent], fun call answer hmem => (hnone call answer hmem).elim, .inl hreturned, ?_⟩
    simp [hreturned]
  | holding session sound =>
    obtain ⟨hlent, hreturned, hcalls, -⟩ := h
    refine ⟨by simp [hlent], fun call answer hmem => ?_, .inl hreturned, by simp [hreturned]⟩
    exact ⟨session, by simp [hlent], hcalls call answer hmem⟩
  | returned session sound =>
    obtain ⟨hlent, hreturned, hcalls, hsound⟩ := h
    refine ⟨by simp [hlent], fun call answer hmem => ?_, .inr (by simp [hlent, hreturned]), ?_⟩
    · exact ⟨session, by simp [hlent], hcalls call answer hmem⟩
    · simpa [hreturned] using hsound

theorem Tenure.Sums.returned_eq {steps : List Step} (h : t.Sums steps) (hover : t.Over) :
    (History.returned steps).map Lease.session = History.lent steps := by
  cases t with
  | waiting =>
    obtain ⟨hlent, hreturned, -⟩ := h
    rw [hlent, hreturned]
    rfl
  | holding session sound => exact hover.elim
  | returned session sound =>
    obtain ⟨hlent, hreturned, -⟩ := h
    rw [hlent, hreturned]
    rfl

/-- The steps of an execution make proper use of a session, and it is given back where the execution
ends. -/
theorem borrows_of_leads {steps : List Step} {p : Program (Except StoreError α)}
    (h : (executing work).Leads steps p) :
    Borrows steps ∧ ∀ result, p = .done result →
      (History.returned steps).map Lease.session = History.lent steps := by
  obtain ⟨t, hmoves, hp⟩ := (deals_executing work).leads h fun _ _ => trivial
  have hsums := sums_of_moves hmoves
  refine ⟨hsums.borrows, ?_⟩
  rintro result rfl
  exact hsums.returned_eq hp

end Tabular.Interleaving
