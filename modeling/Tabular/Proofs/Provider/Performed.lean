import Tabular.Proofs.Provider.Work

/-!
# Tabular.Proofs.Provider.Performed — where in a task its unit of work is performed

`Records` keeps every step of a program.  Main statement: `System.performed`, a task that came to a value took
among its steps those by which its unit of work came to that value, in a transaction or on a connection.
-/

namespace Tabular.Provider

open Execution (Performs)
open Interaction (Follows)

variable {α β γ : Type} {setup : Setup} {work : Work Id α} {steps : List Step}

/-- The move that keeps a step, the latest first. -/
def Records (steps : List Step) (step : Step) (steps' : List Step) : Prop := steps' = step :: steps

/-- Whether a program keeps its steps, and ends well. -/
abbrev Keeping (post : List Step → β → Prop) (steps : List Step) (p : Program β) : Prop :=
  Follows Records (fun _ => True) post steps p

/-- A program keeps the steps that have led to its end. -/
theorem keeping_of_leads {p q : Program β} {taken : List Step} (h : p.Leads taken q) :
    Keeping (fun steps' b => ∃ taken, steps' = taken ++ steps ∧ p.Leads taken (.done b)) (taken ++ steps) q := by
  induction q generalizing taken with
  | done b => exact ⟨taken, rfl, h⟩
  | act x next ih => exact fun outcome _ => ⟨_, rfl, ih outcome (h.step (.met x next outcome))⟩
  | ask r next ih => exact fun answer _ => ⟨_, rfl, ih answer (h.step (.asked r next answer))⟩

/-- A program keeps what was kept before. -/
theorem keeping_suffix (p : Program β) : Keeping (fun steps' _ => steps <:+ steps') steps p := by
  have h : Keeping _ ([] ++ steps) p := keeping_of_leads .here
  refine Follows.mono h ?_
  rintro _ _ ⟨taken, rfl, -⟩
  exact List.suffix_append taken steps

section Units

variable {τ : Type} {tables : Tables Program τ} {start state : τ} {taken : List Step}
  {ops : List ((call : TableCall) × Except StoreError call.Answer)}

/-- A unit of work keeps the steps by which it has come to its end. -/
theorem keeping_work {rest : Work Id α} (h : Came tables work start taken ops state rest) :
    Keeping (fun steps' r => ∃ taken ops, steps' = taken ++ steps ∧ Came tables work start taken ops r.2 (.done r.1))
      (taken ++ steps) ((Work.perform tables rest.hoist).run state) := by
  -- Over what is left of the work; `taken` are the steps before it.
  induction rest generalizing taken ops state with
  | done r => exact ⟨taken, ops, rfl, h⟩
  | act x next ih => exact ih x h.act
  | ask call next ih =>
    have hcall : Keeping _ ([] ++ (taken ++ steps)) ((tables call).run state) := keeping_of_leads .here
    refine Follows.bind hcall ?_
    rintro _ r ⟨inner, rfl, hop⟩
    rw [← List.append_assoc]
    exact ih r.1 (h.operation hop)

/-- Whether a unit of work on tables came to a value by steps that are among the given ones. -/
def CameAmong (tables : Tables Program τ) (work : Work Id α) (start : τ) (steps : List Step) (a : α) : Prop :=
  ∃ taken ops state, taken <:+: steps ∧ Came tables work start taken ops state (.done (.ok a))

theorem CameAmong.mono {steps' : List Step} {a : α} (h : CameAmong tables work start steps a)
    (hsteps : steps <:+ steps') : CameAmong tables work start steps' a := by
  obtain ⟨taken, ops, state, htaken, hcame⟩ := h
  exact ⟨taken, ops, state, htaken.trans hsteps.isInfix, hcame⟩

end Units

/-- Whether a unit of work came to a value in a transaction or on a connection, by steps that are among the
given ones. -/
inductive Performed (setup : Setup) (work : Work Id α) (steps : List Step) (a : α) : Prop where
  | inTransaction (hkind : setup.kind = .versioned) (tx : Transaction)
    (h : CameAmong ((coordinated setup).tables tx) work ∅ steps a)
  | onConnection (hkind : setup.kind = .relational) (session : Nat)
    (h : CameAmong (native.tables session) work ∅ steps a)

/-! ### Executions -/

/-- Whether a runner keeps its steps around a unit of work, and what holds of them if the work came to a value. -/
abbrev KeepingAround (work : Work Id α) (Q : List Step → α → Prop) (steps : List Step)
    (x : ExecutionM Program β) (progress : Progress α) : Prop :=
  Performs (Follows Records fun _ => True) work.hoist
    (fun steps _ progress => ∀ a, progress.value = some a → Q steps a) steps x progress

namespace KeepingAround

variable {Q : List Step → α → Prop} {progress : Progress α}

/-- Whatever a runner does on its own, it keeps what was kept before. -/
theorem lift {y : Program β} {f : β → ExecutionM Program γ}
    (hf : ∀ steps', steps <:+ steps' → ∀ b, KeepingAround work Q steps' (f b) progress) :
    KeepingAround work Q steps (liftM y >>= f) progress :=
  Performs.lift (Follows.mono (keeping_suffix y) fun steps' b h => hf steps' h b)

theorem lifted {y : Program β} (h : ∀ steps', steps <:+ steps' → ∀ a, progress.value = some a → Q steps' a) :
    KeepingAround work Q steps (liftM y) progress :=
  Performs.lifted (Follows.mono (keeping_suffix y) fun steps' _ hs => h steps' hs)

/-- What ends without having performed the work. -/
theorem pure {b : β} : KeepingAround work Q steps (pure b : ExecutionM Program β) { } :=
  Performs.pure fun _ ha => by cases ha

/-- The rule for the invocation of a unit of work that is followed by what the runner does on its own. -/
theorem invoke {τ : Type} {tables : Tables Program τ} {t : τ}
    {f : Except StoreError Unit × τ → ExecutionM Program γ}
    (hf : ∀ r progress steps', (∀ a, progress.value = some a → CameAmong tables work t steps' a) →
      KeepingAround work Q steps' (f r) progress) :
    KeepingAround work Q steps (Execution.invoke tables t >>= f) { } := by
  have hwork : Keeping _ ([] ++ steps) ((Work.perform tables work.hoist).run t) := keeping_work .begin
  refine Performs.bind (Performs.invoke (Follows.mono hwork ?_))
  rintro _ ⟨ended, state⟩ ⟨taken, ops, rfl, hcame⟩
  refine hf _ _ _ fun a ha => ?_
  cases ended with
  | ok b =>
    cases ha
    exact ⟨taken, ops, state, (List.prefix_append ..).isInfix, hcame⟩
  | error failure => cases ha

end KeepingAround

/-- A runner over a versioned store performs the work in a transaction. -/
theorem keeping_coordinated : KeepingAround work
    (fun steps a => ∃ tx, CameAmong ((coordinated setup).tables tx) work ∅ steps a) steps
    (coordinated setup).execution { } := by
  refine KeepingAround.lift fun steps _ r => ?_
  cases r with
  | error e => exact KeepingAround.pure
  | ok session =>
    have hsession : KeepingAround work
        (fun steps a => ∃ tx, CameAmong ((coordinated setup).tables tx) work ∅ steps a) steps
        ((coordinated setup).onSession session) { } := by
      refine KeepingAround.lift fun steps _ r => ?_
      cases r with
      | error e => exact KeepingAround.pure
      | ok =>
        refine KeepingAround.lift fun steps _ r => ?_
        cases r with
        | error e => exact KeepingAround.pure
        | ok tx =>
          refine Performs.report (KeepingAround.invoke fun r progress steps h => ?_)
          obtain ⟨r, participants⟩ := r
          cases r with
          | ok => exact KeepingAround.lifted fun _ hsteps a ha => ⟨tx, (h a ha).mono hsteps⟩
          | error e => exact KeepingAround.lifted fun _ hsteps a ha => ⟨tx, (h a ha).mono hsteps⟩
    refine Performs.bind (hsession.mono fun steps ending progress h => ?_)
    refine KeepingAround.lift fun steps' hsteps _ a ha => ?_
    obtain ⟨tx, hcame⟩ := h a ha
    exact ⟨tx, hcame.mono hsteps⟩

/-- A runner over a relational database performs the work on a connection. -/
theorem keeping_native : KeepingAround work
    (fun steps a => ∃ session, CameAmong (native.tables session) work ∅ steps a) steps native.execution { } := by
  refine KeepingAround.lift fun steps _ r => ?_
  cases r with
  | error e => exact KeepingAround.pure
  | ok session =>
    have hconnection : KeepingAround work
        (fun steps a => ∃ session, CameAmong (native.tables session) work ∅ steps a) steps
        (native.onConnection session) { } := by
      refine KeepingAround.lift fun steps _ r => ?_
      cases r with
      | error e => exact KeepingAround.pure
      | ok =>
        refine KeepingAround.invoke fun r progress steps h => ?_
        obtain ⟨r, opened⟩ := r
        cases r with
        | ok => exact KeepingAround.lifted fun _ hsteps a ha => ⟨session, (h a ha).mono hsteps⟩
        | error e => exact KeepingAround.lift fun _ hsteps _ a ha => ⟨session, (h a ha).mono hsteps⟩
    refine Performs.bind (hconnection.mono fun steps r progress h => ?_)
    refine KeepingAround.lift fun steps' hsteps _ a ha => ?_
    obtain ⟨session, hcame⟩ := h a ha
    exact ⟨session, hcame.mono hsteps⟩

/-- What holds of a value of the work holds of a value of its execution. -/
theorem KeepingAround.run {Q : List Step → α → Prop} {x : Execution Program}
    (h : KeepingAround work Q steps x { }) :
    Keeping (fun steps r => ∀ a, r = .ok a → Q steps a) steps (x.run work.hoist).run := by
  refine Performs.run (h.mono ?_)
  rintro steps r ⟨performed, value⟩ hvalue a ha
  cases r with
  | error e => cases ha
  | ok =>
    cases value with
    | none => cases ha
    | some b =>
      cases ha
      exact hvalue _ rfl

/-! ### Tasks -/

/-- Whoever runs a unit of work keeps the steps by which it comes to its value. -/
theorem keeping_task : Keeping (fun steps r => ∀ a, r = .ok (.value a) → Performed setup work steps a) steps
    ((Task.ask (.run work)).program setup) := by
  have hrun : Keeping (fun steps r => ∀ a, r = .ok a → Performed setup work steps a) steps
      (setup.engine.runner.execution.run work.hoist).run := by
    obtain ⟨storage, settings, strategy⟩ := setup
    cases storage with
    | versioned =>
      refine Follows.mono keeping_coordinated.run fun steps r h a ha => ?_
      obtain ⟨tx, hcame⟩ := h a ha
      exact .inTransaction rfl tx hcame
    | relational =>
      refine Follows.mono keeping_native.run fun steps r h a ha => ?_
      obtain ⟨session, hcame⟩ := h a ha
      exact .onConnection rfl session hcame
  refine Follows.andThen hrun ?_ ?_
  · rintro steps a h _ ⟨⟩
    exact h a rfl
  · rintro steps e - _ ⟨⟩

/-! ### The system -/

namespace System

variable {ι : Type} [DecidableEq ι] {s s' : System ι α}

/-- Whether whoever runs a unit of work keeps the steps by which it comes to its value. -/
def Recording (setup : Setup) (r : Running α) : Prop :=
  ∀ work, r.task = .ask (.run work) →
    Keeping (fun steps r => ∀ a, r = .ok (.value a) → Performed setup work steps a) r.steps r.program

theorem recording_next (h : ∀ i r, s.busy i = some r → Recording setup r) (hnext : Next setup s s') (i : ι)
    (r : Running α) (hbusy : s'.busy i = some r) : Recording setup r := by
  cases hnext with
  | begin j task hfree hadmits =>
    rcases eq_or_ne i j with rfl | hij
    · cases (Function.update_self i _ s.busy).symm.trans hbusy
      rintro work rfl
      exact keeping_task
    · exact h i r ((Function.update_of_ne hij _ s.busy).symm.trans hbusy)
  | @step j r' step p w hbusy' htakes hmeets =>
    rcases eq_or_ne i j with rfl | hij
    · cases (Function.update_self i _ s.busy).symm.trans hbusy
      intro work htask
      obtain ⟨_, rfl, hkeeping⟩ := (h i r' hbusy' work htask).takes htakes trivial
      exact hkeeping
    · exact h i r ((Function.update_of_ne hij _ s.busy).symm.trans hbusy)
  | finish j hbusy' hdone =>
    rcases eq_or_ne i j with rfl | hij
    · cases (Function.update_self i _ s.busy).symm.trans hbusy
    · exact h i r ((Function.update_of_ne hij _ s.busy).symm.trans hbusy)

/-- **A unit of work that came to a value was performed, by steps that are among those of its task.** -/
theorem performed {url : String} {limit waitMs : Nat} {i : ι} {r : Running α} {a : α}
    (hs : Reaches setup (.start url limit waitMs) s) (hbusy : s.busy i = some r)
    (htask : r.task = .ask (.run work)) (hdone : r.program = .done (.ok (.value a))) :
    Performed setup work r.steps a := by
  have hrecording : ∀ i r, s.busy i = some r → Recording setup r := by
    clear hbusy
    induction hs with
    | refl => exact fun i r hr => by cases hr
    | tail _ hnext ih => exact recording_next ih hnext
  have hkeeping := hrecording i r hbusy work htask
  rw [hdone] at hkeeping
  exact hkeeping a rfl

end System

end Tabular.Provider
