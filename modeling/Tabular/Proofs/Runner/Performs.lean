import Tabular.Proofs.Engine.Reference
import Tabular.Proofs.Interaction.Follows
import Tabular.Runner.Execution

/-!
# Tabular.Proofs.Runner.Performs — what a runner does around a unit of work

`conduct` is what a runner does, with the unit of work performed where it is invoked; there is an equation
for each step.  A `ProgramLogic` says in what ways computations may end next to an outside, and `Performs`
carries it over to runners, with one rule for each way of putting executions together.  Main statements:
`Performs.invoke`, the rule for the invocation of the unit of work, and `Performs.run`, that for the whole.
-/

namespace Tabular

/-- Whether `E post k x`, read as "begun where the outside is `k`, `x` ends so that `post` holds of the
outside and its value", is preserved by the ways of putting computations together. -/
class ProgramLogic {M : Type → Type u} [Monad M] {κ : Type v}
    (E : {β : Type} → (κ → β → Prop) → κ → M β → Prop) : Prop where
  mono {β : Type} {post post' : κ → β → Prop} {k : κ} {x : M β} :
    E post k x → (∀ k b, post k b → post' k b) → E post' k x
  pure {β : Type} {post : κ → β → Prop} {k : κ} {b : β} : post k b → E post k (pure b)
  /-- The rule for sequencing. -/
  bind {β γ : Type} {post : κ → γ → Prop} {k : κ} {x : M β} {f : β → M γ} :
    E (fun k b => E post k (f b)) k x → E post k (x >>= f)

/-- Whether what is reported makes no difference. -/
class ProgramLogic.Unheard {M : Type → Type u} [Monad M] [Journal M] {κ : Type v}
    (E : {β : Type} → (κ → β → Prop) → κ → M β → Prop) : Prop where
  report {post : κ → Unit → Prop} {k : κ} {event : Event} : post k () → E post k (report event)

namespace Execution

variable {M : Type → Type u} {α β γ τ : Type}

/-! ### The steps of a runner -/

/-- How far the work has come once it ended so. -/
def after (result : Except Failure α) : Progress α := { performed := true, value := result.toOption }

/-- What an invocation reports of a unit of work that ended so. -/
def reported : Except Failure α → Except StoreError Unit
  | .ok _ => .ok ()
  | .error failure => .error failure.reported

/-- What a run answers whose execution ended so, with the value of the work. -/
def conclude : Except StoreError Unit → Option α → Except StoreError α
  | .error e, _ => .error e
  | .ok (), some a => .ok a
  | .ok (), none => .error withoutResult

variable [Monad M]

/-- What comes of what a runner does, and how far the work has come then. -/
def conduct (work : Work M α) (x : ExecutionM M β) (progress : Progress α) : M (β × Progress α) :=
  (Interaction.run (n := StateT (Progress α) M) StateT.lift (invokeOnce work) x).run progress

variable {work : Work M α} {progress : Progress α} {i : Invocation M}

theorem conduct_done (b : β) : conduct work (.done b) progress = pure (b, progress) := rfl

theorem invokeOnce_first (h : progress.performed = false) :
    (invokeOnce work i).run progress = (work.perform i.tables).run i.start >>= fun r =>
      pure ((r.1.map fun _ => (), r.2), after r.1) := by
  simp only [StateT.run, invokeOnce, h]
  refine bind_congr fun r => ?_
  obtain ⟨result, state⟩ := r
  cases result <;> rfl

theorem invokeOnce_later (h : progress.performed = true) :
    (invokeOnce work i).run progress = pure ((.error (.error repeated), i.start), progress) := by
  simp [StateT.run, invokeOnce, h]

section Lawful

variable [LawfulMonad M]

theorem conduct_bind (x : ExecutionM M β) (f : β → ExecutionM M γ) :
    conduct work (x >>= f) progress = conduct work x progress >>= fun r => conduct work (f r.1) r.2 := by
  rw [conduct, Interaction.run_bind]
  rfl

theorem conduct_act (y : M β) (next : β → ExecutionM M γ) :
    conduct work (.act y next) progress = y >>= fun b => conduct work (next b) progress := by
  simp [conduct, Interaction.run]

/-- The first call performs the work. -/
theorem conduct_first (h : progress.performed = false) (next : i.Outcome → ExecutionM M β) :
    conduct work (.ask i next) progress = (work.perform i.tables).run i.start >>= fun r =>
      conduct work (next (r.1.map fun _ => (), r.2)) (after r.1) := by
  simp [conduct, Interaction.run, invokeOnce_first h]

/-- A later call does not. -/
theorem conduct_later (h : progress.performed = true) (next : i.Outcome → ExecutionM M β) :
    conduct work (.ask i next) progress =
      conduct work (next (.error (.error repeated), i.start)) progress := by
  simp [conduct, Interaction.run, invokeOnce_later h]

theorem run_eq_conclude (x : Execution M) (work : Work M α) :
    (x.run work).run = (fun r => conclude r.1 r.2.value) <$> conduct work x { } := by
  rw [← bind_pure_comp]
  refine bind_congr fun r => ?_
  obtain ⟨_ | _, _, _ | _⟩ := r <;> rfl

end Lawful

/-! ### Rules -/

variable {κ : Type v} {E : {β : Type} → (κ → β → Prop) → κ → M β → Prop}

/-- Whether what a runner does around a unit of work ends so that `post` holds of the outside, of its value and
of how far the work has come. -/
def Performs (E : {β : Type} → (κ → β → Prop) → κ → M β → Prop) (work : Work M α)
    (post : κ → β → Progress α → Prop) (k : κ) (x : ExecutionM M β) (progress : Progress α) : Prop :=
  E (fun k r => post k r.1 r.2) k (conduct work x progress)

namespace Performs

variable [ProgramLogic E] {k : κ} {post : κ → β → Progress α → Prop}

theorem mono {post' : κ → β → Progress α → Prop} {x : ExecutionM M β}
    (h : Performs E work post k x progress)
    (hpost : ∀ k b progress, post k b progress → post' k b progress) :
    Performs E work post' k x progress :=
  ProgramLogic.mono h fun k r => hpost k r.1 r.2

theorem pure {b : β} (h : post k b progress) : Performs E work post k (pure b) progress :=
  ProgramLogic.pure (E := E) (b := (b, progress)) h

variable [LawfulMonad M]

/-- The rule for sequencing. -/
theorem bind {x : ExecutionM M γ} {f : γ → ExecutionM M β}
    (h : Performs E work (fun k c progress => Performs E work post k (f c) progress) k x progress) :
    Performs E work post k (x >>= f) progress := by
  unfold Performs
  rw [conduct_bind]
  exact ProgramLogic.bind h

/-- What a runner does on its own. -/
theorem lift {y : M γ} {f : γ → ExecutionM M β}
    (h : E (fun k c => Performs E work post k (f c) progress) k y) :
    Performs E work post k (liftM y >>= f) progress := by
  have hact : conduct work (liftM y >>= f) progress = y >>= fun c => conduct work (f c) progress :=
    conduct_act y f
  rw [Performs, hact]
  exact ProgramLogic.bind h

/-- What a runner does on its own in the end. -/
theorem lifted {y : M β} (h : E (fun k b => post k b progress) k y) :
    Performs E work post k (liftM y) progress := by
  rw [← bind_pure (liftM y : ExecutionM M β)]
  exact lift (ProgramLogic.mono h fun k b => pure)

/-- The rule for asking for the unit of work. -/
theorem request {tables : Tables M τ} {t : τ} {post : κ → Except Failure Unit × τ → Progress α → Prop}
    (h : E (fun k r => post k (r.1.map fun _ => (), r.2) (after r.1)) k ((work.perform tables).run t)) :
    Performs E work post k
      (Interaction.request ({ State := τ, tables, start := t } : Invocation M)) { } := by
  rw [Performs, Interaction.request, conduct_first rfl]
  exact ProgramLogic.bind (ProgramLogic.mono h fun k r hpost => pure hpost)

variable [Journal M] [ProgramLogic.Unheard E]

theorem report {event : Event} {f : Unit → ExecutionM M β} (h : Performs E work post k (f ()) progress) :
    Performs E work post k ((Tabular.report event : ExecutionM M Unit) >>= f) progress :=
  lift (ProgramLogic.Unheard.report (E := E) h)

/-- **An invocation ends as the unit of work does,** and answers what it reports of it. -/
theorem invoke {tables : Tables M τ} {t : τ} {post : κ → Except StoreError Unit × τ → Progress α → Prop}
    (h : E (fun k r => post k (reported r.1, r.2) (after r.1)) k ((work.perform tables).run t)) :
    Performs E work post k (Execution.invoke tables t) { } := by
  refine bind (request (ProgramLogic.mono h ?_))
  rintro k ⟨ended, t'⟩ hpost
  match ended, hpost with
  | .ok a, hpost => exact pure hpost
  | .error (.error e), hpost => exact pure hpost
  | .error (.panic text), hpost => exact report (pure hpost)

omit [Journal M] [ProgramLogic.Unheard E] in
/-- **Running an execution ends as its runner does around the unit of work.** -/
theorem run {x : Execution M} {post : κ → Except StoreError α → Prop}
    (h : Performs E work (fun k r progress => post k (conclude r progress.value)) k x { }) :
    E post k (x.run work).run := by
  rw [run_eq_conclude, ← bind_pure_comp]
  exact ProgramLogic.bind (ProgramLogic.mono h fun k r => ProgramLogic.pure)

end Performs

end Execution

end Tabular
