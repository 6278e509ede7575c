import Tabular.Attempt
import Tabular.Journal
import Tabular.Settings.Basic
import Tabular.Work.Basic

/-!
# Tabular.Runner.Execution — running a unit of work in a transaction

An `Execution` is what a runner does around a unit of work: an interaction that asks for invocations of
the work, on tables of its choice.  `Execution.run` runs it with a unit of work.  Whatever the runner
does, the work is performed at most once, and its value comes back only if the execution ended well.
-/

namespace Tabular

/-- A request to perform the unit of work on tables, starting in a state. -/
structure Invocation (m : Type → Type u) where
  State : Type
  tables : Tables m State
  start : State

/-- What comes of an invocation: how the work ended and the last state of the tables. -/
abbrev Invocation.Outcome {m : Type → Type u} (i : Invocation m) : Type := Except Failure Unit × i.State

/-- What a runner does, as a computation that may ask for invocations of the unit of work. -/
abbrev ExecutionM (m : Type → Type u) := Interaction (Invocation.Outcome (m := m)) m

/-- What a runner does, up to its answer. -/
abbrev Execution (m : Type → Type u) := ExecutionM m (Except StoreError Unit)

/-- A way to run units of work. -/
structure Runner (m : Type → Type u) where
  /-- The family of storage that the runner belongs to. -/
  kind : StorageKind
  /-- What it does around a unit of work. -/
  execution : Execution m

/-- How far a unit of work has come. -/
structure Progress (α : Type) where
  performed : Bool := false
  /-- Its value, if it was performed and ended well. -/
  value : Option α := none

namespace Execution

variable {m : Type → Type u} [Monad m] {α : Type}

/-- What a second invocation answers. -/
def repeated : StoreError := .transactionAborted "unit of work invoked more than once"

/-- What an execution answers that ended well without a value of the work. -/
def withoutResult : StoreError := .transactionAborted "unit of work produced no result"

/-- Performs the work at the first invocation and refuses every later one. -/
def invokeOnce (work : Work m α) (i : Invocation m) : StateT (Progress α) m i.Outcome := fun progress =>
  if progress.performed then pure ((.error (.error repeated), i.start), progress)
  else do
    let (result, state) ← (work.perform i.tables).run i.start
    match result with
    | .ok a => pure ((.ok (), state), { performed := true, value := some a })
    | .error failure => pure ((.error failure, state), { performed := true })

/-- Runs a unit of work. -/
def run (execution : Execution m) (work : Work m α) : Attempt m α := ExceptT.mk do
  let run := Interaction.run (n := StateT (Progress α) m) StateT.lift (invokeOnce work) execution
  let (result, progress) ← run { }
  return match result, progress.value with
    | .error e, _ => .error e
    | .ok (), some a => .ok a
    | .ok (), none => .error withoutResult

/-- Asks for an invocation; a panic is reported and becomes an error. -/
def invoke [Journal m] {σ : Type} (tables : Tables m σ) (start : σ) :
    ExecutionM m (Except StoreError Unit × σ) := do
  let (result, state) ← Interaction.request ({ State := σ, tables, start } : Invocation m)
  match result with
  | .ok () => return (.ok (), state)
  | .error (.error e) => return (.error e, state)
  | .error (.panic text) =>
    let text := text.getD "unknown panic"
    report (.error s!"Unit of work panicked: {text}")
    return (.error (.workPanicked text), state)

end Execution

end Tabular
