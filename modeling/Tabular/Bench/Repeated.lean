import Tabular.Runner.Execution

/-!
# Tabular.Bench.Repeated — a runner that insists

`repeated` invokes the unit of work a number of times, which no runner should do; `counting` is a unit of
work that counts how often it is performed.
-/

namespace Tabular.Bench

variable {m : Type → Type u} [Monad m]

/-- Invokes the work `calls` times.  The first error ends the execution, unless errors are ignored. -/
def repeated (ignoreErrors : Bool) : (calls : Nat) → Execution m
  | 0 => return .ok ()
  | calls + 1 => do
    let invocation : Invocation m := { State := Unit, tables := Tables.none, start := () }
    let (result, _) ← Interaction.request invocation
    match result with
    | .ok () => repeated ignoreErrors calls
    | .error failure =>
      if ignoreErrors then repeated ignoreErrors calls
      else
        return .error <| match failure with
          | .error e => e
          | .panic text => .workPanicked (text.getD "")

/-- Counts, then opens a table if one is given, and answers seven. -/
def counting (table : Option String) : Work (StateM Nat) Nat :=
  .act (modify (· + 1) : StateM Nat Unit) fun _ =>
    match table with
    | some table => (Work.call (.visit table)).andThen fun _ => .done (.ok 7)
    | none => .done (.ok 7)

/-- What running the counting work answers, and how often it was performed. -/
def countRuns (calls : Nat) (ignoreErrors : Bool) (table : Option String) : Except StoreError Nat × Nat :=
  (((repeated ignoreErrors calls : Execution (StateM Nat)).run (counting table)).run).run 0

end Tabular.Bench
