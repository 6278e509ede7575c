import Tabular.Error

/-!
# Tabular.Attempt — computations that may fail

An `Attempt` is a computation that may fail with a `StoreError`.  `Attempt.outcome` runs one and goes on
with how it ended, `Attempt.mapError` restates its failure.
-/

namespace Tabular

/-- A computation in `m` that may fail. -/
abbrev Attempt (m : Type → Type u) := ExceptT StoreError m

namespace Attempt

variable {m : Type → Type u} [Monad m] {α : Type}

/-- Runs an attempt and answers how it ended. -/
def outcome (x : Attempt m α) : Attempt m (Except StoreError α) := ExceptT.lift x.run

/-- Restates the failure of an attempt. -/
def mapError (restate : StoreError → StoreError) (x : Attempt m α) : Attempt m α :=
  ExceptT.mk (Except.mapError restate <$> x.run)

/-- The same attempt beside a state that it does not touch. -/
def lifted {σ : Type} (x : Attempt m α) : Attempt (StateT σ m) α := ExceptT.mk (StateT.lift x.run)

/-- The attempt that ends as given. -/
def of (result : Except StoreError α) : Attempt m α := ExceptT.mk (pure result)

end Attempt

end Tabular
