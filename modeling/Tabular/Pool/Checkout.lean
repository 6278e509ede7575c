import Tabular.Attempt
import Tabular.Cell
import Tabular.Journal
import Tabular.Pool.Basic

/-!
# Tabular.Pool.Checkout — taking items from a shared pool

`Pool.checkout` takes an idle item or makes a new one; the pool is free for others while an item is
being made.
-/

namespace Tabular.Pool

variable {m : Type → Type u} [Monad m] [Journal m] {α : Type}

/-- What is reported when an item was not to be had. -/
def timeoutEvent (resource : String) (waitMs outstanding : Nat) : Event :=
  .warn s!"Timed out waiting {waitMs} ms for {resource} ({outstanding} outstanding)"

/-- Takes an item from a pool of `resource`, or makes one with `create` if the pool has a slot. -/
def checkout (pool : Cell m (Pool α)) (resource : String) (waitMs : Nat)
    (create : Attempt m α) : Attempt m α := do
  let before ← pool.update take
  match before.taken with
  | .item a => return a
  | .slot =>
    match ← create.outcome with
    | .ok a =>
      pool.modify fill
      return a
    | .error e =>
      pool.modify giveBack
      throw e
  | .nothing =>
    report (timeoutEvent resource waitMs before.outstanding)
    throw (.poolTimeout resource waitMs)

/-- Returns an item to a pool. -/
def checkin (pool : Cell m (Pool α)) (a : α) (reusable : Bool) : m Unit :=
  pool.modify (·.put a reusable)

end Tabular.Pool
