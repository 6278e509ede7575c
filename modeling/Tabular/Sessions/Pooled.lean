import Tabular.Coordinator.Call
import Tabular.Pool.Checkout
import Tabular.Sessions.Basic

/-!
# Tabular.Sessions.Pooled — sessions from a pool

All threads share a bounded pool of sessions.  A session that broke is closed, which makes room for a
new one.
-/

namespace Tabular.SessionSource

variable {m : Type → Type u} [Monad m] [Journal m]

/-- Borrows sessions from a pool. -/
def pooled (coordinator : CoordinatorAccess m) (pool : Cell m (Pool Nat)) (waitMs : Nat) :
    SessionSource m where
  strategy := .pool
  acquire := Pool.checkout pool "coordinator client" waitMs (coordinator .connect)
  release session reusable := do
    unless reusable do
      report (.warn "Closing broken coordinator client instead of returning it to the pool")
    Pool.checkin pool session reusable

end Tabular.SessionSource
