import Tabular.Attempt
import Tabular.Settings.Basic

/-!
# Tabular.Sessions.Basic — leasing coordinator sessions

A `SessionSource` lends coordinator sessions.  Whoever acquired a session releases it once, and says
whether it can be used again.
-/

namespace Tabular

/-- A way to borrow coordinator sessions. -/
structure SessionSource (m : Type → Type u) where
  strategy : SessionStrategy
  acquire : Attempt m Nat
  /-- Gives a session back and says whether it can be used again. -/
  release : Nat → Bool → m Unit

/-- A borrowed session. -/
structure Lease where
  session : Nat
  /-- Whether it is still good for others. -/
  reusable : Bool := true
deriving DecidableEq, Repr

namespace Lease

/-- Marks the session as broken, so that it is closed instead of being given back. -/
def discard (lease : Lease) : Lease := { lease with reusable := false }

/-- How a strategy is called in the text of a lease. -/
def strategyText : SessionStrategy → String
  | .pool => "Pool"
  | .perThread => "ThreadLocal"

/-- The text of a lease from a source of the given strategy. -/
def text (strategy : SessionStrategy) (lease : Lease) : String :=
  String.join ["ClientLease \x7b strategy: ", strategyText strategy, ", reusable: ",
    toString lease.reusable, " \x7d"]

end Lease

end Tabular
