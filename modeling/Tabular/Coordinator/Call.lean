import Tabular.Attempt
import Tabular.Transaction

/-!
# Tabular.Coordinator.Call — what a coordinator is asked

Coordinators are reached through calls: opening a session, and on a session the five steps of a
transaction's life.  Whoever performs calls is a `CoordinatorAccess`.
-/

namespace Tabular

inductive CoordinatorCall where
  | connect
  | begin (session : Nat)
  /-- Announces what a transaction changed and asks whether it may commit. -/
  | canCommit (session : Nat) (tx : Transaction) (changes : ChangeSet)
  /-- Makes the writes of a transaction visible. -/
  | commit (session : Nat) (tx : Transaction)
  /-- Ends a transaction whose writes are gone. -/
  | abort (session : Nat) (tx : Transaction)
  /-- Ends a transaction whose writes must never be seen. -/
  | invalidate (session : Nat) (tx : Transaction)

/-- What a call answers: a session, a transaction, or whether the step could be taken. -/
abbrev CoordinatorCall.Answer : CoordinatorCall → Type
  | connect => Nat
  | begin _ => Transaction
  | canCommit _ _ _ => Bool
  | commit _ _ => Bool
  | abort _ _ => Unit
  | invalidate _ _ => Bool

/-- A way to perform calls to a coordinator. -/
abbrev CoordinatorAccess (m : Type → Type u) := (call : CoordinatorCall) → Attempt m call.Answer

end Tabular
