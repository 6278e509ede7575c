import Tabular.Attempt
import Tabular.Schema.Basic

/-!
# Tabular.Relational.Call — what a relational database is asked

A database is reached through connections, each with a session number of its own while it is open.
Outside a transaction every statement takes effect at once; within one, changes to rows wait for the
commit.  Whoever performs calls is a `RelationalAccess`.
-/

namespace Tabular

/-- A call to a relational database. -/
inductive RelationalCall where
  | connect
  | begin (session : Nat)
  | commit (session : Nat)
  /-- Forgets the changes of the transaction, if there is one. -/
  | rollback (session : Nat)
  | tableExists (session : Nat) (table : String)
  | createTable (session : Nat) (schema : TableSchema)
  | dropTable (session : Nat) (table : String)
  /-- Stores a row under its key in place of any other. -/
  | upsert (session : Nat) (schema : TableSchema) (row : Row)
  | read (session : Nat) (schema : TableSchema) (key : RowKey)
  | delete (session : Nat) (schema : TableSchema) (key : RowKey)
  | scan (session : Nat) (schema : TableSchema)

/-- What a call answers. -/
abbrev RelationalCall.Answer : RelationalCall → Type
  | connect => Nat
  | begin _ => Unit
  | commit _ => Unit
  | rollback _ => Unit
  | tableExists _ _ => Bool
  | createTable _ _ => Unit
  | dropTable _ _ => Unit
  | upsert _ _ _ => Unit
  | read _ _ _ => Option Row
  | delete _ _ _ => Unit
  | scan _ _ => List Row

/-- A way to use a relational database. -/
structure RelationalAccess (m : Type → Type u) where
  perform : (call : RelationalCall) → Attempt m call.Answer
  /-- Closes a connection, which forgets the changes of an open transaction. -/
  close : Nat → m Unit
  /-- Whether a connection has an open transaction. -/
  inTransaction : Nat → m Bool
  /-- Which database this is. -/
  describe : m String

/-- Uses a connection of its own for a computation and closes it, whatever becomes of it. -/
def RelationalAccess.withConnection {m : Type → Type u} [Monad m] {α : Type} (db : RelationalAccess m)
    (use : Nat → Attempt m α) : Attempt m α := do
  let session ← db.perform .connect
  let result ← (use session).outcome
  db.close session
  Attempt.of result

end Tabular
