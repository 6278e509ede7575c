import Tabular.Catalog.Tabled
import Tabular.Runner.Execution

/-!
# Tabular.Runner.Native — transactions of the relational database

A unit of work runs in a transaction of the database, on one connection.  Schemas that the catalog does
not know yet are read on the same connection, so a unit of work never needs a second one.
-/

namespace Tabular

/-- What a runner over a relational database works with. -/
structure Native (m : Type → Type u) where
  db : RelationalAccess m
  catalog : Catalog m

/-- The schemas of the tables that a unit of work has opened, by the name they were opened under. -/
abbrev OpenedSchemas := Std.ExtTreeMap String TableSchema

namespace Native

variable {m : Type → Type u} [Monad m] [Journal m]

/-- What a failure of the connection means for a unit of work. -/
def intoAborted : StoreError → StoreError
  | .connection reason => .transactionAborted s!"connection failure: {reason}"
  | e => e

/-- The schema of a table, looked up when the table is first opened. -/
def schemaOf (r : Native m) (session : Nat) (table : String) :
    Attempt (StateT OpenedSchemas m) TableSchema := do
  let opened : OpenedSchemas ← get
  match opened[table]? with
  | some schema => return schema
  | none =>
    let schema ← (r.catalog.findWith table (Catalog.findOn r.db session table)).lifted
    set (opened.insert table schema)
    return schema

/-- The table operations of a unit of work on a connection. -/
def attempt (r : Native m) (session : Nat) :
    (call : TableCall) → Attempt (StateT OpenedSchemas m) call.Answer
  | .visit table => do
    let _ ← r.schemaOf session table
  | .schema table => r.schemaOf session table
  | .upsert table row => do
    let schema ← r.schemaOf session table
    let key ← Attempt.of (schema.keyOf row)
    let existing ← (r.db.perform (.read session schema key)).lifted
    let merged ← Attempt.of (schema.mergeRow existing row)
    (r.db.perform (.upsert session schema merged)).lifted
  | .read table key => do
    let schema ← r.schemaOf session table
    let key ← Attempt.of (schema.keyFromValues key)
    (r.db.perform (.read session schema key)).lifted
  | .delete table key => do
    let schema ← r.schemaOf session table
    let key ← Attempt.of (schema.keyFromValues key)
    (r.db.perform (.delete session schema key)).lifted
  | .scan table => do
    let schema ← r.schemaOf session table
    (r.db.perform (.scan session schema)).lifted

/-- The tables on a connection. -/
def tables (r : Native m) (session : Nat) : Tables m OpenedSchemas :=
  fun call => (r.attempt session call).run

/-- Rolls back and reports a failure to do so. -/
def rollback (r : Native m) (session : Nat) (event : StoreError → Event) : m Unit := do
  if let .error e ← (r.db.perform (.rollback session)).run then
    report (event e)

/-- Commits; a transaction that is still open after a failure is rolled back. -/
def commit (r : Native m) (session : Nat) : m (Except StoreError Unit) := do
  match ← (r.db.perform (.commit session)).run with
  | .ok () => return .ok ()
  | .error e =>
    report (.warn s!"Commit failed: {e}")
    if ← r.db.inTransaction session then
      r.rollback session fun e => .warn s!"Rollback after failed commit failed: {e}"
    return .error (intoAborted e)

/-- Runs the unit of work on a connection. -/
def onConnection (r : Native m) (session : Nat) : Execution m := do
  match ← liftM (r.db.perform (.begin session)).run with
  | .error e => return .error (intoAborted e)
  | .ok () =>
    let (result, _) ← Execution.invoke (r.tables session) ∅
    match result with
    | .ok () => liftM (r.commit session)
    | .error e =>
      liftM (r.rollback session fun e => .warn s!"Rollback failed: {e}")
      return .error e

/-- Runs the unit of work on a connection of its own, which is closed in the end. -/
def execution (r : Native m) : Execution m := do
  match ← liftM (r.db.perform .connect).run with
  | .error e => return .error (intoAborted e)
  | .ok session =>
    let result ← r.onConnection session
    liftM (r.db.close session)
    return result

def runner (r : Native m) : Runner m where
  kind := .relational
  execution := r.execution

end Native

end Tabular
