import Tabular.Catalog.Basic
import Tabular.Cell
import Tabular.Runner.Execution
import Tabular.Runner.Participant
import Tabular.Sessions.Basic
import Tabular.Coordinator.Call

/-!
# Tabular.Runner.Coordinated — transactions over a versioned store

A unit of work reads through a snapshot and keeps its changes aside.  To commit, the coordinator is
asked whether the changes are in conflict, they are written as cells of the transaction's version, and
the coordinator is told to commit.  After any failure the written cells are removed and the transaction
is aborted, or invalidated if some of them remain.  If the session fails at that, the transaction is put
on the list of unfinished ones, which the next session settles before anything else.
-/

namespace Tabular

/-- A transaction that the coordinator still holds to be in progress. -/
structure Unfinished where
  tx : Transaction
  /-- Whether none of its cells remain. -/
  rolledBack : Bool
deriving DecidableEq

/-- What a coordinated runner works with. -/
structure Coordinated (m : Type → Type u) where
  sessions : SessionSource m
  coordinator : CoordinatorAccess m
  store : VersionedAccess m
  catalog : Catalog m
  /-- The transactions that wait to be aborted or invalidated. -/
  unfinished : Cell m (List Unfinished)

/-- The tables that a transaction has opened, by the name they were opened under. -/
abbrev Participants := Std.ExtTreeMap String Participant

/-- How a run on a session ended. -/
structure Ending where
  result : Except StoreError Unit
  reusable : Bool

namespace Coordinated

variable {m : Type → Type u} [Monad m] [Journal m]

/-- What a failure of the coordinator means for a unit of work. -/
def intoAborted : StoreError → StoreError
  | .coordinator reason => .transactionAborted s!"coordinator failure: {reason}"
  | e => e

/-- What a transaction in conflict answers. -/
def conflict (tx : Transaction) : StoreError :=
  .transactionAborted s!"transaction {tx.writePointer} conflicts with a concurrent commit"

/-! ### Tables -/

/-- The participant for a table, which joins the transaction when it is first opened. -/
def join (r : Coordinated m) (tx : Transaction) (table : String) :
    Attempt (StateT Participants m) Participant := do
  let participants : Participants ← get
  match participants[table]? with
  | some p => return p
  | none =>
    let schema ← (r.catalog.find table).lifted
    report (.trace s!"Table {table} joined transaction {tx.writePointer}")
    let p : Participant := { schema }
    set (participants.insert table p)
    return p

/-- The row of a key: as changed by the transaction, or else in the store. -/
def lookup (r : Coordinated m) (tx : Transaction) (p : Participant) (key : RowKey) :
    Attempt m (Option Row) :=
  match p.writes[key]? with
  | some cell => return cell
  | none => r.store (.read p.schema.name key tx)

/-- Keeps a change aside. -/
def hold (table : String) (p : Participant) (key : RowKey) (cell : Option Row) :
    Attempt (StateT Participants m) Unit :=
  modify fun participants : Participants => participants.insert table (p.withWrite key cell)

/-- The table operations of a unit of work in a transaction. -/
def attempt (r : Coordinated m) (tx : Transaction) :
    (call : TableCall) → Attempt (StateT Participants m) call.Answer
  | .visit table => do
    let _ ← r.join tx table
  | .schema table => return (← r.join tx table).schema
  | .upsert table row => do
    let p ← r.join tx table
    let key ← Attempt.of (p.schema.keyOf row)
    let existing ← (r.lookup tx p key).lifted
    let merged ← Attempt.of (p.schema.mergeRow existing row)
    hold table p key (some merged)
  | .read table key => do
    let p ← r.join tx table
    let key ← Attempt.of (p.schema.keyFromValues key)
    (r.lookup tx p key).lifted
  | .delete table key => do
    let p ← r.join tx table
    let key ← Attempt.of (p.schema.keyFromValues key)
    hold table p key none
  | .scan table => do
    let p ← r.join tx table
    let stored ← (r.store (.scan p.schema.name tx)).lifted
    return (p.writes.applyTo (.ofList stored compare)).values

def tables (r : Coordinated m) (tx : Transaction) : Tables m Participants :=
  fun call => (r.attempt tx call).run

/-! ### Ending a transaction -/

/-- Aborts a transaction none of whose cells remain, or invalidates one that may have left some. -/
def settle (r : Coordinated m) (session : Nat) (orphan : Unfinished) : Attempt m Unit := do
  if orphan.rolledBack then
    r.coordinator (.abort session orphan.tx)
    report (.debug s!"Aborted transaction {orphan.tx.writePointer}")
  else
    let _ ← r.coordinator (.invalidate session orphan.tx)
    report (.error s!"Invalidated transaction {orphan.tx.writePointer} after failed rollback")

/-- Settles transactions in turn.  Those from the first failure on go back on the list. -/
def settleAll (r : Coordinated m) (session : Nat) : List Unfinished → Attempt m Unit
  | [] => return ()
  | orphan :: rest => do
    match ← (r.settle session orphan).outcome with
    | .ok () => r.settleAll session rest
    | .error e =>
      r.unfinished.modify (· ++ orphan :: rest)
      throw (intoAborted e)

/-- Settles the transactions on the list. -/
def settleUnfinished (r : Coordinated m) (session : Nat) : Attempt m Unit := do
  r.settleAll session (← r.unfinished.swap [])

/-- Removes what a transaction has written and settles it, or leaves that to the next session if this
one is broken or breaks.  Answers whether the session can be used again. -/
def abandon (r : Coordinated m) (session : Nat) (usable : Bool) (tx : Transaction)
    (participants : List Participant) : m Bool := do
  let (result, _) ← Participant.rollbackAll r.store tx participants
  let orphan : Unfinished := { tx, rolledBack := result.isOk }
  if usable then
    match ← (r.settle session orphan).run with
    | .ok () => return true
    | .error e =>
      report (.warn s!"Failed to settle transaction {tx.writePointer}: {e}")
      r.unfinished.modify (· ++ [orphan])
      return false
  else
    report
      (.warn s!"Transaction {tx.writePointer} will be settled on the next coordinator session")
    r.unfinished.modify (· ++ [orphan])
    return false

/-- Ends a transaction with an error. -/
def failWith (r : Coordinated m) (session : Nat) (usable : Bool) (tx : Transaction)
    (participants : List Participant) (e : StoreError) : m Ending := do
  return { result := .error e, reusable := ← r.abandon session usable tx participants }

/-- The failure to write the changes of a transaction. -/
def couldNotPersist (tx : Transaction) (e : StoreError) : StoreError :=
  .transactionAborted s!"transaction {tx.writePointer} could not persist its changes: {e}"

/-- Tells the coordinator to commit a transaction whose changes are written. -/
def confirm (r : Coordinated m) (session : Nat) (tx : Transaction) (participants : List Participant)
    (changeCount : Nat) : m Ending := do
  match ← (r.coordinator (.commit session tx)).run with
  | .ok true =>
    report (.debug s!"Committed transaction {tx.writePointer} ({changeCount} changes)")
    return { result := .ok (), reusable := true }
  | .ok false => r.failWith session true tx participants (conflict tx)
  | .error e => r.failWith session false tx participants (intoAborted e)

def commit (r : Coordinated m) (session : Nat) (tx : Transaction) (participants : List Participant) :
    m Ending := do
  let changes := Participant.changeSet participants
  match ← (r.coordinator (.canCommit session tx changes)).run with
  | .ok false => r.failWith session true tx participants (conflict tx)
  | .error e => r.failWith session false tx participants (intoAborted e)
  | .ok true =>
    match ← Participant.persistAll r.store tx participants with
    | (.ok (), participants) => r.confirm session tx participants changes.size
    | (.error e, participants) =>
      report (.warn s!"Transaction {tx.writePointer} failed to persist: {e}")
      r.failWith session true tx participants (couldNotPersist tx e)

/-! ### The execution -/

/-- Performs the unit of work in a transaction and ends the transaction. -/
def inTransaction (r : Coordinated m) (session : Nat) (tx : Transaction) : ExecutionM m Ending := do
  report (.trace s!"Started transaction {tx.writePointer}")
  let (result, participants) ← Execution.invoke (r.tables tx) ∅
  match result with
  | .ok () => liftM (r.commit session tx participants.values)
  | .error e =>
    report (.debug s!"Unit of work failed in transaction {tx.writePointer}: {e}")
    liftM (r.failWith session true tx participants.values e)

/-- Settles what is unfinished and runs the unit of work on a session. -/
def onSession (r : Coordinated m) (session : Nat) : ExecutionM m Ending := do
  match ← liftM (r.settleUnfinished session).run with
  | .error e => return { result := .error e, reusable := false }
  | .ok () =>
    match ← liftM (r.coordinator (.begin session)).run with
    | .error e => return { result := .error (intoAborted e), reusable := false }
    | .ok tx => r.inTransaction session tx

/-- Runs the unit of work on a borrowed session, which is given back in the end. -/
def execution (r : Coordinated m) : Execution m := do
  match ← liftM r.sessions.acquire.run with
  | .error e => return .error (intoAborted e)
  | .ok session =>
    let ending ← r.onSession session
    liftM (r.sessions.release session ending.reusable)
    return ending.result

def runner (r : Coordinated m) : Runner m where
  kind := .versioned
  execution := r.execution

end Coordinated

end Tabular
