import Tabular.Changes
import Tabular.Journal
import Tabular.Schema.Basic
import Tabular.Versioned.Call

/-!
# Tabular.Runner.Participant — what a transaction holds back of a table

A `Participant` holds the changes of a transaction to one table until the commit, and after that the
keys whose cells it has written.  `persistAll` writes the cells of all participants and stops at the
first failure, `rollbackAll` removes exactly the cells that were written.
-/

namespace Tabular

/-- A table in a transaction. -/
structure Participant where
  schema : TableSchema
  writes : Changes := ∅
  /-- The keys whose cells are written, the last one first. -/
  persisted : List RowKey := []

namespace Participant

variable {m : Type → Type u} [Monad m]

/-- The participant with one more change. -/
def withWrite (p : Participant) (key : RowKey) (cell : Option Row) : Participant :=
  { p with writes := p.writes.insert key cell }

/-- Writes cells of a table in turn.  The keys written so far come back with the answer. -/
def writeCells (store : VersionedAccess m) (table : String) (version : Nat) :
    List (RowKey × Option Row) → List RowKey → m (Except StoreError Unit × List RowKey)
  | [], done => return (.ok (), done)
  | (key, cell) :: rest, done => do
    match ← (store (.write table key version cell)).run with
    | .ok () => writeCells store table version rest (key :: done)
    | .error e => return (.error e, done)

/-- Removes cells of a table in turn.  The keys that are left come back with the answer. -/
def undoCells (store : VersionedAccess m) (table : String) (version : Nat) :
    List RowKey → m (Except StoreError Unit × List RowKey)
  | [] => return (.ok (), [])
  | key :: rest => do
    match ← (store (.undo table key version)).run with
    | .ok () => undoCells store table version rest
    | .error e => return (.error e, key :: rest)

/-- Writes the changes as cells of the transaction, in key order, up to the first failure. -/
def persist (store : VersionedAccess m) (tx : Transaction) (p : Participant) :
    m (Except StoreError Unit × Participant) := do
  let (result, persisted) ←
    writeCells store p.schema.name tx.writePointer p.writes.toList p.persisted
  return (result, { p with persisted })

/-- Removes the cells that were written, the last one first, up to the first failure. -/
def rollback (store : VersionedAccess m) (tx : Transaction) (p : Participant) :
    m (Except StoreError Unit × Participant) := do
  let (result, persisted) ← undoCells store p.schema.name tx.writePointer p.persisted
  return (result, { p with persisted })

/-- The rows that the participants change. -/
def changeSet (participants : List Participant) : ChangeSet :=
  .ofList (participants.flatMap fun p => p.writes.keys.map (Change.mk p.schema.name)) compare

/-- The failure to write the changes of a table. -/
def persistFailure (table : String) (e : StoreError) : StoreError :=
  .connection s!"persisting table {table} failed: {e}"

/-- Writes the changes of all participants, up to the first failure. -/
def persistAll (store : VersionedAccess m) (tx : Transaction) :
    List Participant → m (Except StoreError Unit × List Participant)
  | [] => return (.ok (), [])
  | p :: rest => do
    match ← p.persist store tx with
    | (.ok (), p) =>
      let (result, rest) ← persistAll store tx rest
      return (result, p :: rest)
    | (.error e, p) => return (.error (persistFailure p.schema.name e), p :: rest)

/-- The first of two answers if it is a failure, or else the second. -/
def firstFailure : Except StoreError Unit → Except StoreError Unit → Except StoreError Unit
  | .error e, _ => .error e
  | .ok (), second => second

/-- Removes the written cells of all participants.  A failure does not keep the others from being
tried; the first one is answered. -/
def rollbackAll [Journal m] (store : VersionedAccess m) (tx : Transaction) :
    List Participant → m (Except StoreError Unit × List Participant)
  | [] => return (.ok (), [])
  | p :: rest => do
    let (result, p) ← p.rollback store tx
    if let .error e := result then
      report (.warn <| s!"Rollback of table {p.schema.name} in transaction {tx.writePointer} "
        ++ s!"failed: {e}")
    let (others, rest) ← rollbackAll store tx rest
    return (firstFailure result others, p :: rest)

end Participant

end Tabular
