import Std.Data.ExtTreeMap
import Tabular.Coordinator.Call
import Tabular.Journal

/-!
# Tabular.Coordinator.Basic — the coordinator that detects conflicts

`Coordinator` is the state, `perform` the effect of a call on it.  Write pointers and commit pointers
come from one counter.  A transaction sees the versions below its write pointer except those of
transactions in progress or invalid when it began.  It is in conflict with a transaction that committed
after it began and changed a row that it changed too.  A call that fails leaves the state as it was.
-/

namespace Tabular

/-- How long a transaction may stay in progress unless something else is asked for, in milliseconds. -/
def defaultTimeoutMs : Nat := 30000

/-- The state of a coordinator.  Times are in milliseconds. -/
structure Coordinator where
  /-- How long a transaction may stay in progress. -/
  timeoutMs : Nat := defaultTimeoutMs
  nextPointer : Nat := 1
  /-- When each open transaction began, by write pointer. -/
  inProgress : Std.ExtTreeMap Nat Nat := ∅
  /-- The write pointers that are never to be seen. -/
  invalid : Std.ExtTreeSet Nat := ∅
  /-- The changes announced by open transactions, by write pointer. -/
  announced : Std.ExtTreeMap Nat ChangeSet := ∅
  /-- The changes of committed transactions, by commit pointer. -/
  committed : Std.ExtTreeMap Nat ChangeSet := ∅
  available : Bool := true
  sessions : Nat := 0

namespace Coordinator

instance : Inhabited Coordinator := ⟨{ }⟩

/-- Whether a transaction that committed after the write pointer changed a row of `changes`. -/
def hasConflict (s : Coordinator) (writePointer : Nat) (changes : ChangeSet) : Bool :=
  s.committed.toList.any fun entry => writePointer < entry.1 && entry.2.meets changes

/-- Forgets the changes that no open transaction can be in conflict with. -/
def prune (s : Coordinator) : Coordinator :=
  match s.inProgress.minKey? with
  | some oldest => { s with committed := s.committed.filter fun pointer _ => oldest ≤ pointer }
  | none => { s with committed := ∅ }

/-- Ends a transaction. -/
def finish (s : Coordinator) (writePointer : Nat) : Coordinator :=
  { s with
    inProgress := s.inProgress.erase writePointer
    announced := s.announced.erase writePointer }.prune

/-- Ends a transaction whose writes are never to be seen. -/
def invalidate (s : Coordinator) (writePointer : Nat) : Coordinator :=
  let ended := s.finish writePointer
  { ended with invalid := ended.invalid.insert writePointer }

/-- The transactions that have been in progress for too long, in ascending order. -/
def overdue (s : Coordinator) (now : Nat) : List Nat :=
  (s.inProgress.filter fun _ began => s.timeoutMs ≤ now - began).keys

/-- Invalidates the transactions that have been in progress for too long. -/
def expire (s : Coordinator) (now : Nat) : Coordinator := (s.overdue now).foldl invalidate s

/-- The versions that a transaction which begins now may not see. -/
def hidden (s : Coordinator) : Std.ExtTreeSet Nat := s.invalid.insertMany s.inProgress.keys

/-- Starts a transaction. -/
def begin (s : Coordinator) (now : Nat) : Transaction × Coordinator :=
  let s := s.expire now
  let pointer := s.nextPointer
  ({ writePointer := pointer, readLimit := some (pointer - 1), excluded := s.hidden },
    { s with nextPointer := pointer + 1, inProgress := s.inProgress.insert pointer now })

/-- What is said of a transaction that is not in progress. -/
def notInProgress (writePointer : Nat) : StoreError :=
  .coordinator s!"transaction {writePointer} is not in progress"

/-- Announces the changes of a transaction, unless there is a conflict. -/
def canCommit (s : Coordinator) (writePointer : Nat) (changes : ChangeSet) :
    Except StoreError (Bool × Coordinator) :=
  if writePointer ∉ s.inProgress then .error (notInProgress writePointer)
  else if s.hasConflict writePointer changes then .ok (false, s)
  else .ok (true, { s with announced := s.announced.insert writePointer changes })

/-- Remembers the changes of a transaction under a new commit pointer. -/
def remember (s : Coordinator) (changes : ChangeSet) : Coordinator :=
  { s with
    nextPointer := s.nextPointer + 1
    committed := if changes.isEmpty then s.committed else s.committed.insert s.nextPointer changes }

/-- Commits a transaction, unless there is a conflict with the changes it announced. -/
def commit (s : Coordinator) (writePointer : Nat) : Except StoreError (Bool × Coordinator) :=
  if writePointer ∉ s.inProgress then .error (notInProgress writePointer)
  else
    let changes := s.announced.getD writePointer ∅
    if s.hasConflict writePointer changes then .ok (false, s)
    else .ok (true, (s.remember changes).finish writePointer)

/-- Opens a session. -/
def connect (s : Coordinator) : Except StoreError (Nat × Coordinator) :=
  if s.available then .ok (s.sessions + 1, { s with sessions := s.sessions + 1 })
  else .error (.coordinator "coordinator unavailable: connection refused")

/-- Does a step on a session, if the coordinator can be reached. -/
def onSession {α : Type} (s : Coordinator) (session : Nat)
    (step : Except StoreError (α × Coordinator)) : Except StoreError (α × Coordinator) :=
  if s.available then step
  else .error (.coordinator s!"coordinator unavailable (session {session})")

/-- The effect of a call at the time `now`. -/
def perform (s : Coordinator) (now : Nat) :
    (call : CoordinatorCall) → Except StoreError (call.Answer × Coordinator)
  | .connect => s.connect
  | .begin session => s.onSession session (.ok (s.begin now))
  | .canCommit session tx changes => s.onSession session (s.canCommit tx.writePointer changes)
  | .commit session tx => s.onSession session (s.commit tx.writePointer)
  | .abort session tx => s.onSession session (.ok ((), s.finish tx.writePointer))
  | .invalidate session tx =>
    s.onSession session
      (.ok (decide (tx.writePointer ∈ s.inProgress), s.invalidate tx.writePointer))

/-- What a call in the given state reports. -/
def events (s : Coordinator) (now : Nat) : CoordinatorCall → List Event
  | .connect => if s.available then [.debug s!"Opened coordinator session {s.sessions + 1}"] else []
  | .begin _ =>
    if s.available then
      (s.overdue now).map fun pointer => .warn s!"Transaction {pointer} timed out; invalidating"
    else []
  | _ => []

end Coordinator

end Tabular
