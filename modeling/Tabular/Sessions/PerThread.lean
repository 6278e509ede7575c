import Std.Data.ExtTreeMap
import Tabular.Cell
import Tabular.Coordinator.Call
import Tabular.Journal
import Tabular.Sessions.Basic

/-!
# Tabular.Sessions.PerThread — a session per thread

Each thread keeps one session, opened at its first use and lent to one unit of work at a time.  A session
that broke is closed, and so is the session of a thread that ends.
-/

namespace Tabular

/-- The sessions of the threads of a process. -/
structure ThreadSessions where
  /-- The threads that have a session, each with it unless it is lent. -/
  slots : Std.ExtTreeMap Nat (Option Nat) := ∅
  opened : Nat := 0

instance : Inhabited ThreadSessions := ⟨{ }⟩

namespace ThreadSessions

/-- The number of threads that have a session. -/
def live (s : ThreadSessions) : Nat := s.slots.size

/-- The sessions once a thread has lent its own, or is about to open one. -/
def lend (s : ThreadSessions) (thread : Nat) : ThreadSessions :=
  { s with slots := s.slots.insert thread none }

/-- The sessions once a new one is counted. -/
def countOpened (s : ThreadSessions) : ThreadSessions := { s with opened := s.opened + 1 }

/-- The sessions without that of a thread. -/
def close (s : ThreadSessions) (thread : Nat) : ThreadSessions :=
  { s with slots := s.slots.erase thread }

/-- The sessions once a thread has its own back. -/
def giveBack (s : ThreadSessions) (thread session : Nat) : ThreadSessions :=
  if thread ∈ s.slots then { s with slots := s.slots.insert thread (some session) } else s

end ThreadSessions

namespace SessionSource

variable {m : Type → Type u} [Monad m] [Journal m]

/-- How a thread is shown. -/
def threadText (thread : Nat) : String := s!"ThreadId({thread})"

/-- What is said when the session of a thread is wanted twice. -/
def alreadyLent (thread : Nat) : StoreError :=
  .coordinator <| s!"coordinator client of thread {threadText thread} is already leased; "
    ++ "nested transactions are not supported"

/-- Opens a session for a thread, which has a slot for it. -/
def openFor (coordinator : CoordinatorAccess m) (sessions : Cell m ThreadSessions) (thread : Nat) :
    Attempt m Nat := do
  match ← (coordinator .connect).outcome with
  | .ok session =>
    sessions.modify (·.countOpened)
    report (.debug s!"Opened coordinator client for thread {threadText thread}")
    return session
  | .error e =>
    sessions.modify (·.close thread)
    throw e

/-- Lends each thread a session of its own; `current` is the thread that runs. -/
def perThread (coordinator : CoordinatorAccess m) (sessions : Cell m ThreadSessions)
    (current : m Nat) : SessionSource m where
  strategy := .perThread
  acquire := do
    let thread ← current
    let before ← sessions.update (·.lend thread)
    match before.slots.get? thread with
    | some (some session) => return session
    | some none => throw (alreadyLent thread)
    | none => openFor coordinator sessions thread
  release session reusable := do
    let thread ← current
    if reusable then sessions.modify (·.giveBack thread session)
    else
      report (.warn s!"Closing broken coordinator client of thread {threadText thread}")
      sessions.modify (·.close thread)

end SessionSource

end Tabular
