import Tabular.Bench.Answer
import Tabular.Bench.Recorder
import Tabular.Engine.Embedded

/-!
# Tabular.Bench.Site — a process with engines in it

A `Site` is the state of a process: the collaborators within it, what its engines remember, its threads,
its journal, and a recorder of calls.  `SiteM` computes on it.  There is an access to each collaborator
that goes straight to it, and one that goes through the recorder.
-/

namespace Tabular.Bench

/-- What a scenario has given a name. -/
structure Names where
  sessions : Std.ExtTreeMap String Nat := ∅
  transactions : Std.ExtTreeMap String Transaction := ∅
  threads : Std.ExtTreeMap String Nat := ∅
  /-- The leases of each thread, by the name of the thread. -/
  leases : Std.ExtTreeMap String (Std.ExtTreeMap String Lease) := ∅
  /-- Connections that are open without a name. -/
  held : List Nat := []

instance : Inhabited Names := ⟨{ }⟩

/-- The state of a process. -/
structure Site where
  embedded : Embedded
  /-- What the engines remember, in the order in which they were built. -/
  engines : Array EngineState := #[]
  /-- What a runner built on its own remembers. -/
  lone : EngineState := { pool := { maxSize := 0 } }
  thread : Nat := 0
  /-- The number of threads started so far. -/
  threads : Nat := 0
  /-- The journal, the last event first. -/
  journal : List Event := []
  recorder : Recorder := { }
  /-- What has a name. -/
  names : Names := { }
  /-- What the unit of work that runs has answered so far, the last step first. -/
  replies : List Reply := []
deriving Inhabited

/-- Computations on a process. -/
abbrev SiteM := StateM Site

namespace Site

instance : Journal SiteM := ⟨fun event => modify fun s => { s with journal := event :: s.journal }⟩

/-- The process with new collaborators. -/
def ofSettings (settings : Settings) (coordinator : LocalCoordinator) : Site where
  embedded := Embedded.ofSettings settings coordinator
  lone := EngineState.initial settings

/-- Changes the collaborators. -/
def modifyEmbedded (change : Embedded → Embedded) : SiteM Unit :=
  modify fun s => { s with embedded := change s.embedded }

/-- Changes what has a name. -/
def modifyNames (change : Names → Names) : SiteM Unit := modify fun s => { s with names := change s.names }

/-- The thread that runs. -/
def currentThread : SiteM Nat := (·.thread) <$> get

/-! ### Accesses -/

/-- The coordinator itself.  No time passes in the process. -/
def coordinator : CoordinatorAccess SiteM := fun call => ExceptT.mk do
  let state := (← get).embedded.coordinator
  reportAll (state.events 0 call)
  let (result, after) := state.perform 0 call
  modifyEmbedded ({ · with coordinator := after })
  return result

/-- The versioned store itself. -/
def store : VersionedAccess SiteM := fun call => ExceptT.mk do
  let state := (← get).embedded.store
  reportAll (state.events call)
  match state.perform call with
  | .ok (answer, after) =>
    modifyEmbedded ({ · with store := after })
    return .ok answer
  | .error e => return .error e

/-- The relational database itself. -/
def database : RelationalAccess SiteM where
  perform call := ExceptT.mk do
    let state := (← get).embedded.database
    reportAll (state.events call)
    let (result, after) := state.perform call
    modifyEmbedded ({ · with database := after })
    return result
  close session := do
    let state := (← get).embedded.database
    reportAll (state.closeEvents session)
    modifyEmbedded ({ · with database := state.close session })
  inTransaction session := return ((← get).embedded.database.staged? session).isSome
  describe := return (← get).embedded.database.url

/-- Notes a call and performs it, unless a fault strikes. -/
def recorded {α : Type} (name : CallName) (denial? : Option α) (perform : Attempt SiteM α) :
    Attempt SiteM α := do
  let verdict ← modifyGet fun s : Site =>
    let (verdict, recorder) := s.recorder.call name
    (verdict, { s with recorder })
  match verdict, denial? with
  | .pass, _ => perform
  | .fail e, _ => throw e
  | .deny, some answer => return answer
  | .deny, none => perform

/-- The coordinator through the recorder. -/
def recordedCoordinator : CoordinatorAccess SiteM := fun call =>
  recorded (coordinatorCallName call) (coordinatorDenial? call) (coordinator call)

/-- The versioned store through the recorder. -/
def recordedStore : VersionedAccess SiteM := fun call =>
  recorded (versionedCallName call) (versionedDenial? call) (store call)

/-- The relational database through the recorder. -/
def recordedDatabase : RelationalAccess SiteM :=
  { database with
    perform := fun call =>
      recorded (relationalCallName call) (relationalDenial? call) (database.perform call) }

/-- Chooses the parts of an engine from the collaborators themselves, if they will do. -/
def wire (settings : Settings) : Except StoreError (Wiring SiteM) × List Event :=
  match Embedded.check settings with
  | (.error e, events) => (.error e, events)
  | (.ok (), events) =>
    let (wiring, more) := Wiring.choose settings
      { coordinator := some coordinator, store := some store, database := some database }
    (wiring, events ++ more)

/-- Takes the noted calls out, in their order. -/
def drainCalls : SiteM (List String) :=
  modifyGet fun s =>
    let (calls, recorder) := s.recorder.drain
    (calls, { s with recorder })

/-! ### Engines and threads -/

/-- The state of an engine as a cell. -/
def engineCell (index : Nat) : Cell SiteM EngineState :=
  ⟨fun change => modifyGet fun s =>
    ((s.engines[index]?).getD default, { s with engines := s.engines.modify index change })⟩

/-- The state of a runner built on its own as a cell. -/
def loneCell : Cell SiteM EngineState :=
  ⟨fun change => modifyGet fun s => (s.lone, { s with lone := change s.lone })⟩

/-- Makes room for the state of one more engine and answers its index. -/
def addEngine (settings : Settings) : SiteM Nat :=
  modifyGet fun s =>
    (s.engines.size, { s with engines := s.engines.push (EngineState.initial settings) })

/-- Closes the sessions of a thread that ends. -/
def endThread (thread : Nat) : SiteM Unit :=
  modify fun s =>
    let close (e : EngineState) : EngineState := { e with threads := e.threads.close thread }
    { s with engines := s.engines.map close, lone := close s.lone }

/-- Starts a thread and answers its number; it does not run yet. -/
def startThread : SiteM Nat :=
  modifyGet fun s => (s.threads + 1, { s with threads := s.threads + 1 })

/-- Runs something on another thread. -/
def onThread {α : Type} (thread : Nat) (x : SiteM α) : SiteM α := do
  let before ← currentThread
  modify ({ · with thread })
  let a ← x
  modify ({ · with thread := before })
  return a

/-- Runs something on a thread of its own, which ends after it. -/
def onNewThread {α : Type} (x : SiteM α) : SiteM α := do
  let thread ← startThread
  let a ← onThread thread x
  endThread thread
  return a

/-- Keeps the answer of a step of the unit of work that runs. -/
def keepAnswer (reply : Reply) : SiteM Unit := modify fun s => { s with replies := reply :: s.replies }

/-- Runs something with no answers kept so far, and gives back those it kept, in their order. -/
def collectAnswers {α : Type} (x : SiteM α) : SiteM (α × List Reply) := do
  let outer ← modifyGet fun s : Site => (s.replies, { s with replies := [] })
  let a ← x
  let inner ← modifyGet fun s : Site => (s.replies, { s with replies := outer })
  return (a, inner.reverse)

end Site

end Tabular.Bench
