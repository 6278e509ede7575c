import Tabular.Catalog.Cached
import Tabular.Catalog.Keyed
import Tabular.Definition
import Tabular.Runner.Coordinated
import Tabular.Runner.Native
import Tabular.Sessions.PerThread
import Tabular.Sessions.Pooled

/-!
# Tabular.Engine.Basic — the parts of a store, put together

An `Engine` is a runner, a definition and a catalog of one family.  `Wiring.choose` decides from the
settings which collaborators an engine works with; `Wiring.start` prepares them, `Wiring.engine` builds
the engine around an `EngineState`, which is all that it remembers by itself.
-/

namespace Tabular

/-- What one family of storage offers. -/
structure Engine (m : Type → Type u) where
  kind : StorageKind
  runner : Runner m
  definition : Definition m
  catalog : Catalog m

/-- What an engine remembers. -/
structure EngineState where
  cache : LookupCache := ∅
  unfinished : List Unfinished := []
  pool : Pool Nat
  threads : ThreadSessions := { }
deriving Inhabited

/-- The state of a new engine. -/
def EngineState.initial (settings : Settings) : EngineState where
  pool := { maxSize := settings.sessionLimit }

/-- The parts of an engine's state as cells. -/
structure EngineCells (m : Type → Type u) where
  cache : Cell m LookupCache
  unfinished : Cell m (List Unfinished)
  pool : Cell m (Pool Nat)
  threads : Cell m ThreadSessions

/-- The cells of the parts of a state that is kept in one cell. -/
def EngineCells.ofCell {m : Type → Type u} [Functor m] (cell : Cell m EngineState) : EngineCells m where
  cache := cell.part (·.cache) fun change s => { s with cache := change s.cache }
  unfinished := cell.part (·.unfinished) fun change s => { s with unfinished := change s.unfinished }
  pool := cell.part (·.pool) fun change s => { s with pool := change s.pool }
  threads := cell.part (·.threads) fun change s => { s with threads := change s.threads }

/-- What an engine may be built from.  Only those of the chosen family are needed. -/
structure Collaborators (m : Type → Type u) where
  coordinator : Option (CoordinatorAccess m) := none
  store : Option (VersionedAccess m) := none
  database : Option (RelationalAccess m) := none

/-- What an engine is built from. -/
inductive Wiring (m : Type → Type u) where
  | versioned (strategy : SessionStrategy) (coordinator : CoordinatorAccess m) (store : VersionedAccess m)
  | relational (db : RelationalAccess m)

/-- The sessions of an engine over a versioned store; `thread` is the thread that runs. -/
def SessionSource.ofStrategy {m : Type → Type u} [Monad m] [Journal m] (strategy : SessionStrategy)
    (coordinator : CoordinatorAccess m) (cells : EngineCells m) (waitMs : Nat) (thread : m Nat) :
    SessionSource m :=
  match strategy with
  | .pool => .pooled coordinator cells.pool waitMs
  | .perThread => .perThread coordinator cells.threads thread

namespace Wiring

variable {m : Type → Type u}

/-- What is said when a collaborator is missing. -/
def missing (setting : String) : StoreError := .configuration s!"missing required setting: {setting}"

/-- Chooses the parts of an engine over a versioned store, with what is reported on the way. -/
def chooseVersioned (settings : Settings) (c : Collaborators m) :
    Except StoreError (Wiring m) × List Event :=
  match settings.sessionStrategy, c.coordinator, c.store with
  | .error e, _, _ => (.error e, [.error (SessionStrategy.unknown settings.strategy)])
  | .ok _, none, _ => (.error (missing "coordinator"), [])
  | .ok _, some _, none => (.error (missing "kv_store"), [])
  | .ok strategy, some coordinator, some store =>
    (.ok (.versioned strategy coordinator store),
      [.info s!"Using coordinator client provider '{strategy}'"])

/-- Chooses the parts of an engine over a relational database. -/
def chooseRelational (c : Collaborators m) : Except StoreError (Wiring m) × List Event :=
  match c.database with
  | none => (.error (missing "sql_connection_string"), [])
  | some db => (.ok (.relational db), [])

/-- Chooses the parts of an engine by the settings, with what is reported on the way. -/
def choose (settings : Settings) (c : Collaborators m) : Except StoreError (Wiring m) × List Event :=
  match settings.validate, settings.storageKind with
  | .error e, _ => (.error e, [])
  | .ok (), .error e => (.error e, [])
  | .ok (), .ok kind =>
    let (wiring, events) :=
      match kind with
      | .versioned => chooseVersioned settings c
      | .relational => chooseRelational c
    (wiring, .info s!"Selected storage implementation '{kind}'" :: events)

variable [Monad m] [Journal m]

/-- Prepares the parts of an engine. -/
def start : Wiring m → Attempt m Unit
  | versioned _ _ _ => return ()
  | relational db => do
    let url ← db.describe
    report (.info s!"Using relational database {url}")
    Catalog.prepare db

/-- Builds an engine; `thread` is the thread that runs. -/
def engine (settings : Settings) (cells : EngineCells m) (thread : m Nat) : Wiring m → Engine m
  | versioned strategy coordinator store =>
    let catalog := (Catalog.keyed store).cached cells.cache
    let sessions :=
      SessionSource.ofStrategy strategy coordinator cells settings.sessionWaitMs thread
    let coordinated : Coordinated m :=
      { sessions, coordinator, store, catalog, unfinished := cells.unfinished }
    { kind := .versioned, runner := coordinated.runner
      definition := Definition.versioned store catalog, catalog }
  | relational db =>
    let catalog := (Catalog.tabled db).cached cells.cache
    let native : Native m := { db, catalog }
    { kind := .relational, runner := native.runner
      definition := Definition.relational db catalog, catalog }

end Wiring

end Tabular
