import Tabular.Coordinator.Basic
import Tabular.Coordinator.Permissive
import Tabular.Engine.Basic
import Tabular.Relational.Basic
import Tabular.Versioned.Basic

/-!
# Tabular.Engine.Embedded — the collaborators that come with the library

`Embedded` is the state of the collaborators that run within the process.  `Embedded.check` says for which
settings they are all that an engine needs.
-/

namespace Tabular

/-- A coordinator within the process. -/
inductive LocalCoordinator where
  | checking (state : Coordinator)
  | permissive (state : PermissiveCoordinator)
deriving Inhabited

namespace LocalCoordinator

/-- The effect of a call at the time `now`; a call that fails has none. -/
def perform (c : LocalCoordinator) (now : Nat) (call : CoordinatorCall) :
    Except StoreError call.Answer × LocalCoordinator :=
  match c with
  | checking s =>
    match s.perform now call with
    | .ok (answer, after) => (.ok answer, checking after)
    | .error e => (.error e, c)
  | permissive s =>
    let (answer, after) := s.perform call
    (.ok answer, permissive after)

/-- What a call reports. -/
def events (c : LocalCoordinator) (now : Nat) (call : CoordinatorCall) : List Event :=
  match c with
  | checking s => s.events now call
  | permissive _ => []

/-- The coordinator once it can be reached, or not any more. -/
def setAvailable (c : LocalCoordinator) (available : Bool) : LocalCoordinator :=
  match c with
  | checking s => checking { s with available }
  | permissive s => permissive s

/-- The coordinator that the settings ask for. -/
def ofSettings (settings : Settings) (timeoutMs : Nat := defaultTimeoutMs) :
    LocalCoordinator :=
  if settings.noConflictCheck then permissive { } else checking { timeoutMs }

end LocalCoordinator

/-- The state of the collaborators within the process. -/
structure Embedded where
  coordinator : LocalCoordinator := .checking { }
  store : VersionedStore := { }
  database : Database
deriving Inhabited

namespace Embedded

/-- New collaborators. -/
def ofSettings (settings : Settings) (coordinator : LocalCoordinator) : Embedded where
  coordinator := coordinator
  database := Database.empty settings.databaseUrl settings.connectionLimit settings.connectionWaitMs

/-- What the address of an embedded database starts with. -/
def scheme : String := "memory://"

/-- Checks that the collaborators within the process are all that the settings ask for, with what is
reported on the way. -/
def check (settings : Settings) : Except StoreError Unit × List Event :=
  match settings.storageKind with
  | .error e => (.error e, [])
  | .ok .versioned =>
    (.ok (), if settings.noConflictCheck then
      [.warn "Using the no-op transaction coordinator; conflicts are not detected"] else [])
  | .ok .relational =>
    if scheme.isPrefixOf settings.databaseUrl then (.ok (), [])
    else
      (.error (.configuration <| s!"sql_connection_string '{settings.databaseUrl}' needs an external "
        ++ s!"connection source; only {scheme} URLs are built in"), [])

end Embedded

end Tabular
