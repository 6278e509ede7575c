import Tabular.Error

/-!
# Tabular.Settings.Basic — what an installation chooses

`Settings` holds the choices of an installation: the family of its storage, how its units of work get
a coordinator session, and the bounds on sessions and connections.  `StorageKind` and `SessionStrategy`
are the choices that have a name.
-/

namespace Tabular

/-- The two families of storage. -/
inductive StorageKind where
  /-- A versioned key-value store with a transaction coordinator. -/
  | versioned
  /-- A relational engine with transactions of its own. -/
  | relational
deriving DecidableEq, Repr, Inhabited

namespace StorageKind

/-- The name of a family in settings. -/
def name : StorageKind → String
  | versioned => "nosql"
  | relational => "sql"

instance : ToString StorageKind := ⟨name⟩

/-- Reads the name of a family, in any case of its letters. -/
def parse (text : String) : Except StoreError StorageKind :=
  match text.map Char.toLower with
  | "nosql" => .ok versioned
  | "sql" => .ok relational
  | _ => .error <| .configuration <| s!"{text} is not a supported storage implementation, "
      ++ s!"the supported implementations are {versioned} and {relational}"

end StorageKind

/-- How a unit of work gets a coordinator session. -/
inductive SessionStrategy where
  /-- From a bounded pool that all threads share. -/
  | pool
  /-- Each thread keeps a session of its own. -/
  | perThread
deriving DecidableEq, Repr, Inhabited

namespace SessionStrategy

/-- The name of a strategy in settings. -/
def name : SessionStrategy → String
  | pool => "pool"
  | perThread => "thread-local"

instance : ToString SessionStrategy := ⟨name⟩

/-- What is said of a text that names no strategy. -/
def unknown (text : String) : String :=
  s!"Unknown Transaction Service Client Provider '{text}', expected {pool} or {perThread}"

/-- Reads the name of a strategy, which must be written exactly so. -/
def parse (text : String) : Except StoreError SessionStrategy :=
  match text with
  | "pool" => .ok pool
  | "thread-local" => .ok perThread
  | _ => .error (.configuration (unknown text))

end SessionStrategy

/-- The settings of an installation.  Times are in milliseconds. -/
structure Settings where
  /-- The name of the storage family; there is no default. -/
  storage : Option String := none
  strategy : String := "pool"
  sessionLimit : Nat := 50
  sessionWaitMs : Nat := 3000
  /-- Whether the coordinator accepts every commit without looking for conflicts. -/
  noConflictCheck : Bool := false
  databaseUrl : String := "memory://local"
  connectionLimit : Nat := 10
  connectionWaitMs : Nat := 3000
deriving DecidableEq, Repr, Inhabited

namespace Settings

/-- The storage family that the settings name. -/
def storageKind (s : Settings) : Except StoreError StorageKind :=
  match s.storage with
  | none => .error (.configuration "No storage implementation is specified in the configuration")
  | some text => StorageKind.parse text

/-- The session strategy that the settings name. -/
def sessionStrategy (s : Settings) : Except StoreError SessionStrategy := SessionStrategy.parse s.strategy

/-- Checks the bounds.  The names are checked where they are used. -/
def validate (s : Settings) : Except StoreError Unit :=
  if s.sessionLimit = 0 then
    .error (.configuration "tx_client_pool_size must be greater than 0")
  else if s.connectionLimit = 0 then
    .error (.configuration "sql_max_connections must be greater than 0")
  else if s.databaseUrl = "" then
    .error (.configuration "sql_connection_string must not be empty")
  else .ok ()

end Settings

end Tabular
