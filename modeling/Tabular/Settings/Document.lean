import Tabular.Settings.Basic
import Tabular.Toml.Reader
import Tabular.Toml.Writer

/-!
# Tabular.Settings.Document — settings as TOML text

`ofDocument` reads settings from TOML text: a setting that is absent has its default, a key that is no
setting is ignored.  `document` writes them, one line per setting.
-/

namespace Tabular.Settings

/-- The value of a key of a table as `read?` reads it, or the default if the key is absent. -/
def valueOr {α : Type} (table : Toml.Table) (key : String) (default : α)
    (read? : Toml.Node → Option α) : Option α :=
  match table.find? key with
  | none => some default
  | some node => read? node

/-- Reads a text. -/
def text? : Toml.Node → Option String
  | .string s => some s
  | _ => none

/-- Reads a whole number that is not negative. -/
def natural? : Toml.Node → Option Nat
  | .integer n => n.toNat?
  | _ => none

/-- Reads a truth value. -/
def truth? : Toml.Node → Option Bool
  | .boolean b => some b
  | _ => none

/-- Reads settings from the root table of a document. -/
def ofTable? (table : Toml.Table) : Option Settings := do
  let d : Settings := { }
  return {
    storage := ← valueOr table "storage_implementation" none (fun node => some <$> text? node)
    strategy := ← valueOr table "tx_client_provider" d.strategy text?
    sessionLimit := ← valueOr table "tx_client_pool_size" d.sessionLimit natural?
    sessionWaitMs := ← valueOr table "tx_client_obtain_timeout_ms" d.sessionWaitMs natural?
    noConflictCheck := ← valueOr table "use_noop_tx_client" d.noConflictCheck truth?
    databaseUrl := ← valueOr table "sql_connection_string" d.databaseUrl text?
    connectionLimit := ← valueOr table "sql_max_connections" d.connectionLimit natural?
    connectionWaitMs := ← valueOr table "sql_acquire_timeout_ms" d.connectionWaitMs natural? }

/-- Reads settings from TOML text. -/
def ofDocument (text : String) : Except StoreError Settings :=
  match Toml.parse? text >>= ofTable? with
  | some settings => .ok settings
  | none => .error (.configuration "Invalid TOML: the text does not describe settings")

/-- The settings in a file that could not be read for the given reason. -/
def unreadable (reason : String) : StoreError := .configuration s!"Failed to read config file: {reason}"

/-- A line of a document. -/
def line (key value : String) : String := key ++ " = " ++ value ++ "\n"

/-- The numbers among the settings, by key. -/
def numbers (s : Settings) : List (String × Nat) :=
  [("tx_client_pool_size", s.sessionLimit), ("tx_client_obtain_timeout_ms", s.sessionWaitMs),
    ("sql_max_connections", s.connectionLimit), ("sql_acquire_timeout_ms", s.connectionWaitMs)]

/-- Writes settings as TOML text, whose integers have 64 bits with a sign. -/
def document (s : Settings) : Except StoreError String :=
  match s.numbers.find? (fun number => Int64.maxValue.toInt < number.2) with
  | some (key, _) => .error (.configuration s!"Failed to serialize config: {key} is out of range")
  | none => .ok <| String.join [
      match s.storage with
      | none => ""
      | some name => line "storage_implementation" (Toml.written name),
      line "tx_client_provider" (Toml.written s.strategy),
      line "tx_client_pool_size" (toString s.sessionLimit),
      line "tx_client_obtain_timeout_ms" (toString s.sessionWaitMs),
      line "use_noop_tx_client" (toString s.noConflictCheck),
      line "sql_connection_string" (Toml.written s.databaseUrl),
      line "sql_max_connections" (toString s.connectionLimit),
      line "sql_acquire_timeout_ms" (toString s.connectionWaitMs)]

end Tabular.Settings
