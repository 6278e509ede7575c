import Tabular.Settings.Basic

/-!
# Tabular.Settings.Override — settings from the environment

Each setting may be overridden by an environment variable, whose name is the key of the setting in
upper case after `TABLESTORE_`.  The overrides are applied in the order of the settings and stop at the
first text that cannot be read.
-/

namespace Tabular.Settings

/-- Reads a number of 64 bits: digits, after an optional plus sign. -/
def parseNumber? (text : String) : Option Nat :=
  let digits :=
    match text.toList with
    | '+' :: rest => rest
    | cs => cs
  if digits = [] ∨ !digits.all Char.isDigit then none
  else
    let n := digits.foldl (fun n c => n * 10 + (c.toNat - '0'.toNat)) 0
    if n < UInt64.size then some n else none

/-- Reads a truth value. -/
def parseTruth? : String → Option Bool
  | "true" => some true
  | "false" => some false
  | _ => none

/-- An override of one setting. -/
structure Override where
  key : String
  /-- The settings with this one read from a text. -/
  change? : String → Settings → Option Settings

/-- The environment variable of an override. -/
def Override.variable (o : Override) : String := "TABLESTORE_" ++ o.key.map Char.toUpper

/-- An override that takes any text. -/
def Override.text (key : String) (change : String → Settings → Settings) : Override :=
  ⟨key, fun text s => some (change text s)⟩

/-- An override that reads its text first. -/
def Override.parsed {α : Type} (key : String) (parse? : String → Option α)
    (change : α → Settings → Settings) : Override :=
  ⟨key, fun text s => (parse? text).map (change · s)⟩

/-- The overrides in the order in which they are applied. -/
def overrides : List Override := [
  .text "storage_implementation" fun v s => { s with storage := some v },
  .text "tx_client_provider" fun v s => { s with strategy := v },
  .parsed "tx_client_pool_size" parseNumber? fun v s => { s with sessionLimit := v },
  .parsed "tx_client_obtain_timeout_ms" parseNumber? fun v s => { s with sessionWaitMs := v },
  .parsed "use_noop_tx_client" parseTruth? fun v s => { s with noConflictCheck := v },
  .text "sql_connection_string" fun v s => { s with databaseUrl := v },
  .parsed "sql_max_connections" parseNumber? fun v s => { s with connectionLimit := v },
  .parsed "sql_acquire_timeout_ms" parseNumber? fun v s => { s with connectionWaitMs := v }]

/-- Applies overrides in turn.  The settings that come back hold those before the first that failed. -/
def applyAll (environment : String → Option String) :
    List Override → Settings → Except StoreError Unit × Settings
  | [], s => (.ok (), s)
  | o :: rest, s =>
    match environment o.variable with
    | none => applyAll environment rest s
    | some text =>
      match o.change? text s with
      | some changed => applyAll environment rest changed
      | none => (.error (.configuration s!"Invalid {o.key}: {text}"), s)

/-- Applies the overrides found in an environment. -/
def override (environment : String → Option String) (s : Settings) : Except StoreError Unit × Settings :=
  applyAll environment overrides s

end Tabular.Settings
