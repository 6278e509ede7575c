import Tabular.Bench.Site
import Tabular.Settings.Document
import Tabular.Tool.Arguments
import Tabular.Tool.Surroundings

/-!
# Tabular.Tool.Run — the commands of the tool

`Tool.run` carries out a command in a process with the collaborators that come with the library and
answers what is printed.  Files and the environment are given as functions.
-/

namespace Tabular.Tool

open Bench (Site SiteM)

/-- Why a command fails: a message, with the error behind it if there is one. -/
structure Problem where
  message : String
  cause : Option StoreError := none

def Problem.ofError (e : StoreError) : Problem := ⟨e.message, none⟩

/-- How a problem is shown. -/
def Problem.text (p : Problem) : String :=
  match p.cause with
  | none => s!"Error: {p.message}"
  | some e => s!"Error: {p.message}\n\nCaused by:\n    {e.message}"

/-- What a command prints, and how it ends. -/
structure Output where
  /-- The lines that are printed, given how long the command took. -/
  lines : String → List String
  problem : Option Problem := none

/-- The settings for a command. -/
def settings (s : Surroundings) (source : Source) : Except Problem Settings := do
  let base : Settings ←
    match source.file with
    | none => pure { }
    | some path =>
      ((s.fileContent path).mapError Settings.unreadable >>= Settings.ofDocument).mapError
        fun e => ⟨s!"loading {path}", some e⟩
  let (result, overridden) := base.override s.environment
  result.mapError Problem.ofError
  return { overridden with storage := source.storage <|> overridden.storage }

/-- Lines that do not say how long anything took. -/
def timeless (lines : List String) : String → List String := fun _ => lines

/-- Fails after some lines. -/
def failed (lines : List String) (problem : Problem) : Output :=
  { lines := timeless lines, problem := some problem }

/-- Builds the engine that the settings ask for and uses it. -/
def withEngine (settings : Settings) (use : Engine SiteM → SiteM Output) : Output :=
  match (Site.wire settings).1 with
  | .error e => failed [] (.ofError e)
  | .ok wiring =>
    let build : SiteM Output := do
      match ← wiring.start.run with
      | .error e => return failed [] (.ofError e)
      | .ok () =>
        let index ← Site.addEngine settings
        use (wiring.engine settings (.ofCell (Site.engineCell index)) Site.currentThread)
    (build.run (Site.ofSettings settings (.ofSettings settings))).1

/-! ### Checking -/

/-- What is said about the engine of a family. -/
def describe (settings : Settings) : StorageKind → List String
  | .versioned =>
    [s!"  Coordinator client provider: {settings.strategy}",
      s!"  Client pool size: {settings.sessionLimit}"]
  | .relational => [s!"  Connection string: {settings.databaseUrl}"]

/-- Builds the engine and describes it. -/
def check (settings : Settings) : Output :=
  withEngine settings fun engine => do
    let lines := "Configuration OK" :: s!"  Storage implementation: {engine.kind}"
      :: describe settings engine.kind
    match ← engine.catalog.tableNames.run with
    | .ok names =>
      return { lines := timeless (lines ++ [s!"  Registered tables: {names.length}"]) }
    | .error e => return failed lines (.ofError e)

/-! ### Counting -/

def counters : TableSchema where
  name := "counters"
  columns := [⟨"name", .string, false⟩, ⟨"value", .long, false⟩]
  primaryKey := ["name"]
  indexes := []

/-- The value of a counter in its row. -/
def counted (row : Row) : Option Int64 := row["value"]?.bind Value.toInt64?

/-- The unit of work that adds one to a counter. -/
def increment {m : Type → Type u} (key : String) : Work m Unit :=
  (Work.call (.read "counters" [.string key])).andThen fun row =>
    let value := (row.bind counted).getD 0 + 1
    Work.call (.upsert "counters" (.ofCells [("name", .string key), ("value", .long value)]))

/-- What came of the tries of a unit of work. -/
structure Tries where
  /-- How often it was aborted and tried again. -/
  aborted : Nat := 0
  /-- How often it waited in vain and was tried again. -/
  timedOut : Nat := 0

/-- Tries a unit of work up to a number of times. -/
def tryUpTo (engine : Engine SiteM) (work : Work SiteM Unit) :
    Nat → Tries → SiteM (Except StoreError Unit × Tries)
  | 0, tries => return (.ok (), tries)
  | more + 1, tries => do
    match ← (engine.runner.execution.run work).run with
    | .ok () => return (.ok (), tries)
    | .error e =>
      if e.isRetryable ∧ more ≠ 0 then
        match e with
        | .poolTimeout _ _ => tryUpTo engine work more { tries with timedOut := tries.timedOut + 1 }
        | _ => tryUpTo engine work more { tries with aborted := tries.aborted + 1 }
      else return (.error e, tries)

/-- Adds one to each counter of a list of worker and counter. -/
def countAll (engine : Engine SiteM) (maxAttempts : Nat) :
    List (Nat × Nat) → Tries → SiteM (Except Problem Tries)
  | [], tries => return .ok tries
  | (worker, counter) :: rest, tries => do
    let key := s!"counter-{counter}"
    match ← tryUpTo engine (increment key) maxAttempts tries with
    | (.ok (), tries) => countAll engine maxAttempts rest tries
    | (.error e, _) => return .error ⟨s!"worker {worker} gave up on {key}", some e⟩

/-- The worker and the counter of each unit of work.  Every worker takes the counters in turn. -/
def schedule (load : Load) : List (Nat × Nat) :=
  (List.range load.threads).flatMap fun worker =>
    (List.range load.transactions).map fun i => (worker, i % load.keys)

/-- What is said in the end about lost updates, with the problem if there is one. -/
def verdict (settings : Settings) (kind : StorageKind) (total expected : Int64) :
    List String × Option Problem :=
  if kind = .relational ∨ settings.noConflictCheck then
    (["  Lost update check skipped: backend does not detect write conflicts"], none)
  else if total = expected then (["  PASS: no lost updates"], none)
  else
    ([], some ⟨s!"lost updates: counters sum to {total.toInt}, expected {expected.toInt}", none⟩)

/-- Reads the counters, drops their table and says what came of it. -/
def conclude (settings : Settings) (load : Load) (engine : Engine SiteM)
    (started : List String) (tries : Tries) : SiteM Output := do
  match ← (engine.runner.execution.run (Work.call (.scan "counters"))).run with
  | .error e => return failed started (.ofError e)
  | .ok rows =>
    let total := (rows.filterMap counted).sum
    match ← (engine.definition.dropTable "counters").run with
    | .error e => return failed started (.ofError e)
    | .ok () =>
      let expected := Int64.ofNat (load.threads * load.transactions)
      let (last, problem) := verdict settings engine.kind total expected
      let results (elapsed : String) :=
        ["Results:", s!"  Total time: {elapsed}", s!"  Committed: {expected.toInt}",
          s!"  Aborted and retried: {tries.aborted}", s!"  Timed out and retried: {tries.timedOut}",
          s!"  Rows: {rows.length}", s!"  Counter total: {total.toInt}"]
      return { lines := fun elapsed => started ++ results elapsed ++ last, problem }

/-- Lets the workers count. -/
def exercise (settings : Settings) (load : Load) : Output :=
  withEngine settings fun engine => do
    match ← (engine.definition.createTable counters).run with
    | .error e => return failed [] (.ofError e)
    | .ok () =>
      let started := [s!"Running {load.threads} threads x {load.transactions} transactions over "
        ++ s!"{load.keys} counters ({engine.kind})"]
      match ← countAll engine load.maxAttempts (schedule load) { } with
      | .error problem => return failed started problem
      | .ok tries => conclude settings load engine started tries

/-! ### The tool -/

/-- What the tool says about its use. -/
def usage : List String :=
  ["Usage: tabular check [--config FILE] [--storage NAME]",
    "       tabular exercise [--config FILE] [--storage NAME] [--threads N] [--transactions N]",
    "                        [--keys N] [--max-attempts N]"]

/-- Goes on with the settings of a source. -/
def withSettings (s : Surroundings) (source : Source) (use : Settings → Output) : Output :=
  match settings s source with
  | .error problem => failed [] problem
  | .ok settings => use settings

/-- Carries out a command. -/
def run (s : Surroundings) : Command → Output
  | .help => { lines := timeless usage }
  | .check source => withSettings s source check
  | .exercise source load =>
    if load.threads = 0 ∨ load.keys = 0 ∨ load.maxAttempts = 0 then
      failed [] ⟨"threads, keys and max_attempts must be greater than 0", none⟩
    else withSettings s source fun settings => exercise settings load

end Tabular.Tool
