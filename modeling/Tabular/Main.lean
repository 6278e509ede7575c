import Tabular.Tool.Run

/-!
# Tabular.Main — the command-line tool

Reads the arguments, the file with settings and the environment, carries out the command and prints
what it answers.
-/

namespace Tabular.Main

/-- The environment variables that override settings. -/
def readEnvironment : IO (List (String × String)) :=
  Settings.overrides.filterMapM fun o => return (← IO.getEnv o.variable).map (o.variable, ·)

/-- The content of a file, or why it cannot be read. -/
def readFile (path : String) : IO (Except String String) := do
  try return .ok (← IO.FS.readFile path)
  catch e => return .error (toString e)

/-- Reads what a command needs to know. -/
def surroundings (source : Tool.Source) : IO Tool.Surroundings := do
  let overrides ← readEnvironment
  let content ← readFile (source.file.getD "")
  return { fileContent := fun _ => content, environment := (List.lookup · overrides) }

/-- Where the settings of a command come from. -/
def sourceOf : Tool.Command → Tool.Source
  | .check source => source
  | .exercise source _ => source
  | .help => ⟨none, none⟩

/-- Carries out a command and answers the exit code. -/
def carryOut (command : Tool.Command) : IO UInt32 := do
  let surroundings ← surroundings (sourceOf command)
  let started ← IO.monoMsNow
  let output ← IO.lazyPure fun _ => Tool.run surroundings command
  let ended ← IO.monoMsNow
  (output.lines s!"{ended - started}ms").forM fun line => IO.println line
  match output.problem with
  | none => return 0
  | some problem =>
    IO.eprintln problem.text
    return 1

end Tabular.Main

/-- Runs the tool. -/
def main (arguments : List String) : IO UInt32 := do
  match Tabular.Tool.Command.parse arguments with
  | .ok command => Tabular.Main.carryOut command
  | .error .help => Tabular.Main.carryOut .help
  | .error .usage =>
    Tabular.Tool.usage.forM fun line => IO.eprintln line
    return 2
