import Tabular.Settings.Override

/-!
# Tabular.Tool.Arguments — the command line

`Command.parse` reads the arguments of the tool: a command and its options.  An option is written
`--name value`, `--name=value`, `-n value`, `-nvalue` or `-n=value`, each at most once.
-/

namespace Tabular.Tool

/-- Where the settings of a command come from. -/
structure Source where
  file : Option String
  /-- A storage family that counts before that of the settings. -/
  storage : Option String
deriving DecidableEq, Repr

/-- How much the tool works with the store, and how. -/
structure Load where
  threads : Nat
  transactions : Nat
  keys : Nat
  maxAttempts : Nat
deriving DecidableEq, Repr

inductive Command where
  /-- Build the engine that the settings ask for. -/
  | check (source : Source)
  /-- Let workers count and see whether the counters are right. -/
  | exercise (source : Source) (load : Load)
  | help
deriving DecidableEq, Repr

/-- Why arguments are no command. -/
inductive Refusal where
  | usage
  | help

/-- The values of the options that have been met. -/
structure Given where
  file : Option String := none
  storage : Option String := none
  threads : Option Nat := none
  transactions : Option Nat := none
  keys : Option Nat := none
  maxAttempts : Option Nat := none
deriving DecidableEq, Repr

structure OptionName where
  long : String
  /-- Its letter after one hyphen, if it has one. -/
  short : Option Char
  /-- Adds its value, if this can be read and there is none yet. -/
  give? : String → Given → Option Given

/-- Whether an argument can only be an option. -/
def isFlag (argument : String) : Bool :=
  match argument.toList with
  | '-' :: _ :: _ => true
  | _ => false

/-- What an argument is by itself. -/
inductive Part where
  /-- An option whose value is the next argument. -/
  | named (option : OptionName)
  | valued (option : OptionName) (value : String)
  | endMark
  | help
  | unknown

/-- The part for the long name of an option, with what follows it. -/
def longPart (known : List OptionName) (body : List Char) : Part :=
  let name := String.ofList (body.takeWhile (· ≠ '='))
  match known.find? (·.long == name), body.dropWhile (· ≠ '=') with
  | some option, [] => .named option
  | some option, _ :: value => .valued option (String.ofList value)
  | none, rest => if name = "help" ∧ rest = [] then .help else .unknown

/-- The part for the letter of an option, with what follows it. -/
def shortPart (known : List OptionName) (letter : Char) (rest : List Char) : Part :=
  match known.find? (·.short == some letter), rest with
  | some option, [] => .named option
  | some option, '=' :: value => .valued option (String.ofList value)
  | some option, value => .valued option (String.ofList value)
  | none, _ => if letter = 'h' then .help else .unknown

/-- What an argument is by itself. -/
def part (known : List OptionName) (argument : String) : Part :=
  match argument.toList with
  | ['-', '-'] => .endMark
  | '-' :: '-' :: body => longPart known body
  | '-' :: letter :: rest => shortPart known letter rest
  | _ => .unknown

def addValue (given : Given) (option : OptionName) (value : String) : Except Refusal Given :=
  match option.give? value given with
  | some given => .ok given
  | none => .error .usage

/-- Collects the values of options.  Each is read as soon as it is met, so that a request for help
counts only if nothing before it is wrong. -/
def collect (known : List OptionName) (given : Given) : List String → Except Refusal Given
  | [] => .ok given
  | argument :: rest =>
    match part known argument, rest with
    | .valued option value, rest => do collect known (← addValue given option value) rest
    | .named option, value :: rest =>
      if isFlag value then .error .usage
      else do collect known (← addValue given option value) rest
    | .named _, [] => .error .usage
    | .endMark, [] => .ok given
    | .endMark, _ :: _ => .error .usage
    | .help, _ => .error .help
    | .unknown, _ => .error .usage

/-- The only value of an option, if it has none yet and the new one can be read. -/
def once (old new : Option α) : Option (Option α) :=
  match old, new with
  | none, some value => some (some value)
  | _, _ => none

/-- Reads the name of a file, which is not empty. -/
def fileName? (text : String) : Option String := if text = "" then none else some text

/-- The options that say where the settings come from. -/
def sourceOptions : List OptionName :=
  [⟨"config", some 'c', fun text g => do return { g with file := ← once g.file (fileName? text) }⟩,
    ⟨"storage", some 's', fun text g => do return { g with storage := ← once g.storage (some text) }⟩]

/-- The options that say how much there is to do. -/
def loadOptions : List OptionName :=
  [⟨"threads", some 't', fun text g => do
      return { g with threads := ← once g.threads (Settings.parseNumber? text) }⟩,
    ⟨"transactions", none, fun text g => do
      return { g with transactions := ← once g.transactions (Settings.parseNumber? text) }⟩,
    ⟨"keys", some 'k', fun text g => do
      return { g with keys := ← once g.keys (Settings.parseNumber? text) }⟩,
    ⟨"max-attempts", none, fun text g => do
      return { g with maxAttempts := ← once g.maxAttempts (Settings.parseNumber? text) }⟩]

/-- Where the settings come from. -/
def Given.source (given : Given) : Source := { file := given.file, storage := given.storage }

/-- How much there is to do. -/
def Given.load (given : Given) : Load where
  threads := given.threads.getD 4
  transactions := given.transactions.getD 100
  keys := given.keys.getD 8
  maxAttempts := given.maxAttempts.getD 50

/-- Reads the arguments of the tool. -/
def Command.parse : List String → Except Refusal Command
  | "check" :: rest => do
    return .check (← collect sourceOptions { } rest).source
  | "exercise" :: rest => do
    let given ← collect (sourceOptions ++ loadOptions) { } rest
    return .exercise given.source given.load
  | "-h" :: _ | "--help" :: _ | "-V" :: _ | "--version" :: _ => .ok .help
  | ["help"] | ["help", "check"] | ["help", "exercise"] | ["help", "help"] => .ok .help
  | _ => .error .usage

end Tabular.Tool
