import Tabular.Json.Number
import Tabular.Json.Text

/-!
# Tabular.Json.Reader — reading JSON values of a known type

A reader takes a value of the type that is wanted from the front of a text, blanks in front of it
included.  A value of another type is a fault that names what was found.  `skipValue` goes over a
value of any type.
-/

namespace Tabular.Json

/-- Whether a character may stand between the tokens. -/
def isBlank (c : Char) : Bool := c = ' ' || c = '\n' || c = '\t' || c = '\r'

/-- The text after the blanks at its start. -/
def skipBlanks (cs : List Char) : List Char := cs.dropWhile isBlank

/-- What follows the letters of a word. -/
def afterWord : List Char → List Char → Except Fault (List Char)
  | [], rest => .ok rest
  | _ :: _, [] => stopBefore (.unfinished .value) []
  | w :: word, c :: rest => if c = w then afterWord word rest else stopAt .noWord (c :: rest)

/-- What stands at the front of a text, and what follows it.  Of an array and an object nothing is read. -/
def readFound : List Char → Except Fault (Found × List Char)
  | [] => stopAt .noValue []
  | c :: rest =>
    if c = 'n' then return (.null, ← afterWord "ull".toList rest)
    else if c = 't' then return (.boolean true, ← afterWord "rue".toList rest)
    else if c = 'f' then return (.boolean false, ← afterWord "alse".toList rest)
    else if c = '-' then readNumber true rest
    else if c.isDigit then readNumber false (c :: rest)
    else if c = '"' then do
      let (content, rest) ← readText rest
      return (.text (String.ofList content), rest)
    else if c = '[' then return (.array, c :: rest)
    else if c = '{' then return (.object, c :: rest)
    else stopAt .noValue (c :: rest)

/-- Stops because a text does not start with what is expected. -/
def mismatch {α : Type} (expected : String) (cs : List Char) : Except Fault α := do
  let (found, rest) ← readFound cs
  stopBefore (.wrongType found expected) rest

/-! ### Single values -/

/-- Reads a text. -/
def readString (expected : String) (cs : List Char) : Except Fault (String × List Char) :=
  match skipBlanks cs with
  | [] => stopBefore (.unfinished .value) []
  | c :: rest =>
    if c = '"' then do
      let (content, rest) ← readText rest
      return (String.ofList content, rest)
    else mismatch expected (c :: rest)

/-- Reads a truth value. -/
def readBoolean (cs : List Char) : Except Fault (Bool × List Char) :=
  match skipBlanks cs with
  | [] => stopBefore (.unfinished .value) []
  | c :: rest =>
    if c = 't' then return (true, ← afterWord "rue".toList rest)
    else if c = 'f' then return (false, ← afterWord "alse".toList rest)
    else mismatch "a boolean" (c :: rest)

/-- Goes over a null. -/
def skipNull (cs : List Char) : Except Fault (List Char) :=
  match skipBlanks cs with
  | [] => stopBefore (.unfinished .value) []
  | c :: rest => if c = 'n' then afterWord "ull".toList rest else mismatch "unit" (c :: rest)

/-! ### Arrays -/

/-- Goes on to the next item of an array: whether there is one, and the text from it, or the text after
the closing bracket. -/
def nextItem (isFirst : Bool) (cs : List Char) : Except Fault (Bool × List Char) :=
  match skipBlanks cs with
  | [] => stopBefore (.unfinished .array) []
  | c :: rest =>
    if c = ']' then .ok (false, rest)
    else if isFirst then .ok (true, c :: rest)
    else if c ≠ ',' then stopAt .noNextItem (c :: rest)
    else
      match skipBlanks rest with
      | [] => stopBefore (.unfinished .value) []
      | d :: rest => if d = ']' then stopAt .trailingComma (d :: rest) else .ok (true, d :: rest)

/-- Closes an array that may have no more items. -/
def closeArray (cs : List Char) : Except Fault (List Char) :=
  match skipBlanks cs with
  | [] => stopBefore (.unfinished .array) []
  | c :: rest =>
    if c = ']' then .ok rest
    else if c ≠ ',' then stopAt .trailingText (c :: rest)
    else
      match skipBlanks rest with
      | [] => stopBefore .trailingText []
      | d :: rest => stopAt (if d = ']' then .trailingComma else .trailingText) (d :: rest)

/-- Reads the items of an array up to its closing bracket; `fuel` bounds their number. -/
def readItems {α : Type} (readItem : List Char → Except Fault (α × List Char)) :
    Nat → Bool → List Char → Except Fault (List α × List Char)
  | 0, _, cs => stopBefore (.unfinished .array) cs
  | fuel + 1, isFirst, cs => do
    let (more, cs) ← nextItem isFirst cs
    if more then
      let (item, cs) ← readItem cs
      let (items, rest) ← readItems readItem fuel false cs
      return (item :: items, rest)
    else return ([], cs)

/-- Reads an array.  Each item takes at least one character, so the length of the text bounds their
number. -/
def readList {α : Type} (readItem : List Char → Except Fault (α × List Char)) (cs : List Char) :
    Except Fault (List α × List Char) :=
  match skipBlanks cs with
  | [] => stopBefore (.unfinished .value) []
  | c :: rest =>
    if c = '[' then readItems readItem (rest.length + 1) true rest
    else mismatch "a sequence" (c :: rest)

/-! ### Objects -/

/-- Reads the next name of an object, if there is one, or goes over the closing brace. -/
def nextName (isFirst : Bool) (cs : List Char) : Except Fault (Option String × List Char) :=
  match skipBlanks cs with
  | [] => stopBefore (.unfinished .object) []
  | c :: rest =>
    if c = '}' then .ok (none, rest)
    else if isFirst then
      if c = '"' then name rest else stopAt .nameNotText (c :: rest)
    else if c ≠ ',' then stopAt .noNextMember (c :: rest)
    else
      match skipBlanks rest with
      | [] => stopBefore (.unfinished .value) []
      | d :: rest =>
        if d = '"' then name rest
        else stopAt (if d = '}' then .trailingComma else .nameNotText) (d :: rest)
where
  /-- Reads a name after its opening quote. -/
  name (cs : List Char) : Except Fault (Option String × List Char) := do
    let (content, rest) ← readText cs
    return (some (String.ofList content), rest)

/-- What follows the colon behind a name. -/
def afterColon (cs : List Char) : Except Fault (List Char) :=
  match skipBlanks cs with
  | [] => stopBefore (.unfinished .object) []
  | c :: rest => if c = ':' then .ok rest else stopAt .noColon (c :: rest)

/-! ### Values of any type -/

mutual

/-- Goes over a value; `fuel` bounds the nesting. -/
def skipWithin : Nat → List Char → Except Fault (List Char)
  | 0, cs => stopBefore .noValue cs
  | fuel + 1, cs =>
    match skipBlanks cs with
    | [] => stopBefore (.unfinished .value) []
    | c :: rest =>
      if c = 'n' then afterWord "ull".toList rest
      else if c = 't' then afterWord "rue".toList rest
      else if c = 'f' then afterWord "alse".toList rest
      else if c = '-' then (readNumeral .badNumber rest).map Prod.snd
      else if c.isDigit then (readNumeral .badNumber (c :: rest)).map Prod.snd
      else if c = '"' then skipText rest
      else if c = '[' then
        match skipBlanks rest with
        | [] => stopBefore (.unfinished .array) []
        | d :: rest => if d = ']' then .ok rest else skipItems fuel (d :: rest)
      else if c = '{' then
        match skipBlanks rest with
        | [] => stopBefore (.unfinished .object) []
        | d :: rest => if d = '}' then .ok rest else skipMembers fuel (d :: rest)
      else stopAt .noValue (c :: rest)

/-- Goes over the items of an array that has some, and its closing bracket. -/
def skipItems : Nat → List Char → Except Fault (List Char)
  | 0, cs => stopBefore .noValue cs
  | fuel + 1, cs => do
    match skipBlanks (← skipWithin fuel cs) with
    | [] => stopBefore (.unfinished .array) []
    | c :: rest =>
      if c = ']' then return rest
      else if c = ',' then skipItems fuel rest
      else stopAt .noNextItem (c :: rest)

/-- Goes over the members of an object that has some, and its closing brace. -/
def skipMembers : Nat → List Char → Except Fault (List Char)
  | 0, cs => stopBefore .noValue cs
  | fuel + 1, cs => do
    match skipBlanks cs with
    | [] => stopBefore (.unfinished .object) []
    | c :: rest =>
      if c ≠ '"' then stopAt .nameNotText (c :: rest)
      else
        match skipBlanks (← skipWithin fuel (← afterColon (← skipText rest))) with
        | [] => stopBefore (.unfinished .object) []
        | c :: rest =>
          if c = '}' then return rest
          else if c = ',' then skipMembers fuel rest
          else stopAt .noNextMember (c :: rest)

end

/-- Goes over a value.  Every step takes a character, so twice the length of the text bounds the nesting
of its calls. -/
def skipValue (cs : List Char) : Except Fault (List Char) := skipWithin (2 * cs.length + 2) cs

/-! ### Whole texts -/

/-- Reads a whole text, blanks around its value included. -/
def readAll {α : Type} (read : List Char → Except Fault (α × List Char)) (text : String) :
    Except Fault α := do
  let (value, rest) ← read text.toList
  match skipBlanks rest with
  | [] => return value
  | c :: rest => stopAt .trailingText (c :: rest)

end Tabular.Json
