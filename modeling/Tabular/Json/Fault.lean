import Tabular.Decimal.Pointed
import Tabular.Text.Shown

/-!
# Tabular.Json.Fault — why reading a JSON text stops, and where

A reader answers what it has read and the text that follows, or the first `Fault` that it meets from
left to right.  A fault remembers the text that is left at its place; line and column are counted from
it when the fault is told, the column in bytes.
-/

namespace Tabular.Json

/-- What is being read when a text ends too early. -/
inductive Part where
  | array
  | object
  | text
  | value
deriving DecidableEq, Repr

def Part.name : Part → String
  | array => "a list"
  | object => "an object"
  | text => "a string"
  | value => "a value"

/-- What stands in a text where something else was to be read. -/
inductive Found where
  | null
  | boolean (value : Bool)
  | integer (value : Int)
  /-- A number that is no integer of 64 bits, by the bits of a double. -/
  | double (bits : UInt64)
  | text (content : String)
  | array
  | object
deriving DecidableEq, Repr

/-- The name of what was found. -/
def Found.name : Found → String
  | null => "null"
  | boolean value => s!"boolean `{value}`"
  | integer value => s!"integer `{value}`"
  | double bits => s!"floating point `{Pointed.text bits.toNat}`"
  | text content => s!"string {Shown.text content}"
  | array => "sequence"
  | object => "map"

/-- Why reading stops. -/
inductive Reason where
  /-- The text ends inside a part. -/
  | unfinished (part : Part)
  | noColon
  /-- An item that is followed neither by a comma nor by the end of the array. -/
  | noNextItem
  /-- A member that is followed neither by a comma nor by the end of the object. -/
  | noNextMember
  /-- Letters that are no word of JSON. -/
  | noWord
  | noValue
  | badEscape
  | badNumber
  | numberTooLarge
  | controlCharacter
  | nameNotText
  /-- The second half of a surrogate pair without the first, or the first with a wrong second. -/
  | loneSurrogate
  /-- The first half of a surrogate pair without another escape. -/
  | halfPair
  /-- A comma in front of a closing bracket or brace. -/
  | trailingComma
  /-- Something behind the end. -/
  | trailingText
  /-- Something else than what was to be read. -/
  | wrongType (found : Found) (expected : String)
  /-- A member that has to be there is not. -/
  | missingMember (name : String)
  /-- A member is there twice. -/
  | repeatedMember (name : String)
  /-- An array has fewer items than a record has members. -/
  | tooShort (length : Nat) (expected : String)
  /-- A name that is not one of the known ones. -/
  | unknownName (name : String) (known : List String)
deriving DecidableEq, Repr

/-- The wording of a reason. -/
def Reason.message : Reason → String
  | unfinished part => s!"EOF while parsing {part.name}"
  | noColon => "expected `:`"
  | noNextItem => "expected `,` or `]`"
  | noNextMember => "expected `,` or `\x7d`"
  | noWord => "expected ident"
  | noValue => "expected value"
  | badEscape => "invalid escape"
  | badNumber => "invalid number"
  | numberTooLarge => "number out of range"
  | controlCharacter => "control character (\\u0000-\\u001F) found while parsing a string"
  | nameNotText => "key must be a string"
  | loneSurrogate => "lone leading surrogate in hex escape"
  | halfPair => "unexpected end of hex escape"
  | trailingComma => "trailing comma"
  | trailingText => "trailing characters"
  | wrongType found expected => s!"invalid type: {found.name}, expected {expected}"
  | missingMember name => s!"missing field `{name}`"
  | repeatedMember name => s!"duplicate field `{name}`"
  | tooShort length expected => s!"invalid length {length}, expected {expected}"
  | unknownName name known =>
    let listed := ", ".intercalate (known.map fun k => s!"`{k}`")
    s!"unknown variant `{name}`, expected one of {listed}"

/-- Why and where reading stops. -/
structure Fault where
  reason : Reason
  /-- The text that is left. -/
  rest : List Char
  /-- How many bytes of what is left have been looked at. -/
  ahead : Nat
deriving DecidableEq, Repr

/-- A line of a text, counted from one, and a number of bytes in it. -/
structure Place where
  line : Nat
  /-- The number of bytes in front of the place in its line. -/
  column : Nat
deriving DecidableEq, Repr

/-- The place after one more byte. -/
def Place.next (p : Place) (byte : UInt8) : Place :=
  if byte = 10 then ⟨p.line + 1, 0⟩ else ⟨p.line, p.column + 1⟩

/-- The place after a number of bytes of a text. -/
def Place.ofOffset (text : String) (offset : Nat) : Place :=
  (text.toUTF8.toList.take offset).foldl Place.next ⟨1, 0⟩

namespace Fault

/-- The number of bytes of a text up to a fault, with the bytes that have been looked at. -/
def offset (f : Fault) (text : String) : Nat :=
  text.utf8ByteSize - (String.ofList f.rest).utf8ByteSize + f.ahead

/-- What is told about a fault in a text. -/
def message (f : Fault) (text : String) : String :=
  let place := Place.ofOffset text (f.offset text)
  s!"{f.reason.message} at line {place.line} column {place.column}"

end Fault

/-- Stops in front of a text. -/
def stopBefore {α : Type} (reason : Reason) (rest : List Char) : Except Fault α :=
  .error ⟨reason, rest, 0⟩

/-- Stops because of the next byte of a text. -/
def stopAt {α : Type} (reason : Reason) (rest : List Char) : Except Fault α :=
  .error ⟨reason, rest, 1⟩

end Tabular.Json
