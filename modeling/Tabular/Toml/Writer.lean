import Tabular.Text.Hex

/-!
# Tabular.Toml.Writer — the written form of a TOML text

`written` chooses among the four forms of a TOML text the plainest one that can hold the content: one
line in double quotes, one line in apostrophes, then the long forms.  Escapes are used only if no form
can do without them.
-/

namespace Tabular.Toml

/-- The forms in which a text may be written. -/
inductive TextForm where
  | basic
  | literal
  | longBasic
  | longLiteral
deriving DecidableEq, Repr

/-- Whether a character can stand in a text only as an escape. -/
def isControl (c : Char) : Bool := (c < ' ' && c ≠ '\t' && c ≠ '\n') || c = '\x7f'

/-- The length of the longest run of `q`, where `run` of them stand before the text. -/
def longestRun (q : Char) (run : Nat) : List Char → Nat
  | [] => run
  | c :: rest => if c = q then longestRun q (run + 1) rest else max run (longestRun q 0 rest)

/-- The form chosen for a text. -/
def TextForm.choose (cs : List Char) : TextForm :=
  let controls := cs.any isControl
  let backslashes := cs.contains '\\'
  let breaks := cs.contains '\n'
  let quotes := longestRun '"' 0 cs
  let apostrophes := longestRun '\x27' 0 cs
  if !controls && !backslashes && quotes = 0 && !breaks then basic
  else if !controls && apostrophes = 0 && !breaks then literal
  else if !controls && !backslashes && quotes ≤ 2 then longBasic
  else if !controls && apostrophes ≤ 2 then longLiteral
  else if breaks then longBasic
  else basic

/-- The four upper-case hexadecimal digits of a control character. -/
def controlDigits (c : Char) : List Char :=
  ['0', '0', (Hex.digit (c.toNat / 16)).toUpper, (Hex.digit (c.toNat % 16)).toUpper]

/-- A character other than a double quote in a form with escapes; a long form keeps line breaks. -/
def escapedChar (long : Bool) (c : Char) : List Char :=
  if c = '\x08' then "\\b".toList
  else if c = '\t' then "\\t".toList
  else if c = '\n' then if long then ['\n'] else "\\n".toList
  else if c = '\x0c' then "\\f".toList
  else if c = '\r' then "\\r".toList
  else if c = '\\' then "\\\\".toList
  else if isControl c then '\\' :: 'u' :: controlDigits c
  else [c]

/-- The content of a form with escapes.  At most `limit` double quotes stand in a row without one;
`run` of them stand before the text. -/
def escapedText (long : Bool) (limit run : Nat) : List Char → List Char
  | [] => []
  | c :: rest =>
    if c = '"' then
      if run < limit then '"' :: escapedText long limit (run + 1) rest
      else '\\' :: '"' :: escapedText long limit 0 rest
    else escapedChar long c ++ escapedText long limit 0 rest

/-- A long text starts on a line of its own if it has several lines. -/
def leadingBreak (cs : List Char) : List Char := if cs.contains '\n' then ['\n'] else []

/-- A text in a given form. -/
def TextForm.write (cs : List Char) : TextForm → List Char
  | basic => '"' :: escapedText false 0 0 cs ++ ['"']
  | literal => '\x27' :: cs ++ ['\x27']
  | longBasic => ['"', '"', '"'] ++ leadingBreak cs ++ escapedText true 2 0 cs ++ ['"', '"', '"']
  | longLiteral => ['\x27', '\x27', '\x27'] ++ leadingBreak cs ++ cs ++ ['\x27', '\x27', '\x27']

/-- The written form of a text. -/
def written (text : String) : String :=
  String.ofList ((TextForm.choose text.toList).write text.toList)

end Tabular.Toml
