/-!
# Tabular.Text.Shown — a text as a message shows it

`text` puts a text between double quotes and on one line: quotes, backslashes and line breaks are
escaped, and so is what cannot be seen.
-/

namespace Tabular.Shown

/-- The blocks of code points that cannot be seen: control characters, blanks other than the space,
combining marks, format characters, surrogates and private characters. -/
def unseenBlocks : List (Nat × Nat) :=
  [(0x0, 0x1F), (0x7F, 0xA0), (0xAD, 0xAD), (0x300, 0x36F), (0x1680, 0x1680), (0x2000, 0x200F),
    (0x2028, 0x202F), (0x205F, 0x206F), (0x20D0, 0x20F0), (0x3000, 0x3000), (0xD800, 0xF8FF),
    (0xFE00, 0xFE0F), (0xFE20, 0xFE2F), (0xFEFF, 0xFEFF), (0xFFF0, 0xFFFB), (0xFFFE, 0xFFFF),
    (0xE0000, 0x10FFFF)]

/-- Whether a character cannot be seen. -/
def isUnseen (c : Char) : Bool := unseenBlocks.any fun b => b.1 ≤ c.toNat && c.toNat ≤ b.2

/-- The code point of a character in hexadecimal digits, without leading zeros. -/
def codePoint (c : Char) : List Char := Nat.toDigits 16 c.toNat

/-- A character as it is shown. -/
def showChar (c : Char) : List Char :=
  if c = '\x00' then ['\\', '0']
  else if c = '\t' then ['\\', 't']
  else if c = '\n' then ['\\', 'n']
  else if c = '\r' then ['\\', 'r']
  else if c = '"' then ['\\', '"']
  else if c = '\\' then ['\\', '\\']
  else if isUnseen c then ['\\', 'u', '\x7b'] ++ codePoint c ++ ['\x7d']
  else [c]

/-- A text as it is shown. -/
def text (s : String) : String := String.ofList ('"' :: s.toList.flatMap showChar ++ ['"'])

end Tabular.Shown
