import Tabular.Text.Hex

/-!
# Tabular.Toml.Scalar — bare TOML values

`integer?`, `isFloat` and `isDateTime` decide what a bare word stands for: an integer in one of four
bases, a float, a date or a time.  Digits may be separated by single underscores.
-/

namespace Tabular.Toml

/-- The characters of bare words: numbers, dates, times and the named values. -/
def isWordChar (c : Char) : Bool :=
  c.isAlphanum || c = '_' || c = '+' || c = '-' || c = '.' || c = ':'

/-- Digits of a base with single underscores between them: the digits alone. -/
def separatedDigits? (isDigit : Char → Bool) : List Char → Option (List Char)
  | [] => none
  | c :: rest => if isDigit c then (c :: ·) <$> more rest else none
where
  /-- What may follow a digit. -/
  more : List Char → Option (List Char)
    | [] => some []
    | '_' :: c :: rest => if isDigit c then (c :: ·) <$> more rest else none
    | c :: rest => if isDigit c then (c :: ·) <$> more rest else none

/-- The number that digits of a base stand for. -/
def ofDigits (base : Nat) (digits : List Char) : Nat :=
  digits.foldl (fun n c => n * base + (Hex.value? c).getD 0) 0

/-- A sign and what follows it. -/
def signed (cs : List Char) : Bool × List Char :=
  match cs with
  | '-' :: rest => (true, rest)
  | '+' :: rest => (false, rest)
  | _ => (false, cs)

/-- The digits of a decimal whole number, which starts with zero only if it is zero. -/
def wholeDigits? (cs : List Char) : Option (List Char) := do
  let digits ← separatedDigits? Char.isDigit cs
  if digits.head? = some '0' ∧ cs.length ≠ 1 then none else return digits

/-- Keeps the integers of 64 bits. -/
def inRange? (n : Int) : Option Int :=
  if Int64.minValue.toInt ≤ n ∧ n ≤ Int64.maxValue.toInt then some n else none

/-- Reads an integer. -/
def integer? : List Char → Option Int
  | '0' :: 'x' :: rest => do
    inRange? (ofDigits 16 (← separatedDigits? (fun c => (Hex.value? c).isSome) rest))
  | '0' :: 'o' :: rest => do
    inRange? (ofDigits 8 (← separatedDigits? (fun c => '0' ≤ c && c ≤ '7') rest))
  | '0' :: 'b' :: rest => do
    inRange? (ofDigits 2 (← separatedDigits? (fun c => c = '0' || c = '1') rest))
  | cs => do
    let (negative, rest) := signed cs
    let n := ofDigits 10 (← wholeDigits? rest)
    inRange? (if negative then -n else n)

/-- The parts of a float: digits in front of the point, digits after it, exponent. -/
def floatParts? (cs : List Char) : Option (List Char × List Char × Int) := do
  let (whole, rest) := cs.span fun c => c.isDigit || c = '_'
  let whole ← wholeDigits? whole
  let (fraction, rest) ←
    match rest with
    | '.' :: rest =>
      let (fraction, rest) := rest.span fun c => c.isDigit || c = '_'
      pure (← separatedDigits? Char.isDigit fraction, rest)
    | _ => pure ([], rest)
  match rest with
  | [] => if fraction = [] then none else return (whole, fraction, 0)
  | e :: rest =>
    if e = 'e' ∨ e = 'E' then
      let (negative, digits) := signed rest
      let n : Int := ofDigits 10 (← separatedDigits? Char.isDigit digits)
      return (whole, fraction, if negative then -n else n)
    else none

/-- Whether `digits · 10^exponent` is beyond the largest 64-bit float, rounding included. -/
def overflows (digits : List Char) (exponent : Int) : Bool :=
  let n := ofDigits 10 digits
  if n = 0 then false
  else
    let place := (Nat.toDigits 10 n).length + exponent
    if place > 400 then true
    else if place < 300 then false
    else
      let limit := Nat.pow 2 1024 - Nat.pow 2 970
      if 0 ≤ exponent then limit ≤ n * Nat.pow 10 exponent.toNat
      else limit * Nat.pow 10 (-exponent).toNat ≤ n

/-- Whether a bare word is a float.  A number too large is refused, a number too small is not. -/
def isFloat (cs : List Char) : Bool :=
  let (negative, rest) := signed cs
  if rest = "inf".toList ∨ rest = "nan".toList then true
  else
    match floatParts? rest with
    | none => false
    | some (whole, fraction, exponent) =>
      negative || !overflows (whole ++ fraction) (exponent - fraction.length)

/-- The number that two digits stand for, if it lies within the bounds. -/
def twoDigits? (low high : Nat) (a b : Char) : Option Nat :=
  if a.isDigit ∧ b.isDigit then
    let n := ofDigits 10 [a, b]
    if low ≤ n ∧ n ≤ high then some n else none
  else none

/-- The number of days of a month. -/
def daysIn (year month : Nat) : Nat :=
  if month = 2 then
    if year % 4 = 0 ∧ (year % 100 ≠ 0 ∨ year % 400 = 0) then 29 else 28
  else if month = 4 ∨ month = 6 ∨ month = 9 ∨ month = 11 then 30
  else 31

/-- Reads a date of the calendar at the start of a word: what follows it. -/
def afterDate? : List Char → Option (List Char)
  | y₁ :: y₂ :: y₃ :: y₄ :: '-' :: m₁ :: m₂ :: '-' :: d₁ :: d₂ :: rest => do
    let century ← twoDigits? 0 99 y₁ y₂
    let year ← twoDigits? 0 99 y₃ y₄
    let month ← twoDigits? 1 12 m₁ m₂
    let _ ← twoDigits? 1 (daysIn (century * 100 + year) month) d₁ d₂
    return rest
  | _ => none

/-- Reads a time of day at the start of a word: what follows it. -/
def afterTime? : List Char → Option (List Char)
  | h₁ :: h₂ :: ':' :: m₁ :: m₂ :: ':' :: s₁ :: s₂ :: rest => do
    let _ ← twoDigits? 0 23 h₁ h₂
    let _ ← twoDigits? 0 59 m₁ m₂
    let _ ← twoDigits? 0 60 s₁ s₂
    match rest with
    | '.' :: rest =>
      let (digits, rest) := rest.span Char.isDigit
      if digits = [] then none else return rest
    | _ => return rest
  | _ => none

/-- Whether a word is the offset of a time zone, or empty. -/
def isOffset : List Char → Bool
  | [] => true
  | [z] => z = 'Z' || z = 'z'
  | [s, h₁, h₂, ':', m₁, m₂] =>
    (s = '+' || s = '-') && (twoDigits? 0 23 h₁ h₂).isSome && (twoDigits? 0 59 m₁ m₂).isSome
  | _ => false

/-- Whether a word is a time of day with an optional offset. -/
def isTimeWithOffset (cs : List Char) : Bool :=
  match afterTime? cs with
  | some rest => isOffset rest
  | none => false

/-- Whether a word is a date, a time, or both with a `T` between them. -/
def isDateTime (cs : List Char) : Bool :=
  match afterDate? cs with
  | some [] => true
  | some (t :: rest) => (t = 'T' || t = 't') && isTimeWithOffset rest
  | none => afterTime? cs = some []

end Tabular.Toml
