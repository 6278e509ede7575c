import Tabular.Json.Fault

/-!
# Tabular.Json.Number — JSON numbers

`readNumeral` reads a number without its sign into its digits; `Numeral.found` says what it stands for:
an integer if it is written as one and has 64 bits, otherwise a double.
-/

namespace Tabular.Json

/-- The digits of a number. -/
structure Numeral where
  /-- The digits in front of the point. -/
  whole : List Char
  /-- The digits behind the point. -/
  fraction : List Char
  exponent : Option Int
deriving DecidableEq, Repr

/-- The number that decimal digits stand for. -/
def ofDigits (digits : List Char) : Nat := digits.foldl (fun n c => n * 10 + (c.toNat - '0'.toNat)) 0

/-- Reads the digits in front of the point: a lone zero, or digits that start with none.  `ended` is the
reason to stop when the text ends where a digit has to be; so it is below. -/
def readWhole (ended : Reason) : List Char → Except Fault (List Char × List Char)
  | [] => stopBefore ended []
  | c :: rest =>
    if !c.isDigit then stopAt .badNumber (c :: rest)
    else if c ≠ '0' then .ok ((c :: rest).span Char.isDigit)
    else
      match rest with
      | [] => .ok (['0'], [])
      | d :: rest => if d.isDigit then stopAt .badNumber (d :: rest) else .ok (['0'], d :: rest)

/-- Reads digits, at least one of them. -/
def readDigits (ended : Reason) (cs : List Char) : Except Fault (List Char × List Char) :=
  match cs.span Char.isDigit with
  | ([], []) => stopBefore ended []
  | ([], rest) => stopAt .badNumber rest
  | found => .ok found

/-- Reads an optional point with the digits behind it. -/
def readFraction (ended : Reason) : List Char → Except Fault (List Char × List Char)
  | [] => .ok ([], [])
  | c :: rest => if c = '.' then readDigits ended rest else .ok ([], c :: rest)

/-- A sign and what follows it. -/
def readSign : List Char → Bool × List Char
  | [] => (false, [])
  | c :: rest =>
    if c = '-' then (true, rest) else if c = '+' then (false, rest) else (false, c :: rest)

/-- Reads an optional exponent. -/
def readExponent (ended : Reason) : List Char → Except Fault (Option Int × List Char)
  | [] => .ok (none, [])
  | c :: rest =>
    if c = 'e' ∨ c = 'E' then do
      let (negative, rest) := readSign rest
      let (digits, rest) ← readDigits ended rest
      let n : Int := ofDigits digits
      return (some (if negative then -n else n), rest)
    else .ok (none, c :: rest)

/-- Reads a number without its sign. -/
def readNumeral (ended : Reason) (cs : List Char) : Except Fault (Numeral × List Char) := do
  let (whole, cs) ← readWhole ended cs
  let (fraction, cs) ← readFraction ended cs
  let (exponent, cs) ← readExponent ended cs
  return ({ whole, fraction, exponent }, cs)

/-- The leading digits of a number that fit into 64 bits, and the power of ten that they lack. -/
structure Leading where
  digits : Nat
  power : Int

/-- Takes one more digit in front of the point.  Once a digit does not fit, no later one is taken. -/
def Leading.takeWhole (l : Leading) (c : Char) : Leading :=
  let digits := l.digits * 10 + (c.toNat - '0'.toNat)
  if l.power = 0 ∧ digits < UInt64.size then { l with digits } else { l with power := l.power + 1 }

/-- Takes digits behind the point as long as they fit. -/
def Leading.takeFraction (l : Leading) : List Char → Leading
  | [] => l
  | c :: rest =>
    let digits := l.digits * 10 + (c.toNat - '0'.toNat)
    if digits < UInt64.size then Leading.takeFraction ⟨digits, l.power - 1⟩ rest else l

/-- A power of ten as a double. -/
def tenTo (n : Nat) : Float := Float.ofScientific 1 false n

/-- The double for leading digits, rounded once for the digits and once for each power of ten, or
`none` if it is too large. -/
def Leading.double? (l : Leading) : Option Float :=
  let f := (UInt64.ofNat l.digits).toFloat
  let power := l.power.natAbs
  if l.digits = 0 then some f
  else if l.power < 0 then
    if power ≤ 308 then some (f / tenTo power)
    else if power ≤ 616 then some (f / tenTo 308 / tenTo (power - 308))
    else some 0
  else if power ≤ 308 then
    let product := f * tenTo power
    if product.isInf then none else some product
  else none

/-- The leading digits of a numeral. -/
def Numeral.leading (n : Numeral) : Leading :=
  let whole := n.whole.foldl Leading.takeWhole ⟨0, 0⟩
  let taken := whole.takeFraction n.fraction
  { taken with power := taken.power + n.exponent.getD 0 }

/-- What a numeral stands for, or `none` if it is too large. -/
def Numeral.found? (n : Numeral) (negative : Bool) : Option Found :=
  let value : Int := if negative then -ofDigits n.whole else ofDigits n.whole
  let isWhole := n.fraction = [] ∧ n.exponent = none
  if isWhole ∧ (if negative then Int64.minValue.toInt ≤ value ∧ value < 0 else value < UInt64.size) then
    some (.integer value)
  else n.leading.double?.map fun f => .double (if negative then -f else f).toBits

/-- Reads what a number after its sign stands for. -/
def readNumber (negative : Bool) (cs : List Char) : Except Fault (Found × List Char) := do
  let (numeral, rest) ← readNumeral (.unfinished .value) cs
  match numeral.found? negative with
  | some found => return (found, rest)
  | none => stopBefore .numberTooLarge rest

end Tabular.Json
