import Tabular.Decimal.Scaled

/-!
# Tabular.Decimal.Shortest — the shortest decimal text of a binary float

`Layout` describes a binary interchange format by the widths of its fields.  `text` decodes a bit
pattern into `m · 2^e`, takes the interval of reals that round to it, and writes the decimal with the
fewest digits that lies in the interval, the nearest one if there are several and the larger one on an
exact tie.  The text is always positional: no exponent, and no point in front of a whole number's end.
-/

namespace Tabular.Shortest

/-- A binary floating-point format, by the widths of its exponent and fraction fields. -/
structure Layout where
  exponentBits : Nat
  fractionBits : Nat
deriving DecidableEq, Repr

/-- The 32-bit format. -/
def single : Layout := ⟨8, 23⟩

/-- The 64-bit format. -/
def double : Layout := ⟨11, 52⟩

/-- A float as its parts say: not a number, infinite, or `mantissa · 2^exponent`. -/
inductive Magnitude where
  | nan
  /-- Larger than every number of the format. -/
  | infinite
  /-- The number `mantissa · 2^exponent`; `atBinade` when the gap below it is half the gap above. -/
  | finite (mantissa : Nat) (exponent : Int) (atBinade : Bool)
deriving DecidableEq, Repr

/-- The sign bit of a pattern. -/
def Layout.isNegative (f : Layout) (bits : Nat) : Bool :=
  bits / Nat.pow 2 (f.exponentBits + f.fractionBits) % 2 = 1

/-- The magnitude that a bit pattern stands for. -/
def Layout.magnitude (f : Layout) (bits : Nat) : Magnitude :=
  let unit := Nat.pow 2 f.fractionBits
  let fraction := bits % unit
  let field := bits / unit % Nat.pow 2 f.exponentBits
  let shift : Int := (Nat.pow 2 (f.exponentBits - 1) - 1 + f.fractionBits : Nat)
  if field = Nat.pow 2 f.exponentBits - 1 then
    if fraction = 0 then .infinite else .nan
  else if field = 0 then .finite fraction (1 - shift) false
  else .finite (unit + fraction) (field - shift) (fraction = 0)

/-- A decimal number `digits · 10^(-scale)`. -/
structure Point where
  /-- The unscaled number. -/
  digits : Nat
  /-- The number of decimal places; negative for trailing zeros in front of the point. -/
  scale : Int
deriving DecidableEq, Repr

/-- The same decimal without trailing zeros in `digits`; `fuel` bounds their number. -/
def Point.stripped : Nat → Point → Point
  | 0, p => p
  | fuel + 1, p =>
    if p.digits % 10 = 0 ∧ p.digits ≠ 0 then Point.stripped fuel ⟨p.digits / 10, p.scale - 1⟩ else p

/-- The positional text of a decimal. -/
def Point.text (p : Point) : String :=
  if 0 ≤ p.scale then Scaled.text p.digits p.scale.toNat
  else Scaled.text (p.digits * Nat.pow 10 (-p.scale).toNat : Nat) 0

/-- The value `quarters / 4 · 2^exponent` as a fraction of naturals. -/
def fraction (quarters : Nat) (exponent : Int) : Nat × Nat :=
  if 0 ≤ exponent then (quarters * Nat.pow 2 exponent.toNat, 4)
  else (quarters, 4 * Nat.pow 2 (-exponent).toNat)

/-- The number of decimal digits in front of the point of `num / den`, at most zero for a value
below one: the least `k` with `num / den < 10^k`. -/
def leadingPlace (num den : Nat) : Int :=
  if den ≤ num then (Nat.toDigits 10 (num / den)).length
  else
    let k := (Nat.toDigits 10 (den / num)).length
    -- `den / num` lies in `[10^(k-1), 10^k)`, so the value is above `10^(-k)` and at most `10^(1-k)`
    if num * Nat.pow 10 (k - 1) < den then 1 - (k : Int) else 2 - (k : Int)

/-- The two neighbours of `num / den` on the grid of step `10^(-scale)`, and whether the upper one is
nearer; an exact tie counts as nearer to the upper one. -/
def neighbours (num den : Nat) (scale : Int) : Nat × Nat × Bool :=
  let (n, d) :=
    if 0 ≤ scale then (num * Nat.pow 10 scale.toNat, den) else (num, den * Nat.pow 10 (-scale).toNat)
  let low := n / d
  (low, if n % d = 0 then low else low + 1, d ≤ 2 * (n % d))

/-- Compares `digits · 10^(-scale)` with `num / den`. -/
def comparePoint (p : Point) (num den : Nat) : Ordering :=
  if 0 ≤ p.scale then compare (p.digits * den) (num * Nat.pow 10 p.scale.toNat)
  else compare (p.digits * Nat.pow 10 (-p.scale).toNat * den) num

/-- The interval of reals that round to a float, ends included when its mantissa is even. -/
structure Interval where
  low : Nat × Nat
  high : Nat × Nat
  /-- Whether the ends belong to the interval. -/
  closed : Bool

/-- Whether a decimal lies in the interval. -/
def Interval.contains (i : Interval) (p : Point) : Bool :=
  let above := comparePoint p i.low.1 i.low.2
  let below := comparePoint p i.high.1 i.high.2
  (above = .gt || (i.closed && above = .eq)) && (below = .lt || (i.closed && below = .eq))

/-- The decimal of the interval on the grid of step `10^(-scale)` nearest to `num / den`. -/
def onGrid? (i : Interval) (num den : Nat) (scale : Int) : Option Point :=
  let (low, high, up) := neighbours num den scale
  let lower : Point := ⟨low, scale⟩
  let upper : Point := ⟨high, scale⟩
  match i.contains lower, i.contains upper with
  | true, true => some (if up then upper else lower)
  | true, false => some lower
  | false, true => some upper
  | false, false => none

/-- The first hit on grids of ever smaller steps; `fuel` bounds their number. -/
def search (i : Interval) (num den : Nat) : Nat → Int → Point
  | 0, scale => ⟨(neighbours num den scale).1, scale⟩
  | fuel + 1, scale => (onGrid? i num den scale).getD (search i num den fuel (scale + 1))

/-- The shortest decimal that rounds to `mantissa · 2^exponent`, without trailing zeros. -/
def point (mantissa : Nat) (exponent : Int) (atBinade : Bool) : Point :=
  let (num, den) := fraction (4 * mantissa) exponent
  let interval : Interval :=
    { low := fraction (4 * mantissa - if atBinade then 1 else 2) exponent
      high := fraction (4 * mantissa + 2) exponent
      closed := mantissa % 2 = 0 }
  -- seventeen significant digits always suffice for sixty-four bits
  (search interval num den 20 (1 - leadingPlace num den)).stripped 20

/-- The text of the float with the given bits. -/
def text (f : Layout) (bits : Nat) : String :=
  let sign := if f.isNegative bits then "-" else ""
  match f.magnitude bits with
  | .nan => "NaN"
  | .infinite => sign ++ "inf"
  | .finite 0 _ _ => sign ++ "0"
  | .finite mantissa exponent atBinade => sign ++ (point mantissa exponent atBinade).text

end Tabular.Shortest
