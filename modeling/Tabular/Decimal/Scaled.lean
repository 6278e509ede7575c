/-!
# Tabular.Decimal.Scaled — the text of a fixed-point decimal

`text unscaled scale` writes `unscaled · 10^(-scale)` with exactly `scale` digits after the point,
no point when `scale` is zero, at least one digit before it and no further leading zero.
-/

namespace Tabular.Scaled

/-- Digits padded with zeros on the left to at least `width` of them. -/
def padded (width : Nat) (digits : List Char) : List Char :=
  List.replicate (width - digits.length) '0' ++ digits

/-- The characters of the magnitude `n · 10^(-scale)`. -/
def magnitude (n scale : Nat) : List Char :=
  if scale = 0 then Nat.toDigits 10 n
  else
    let digits := padded (scale + 1) (Nat.toDigits 10 n)
    digits.take (digits.length - scale) ++ '.' :: digits.drop (digits.length - scale)

/-- The characters of `unscaled · 10^(-scale)`, with a minus sign exactly for negative values. -/
def chars (unscaled : Int) (scale : Nat) : List Char :=
  (if unscaled < 0 then ['-'] else []) ++ magnitude unscaled.natAbs scale

def text (unscaled : Int) (scale : Nat) : String := String.ofList (chars unscaled scale)

end Tabular.Scaled
