import Tabular.Decimal.Shortest

/-!
# Tabular.Decimal.Pointed — the shortest decimal text that shows a point or an exponent

The digits are those of `Shortest.point`.  A number from 10^-5 up to 10^16 is written positionally and
with a digit behind the point; any other has one digit in front of the point, none behind it that is not
needed, and an exponent.
-/

namespace Tabular.Pointed

/-- The text of digits with a point in front of the place `place`, counted from their start. -/
def arrange (digits : List Char) (place : Int) : List Char :=
  if 0 < place ∧ place ≤ 16 then
    let whole := place.toNat
    if digits.length ≤ whole then
      digits ++ List.replicate (whole - digits.length) '0' ++ ['.', '0']
    else digits.take whole ++ '.' :: digits.drop whole
  else if -5 < place ∧ place ≤ 0 then
    '0' :: '.' :: List.replicate (-place).toNat '0' ++ digits
  else
    let exponent := 'e' :: (toString (place - 1)).toList
    match digits with
    | first :: more =>
      if more = [] then first :: exponent else first :: '.' :: more ++ exponent
    | [] => exponent

/-- The text of the finite double with the given bits. -/
def text (bits : Nat) : String :=
  let sign := if Shortest.double.isNegative bits then "-" else ""
  match Shortest.double.magnitude bits with
  | .finite mantissa exponent atBinade =>
    if mantissa = 0 then sign ++ "0.0"
    else
      let p := Shortest.point mantissa exponent atBinade
      let digits := Nat.toDigits 10 p.digits
      sign ++ String.ofList (arrange digits (digits.length - p.scale))
  | .infinite => sign ++ "inf"
  | .nan => "NaN"

end Tabular.Pointed
