/-!
# Tabular.Text.Hex — bytes as lower-case hexadecimal text

`ofBytes` writes two digits per byte, `toBytes?` reads them back.
-/

namespace Tabular.Hex

/-- The lower-case hexadecimal digit of a number below sixteen. -/
def digit (n : Nat) : Char := if n < 10 then Char.ofNat (48 + n) else Char.ofNat (87 + n)

/-- The value of a hexadecimal digit of either case. -/
def value? (c : Char) : Option Nat :=
  if '0' ≤ c ∧ c ≤ '9' then some (c.toNat - 48)
  else if 'a' ≤ c ∧ c ≤ 'f' then some (c.toNat - 87)
  else if 'A' ≤ c ∧ c ≤ 'F' then some (c.toNat - 55)
  else none

/-- The digits of a list of bytes, two per byte. -/
def chars (bytes : List UInt8) : List Char :=
  bytes.flatMap fun b => [digit (b.toNat / 16), digit (b.toNat % 16)]

/-- The text of a list of bytes, two digits per byte. -/
def ofBytes (bytes : List UInt8) : String := String.ofList (chars bytes)

/-- Reads a number from hexadecimal digits, all of which must be digits. -/
def toNat? (cs : List Char) : Option Nat :=
  cs.foldl (fun acc c => do return (← acc) * 16 + (← value? c)) (some 0)

/-- Reads bytes from an even number of digits. -/
def toBytes? : List Char → Option (List UInt8)
  | [] => some []
  | [_] => none
  | h :: l :: rest => do
    let high ← value? h
    let low ← value? l
    return UInt8.ofNat (high * 16 + low) :: (← toBytes? rest)

end Tabular.Hex
