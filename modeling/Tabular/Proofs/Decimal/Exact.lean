import Mathlib.Algebra.Field.Rat
import Mathlib.Tactic.NormNum
import Tabular.Sql.Statement

/-!
# Tabular.Proofs.Decimal.Exact — the text of a decimal, read back

A `Numeral` is what the text of a number says: a sign, and the digits on both sides of the point.  `whole` and
`fraction` are the digits that a decimal is written with (`magnitude_eq`), `ofChars_chars` reads them back.
Main statement: `literals_exact`, the literal of a decimal is a canonical numeral of just its value, with as
many digits after the point as its scale says.
-/

namespace Tabular.Scaled

/-! ### Numerals -/

/-- A decimal numeral: its sign, and its digits before and after the point. -/
structure Numeral where
  isNegative : Bool
  whole : List Char
  fraction : List Char

namespace Numeral

/-- Reads the digits on both sides of the first point. -/
def ofUnsigned (isNegative : Bool) (cs : List Char) : Numeral :=
  ⟨isNegative, cs.takeWhile (· ≠ '.'), (cs.dropWhile (· ≠ '.')).tail⟩

/-- Reads a numeral; a minus sign may come first. -/
def ofChars : List Char → Numeral
  | '-' :: cs => ofUnsigned true cs
  | cs => ofUnsigned false cs

/-- The number that a numeral stands for, each part counted by the places of its digits. -/
def value (n : Numeral) : ℚ :=
  (if n.isNegative then -1 else 1) *
    (Nat.ofDigitChars 10 n.whole 0 + Nat.ofDigitChars 10 n.fraction 0 / 10 ^ n.fraction.length)

/-- The digits of a numeral read as one number, as if there were no point. -/
def unscaled (n : Numeral) : Int :=
  let magnitude : Int := Nat.ofDigitChars 10 (n.whole ++ n.fraction) 0
  if n.isNegative then -magnitude else magnitude

/-- Whether a numeral has digits only, at least one before the point, and no zero in front of others. -/
structure Canonical (n : Numeral) : Prop where
  digits : ∀ c ∈ n.whole ++ n.fraction, c.isDigit = true
  whole_ne_nil : n.whole ≠ []
  leading : n.whole.head? = some '0' → n.whole = ['0']

end Numeral

/-! ### The digits of a decimal -/

theorem head?_toDigits {n : Nat} (hn : 0 < n) : (Nat.toDigits 10 n).head? ≠ some '0' := by
  induction n using Nat.strong_induction_on with
  | _ n ih =>
    rw [Nat.toDigits_eq_if (by decide)]
    split
    · rename_i hlt
      have hdigit : ∀ d < 10, 0 < d → d.digitChar ≠ '0' := by decide
      simpa using hdigit n hlt hn
    · have hrest := ih (n / 10) (by omega) (by omega)
      obtain ⟨c, cs, hcs⟩ := List.exists_cons_of_length_pos (Nat.length_toDigits_pos (b := 10) (n := n / 10))
      rw [hcs] at hrest ⊢
      exact hrest

/-- The digits of a magnitude, at least one more than stand after the point. -/
def digits (n scale : Nat) : List Char := padded (scale + 1) (Nat.toDigits 10 n)

/-- The digits before the point. -/
def whole (n scale : Nat) : List Char := (digits n scale).take ((digits n scale).length - scale)

/-- The digits after the point. -/
def fraction (n scale : Nat) : List Char := (digits n scale).drop ((digits n scale).length - scale)

section Digits

variable (n scale : Nat)

theorem length_digits : (digits n scale).length = max (scale + 1) (Nat.toDigits 10 n).length := by
  rw [digits, padded, List.length_append, List.length_replicate]
  omega

theorem isDigit_of_mem_digits {c : Char} (hc : c ∈ digits n scale) : c.isDigit = true := by
  rcases List.mem_append.1 hc with hc | hc
  · rw [List.eq_of_mem_replicate hc]
    decide
  · exact Nat.isDigit_of_mem_toDigits (by decide) (by decide) hc

theorem ofDigitChars_digits : Nat.ofDigitChars 10 (digits n scale) 0 = n := by
  rw [digits, padded, Nat.ofDigitChars_append, Nat.ofDigitChars_replicate_zero, Nat.mul_zero,
    Nat.ofDigitChars_ten_toDigits]

theorem whole_append_fraction : whole n scale ++ fraction n scale = digits n scale :=
  List.take_append_drop _ _

theorem length_fraction : (fraction n scale).length = scale := by
  rw [fraction, List.length_drop, length_digits]
  omega

theorem length_whole : (whole n scale).length = max 1 ((Nat.toDigits 10 n).length - scale) := by
  rw [whole, List.length_take, length_digits]
  omega

theorem whole_ne_nil : whole n scale ≠ [] := by
  rw [← List.length_pos_iff, length_whole]
  omega

/-- A zero comes first only if it is the whole part. -/
theorem whole_eq_of_head? (h : (whole n scale).head? = some '0') : whole n scale = ['0'] := by
  by_cases hlength : (whole n scale).length = 1
  · obtain ⟨c, hc⟩ := List.length_eq_one_iff.1 hlength
    rw [hc] at h ⊢
    simpa using h
  · -- with more than one digit there is no padding, so the first digit is that of `n`
    rw [length_whole] at hlength
    have hdigits : digits n scale = Nat.toDigits 10 n := by
      rw [digits, padded, Nat.sub_eq_zero_of_le (by omega)]
      rfl
    have hn : 0 < n := by
      rcases Nat.eq_zero_or_pos n with rfl | hn
      · simp at hlength
      · exact hn
    refine absurd ?_ (head?_toDigits hn)
    rw [← hdigits, ← whole_append_fraction, List.head?_append, h]
    rfl

theorem magnitude_eq : magnitude n scale = whole n scale ++ if scale = 0 then [] else '.' :: fraction n scale := by
  rw [magnitude]
  split
  · rename_i hscale
    have hpositive := Nat.length_toDigits_pos (b := 10) (n := n)
    rw [List.append_nil, whole, hscale, Nat.sub_zero, List.take_length, digits, padded,
      Nat.sub_eq_zero_of_le (by omega)]
    rfl
  · rfl

/-- The digits on both sides of the point are those of one number. -/
theorem ofDigitChars_whole :
    Nat.ofDigitChars 10 (whole n scale) 0 * 10 ^ scale + Nat.ofDigitChars 10 (fraction n scale) 0 = n := by
  have hall := ofDigitChars_digits n scale
  rw [← whole_append_fraction, Nat.ofDigitChars_append, Nat.ofDigitChars_eq_ofDigitChars_zero, length_fraction]
    at hall
  rw [Nat.mul_comm]
  exact hall

end Digits

/-! ### Reading a decimal back -/

section Reading

theorem isDigit_of_mem_whole {n scale : Nat} {c : Char} (hc : c ∈ whole n scale) : c.isDigit = true :=
  isDigit_of_mem_digits n scale (List.take_subset _ _ hc)

theorem ofUnsigned_magnitude (isNegative : Bool) (n scale : Nat) :
    Numeral.ofUnsigned isNegative (magnitude n scale) = ⟨isNegative, whole n scale, fraction n scale⟩ := by
  have hpoint : ∀ c ∈ whole n scale, decide (c ≠ '.') = true := by
    intro c hc
    rw [decide_eq_true_iff]
    rintro rfl
    exact absurd (isDigit_of_mem_whole hc) (by decide)
  rw [Numeral.ofUnsigned, magnitude_eq, List.takeWhile_append_of_pos hpoint, List.dropWhile_append_of_pos hpoint]
  split
  · rename_i hscale
    have hnil : fraction n scale = [] := List.eq_nil_of_length_eq_zero ((length_fraction n scale).trans hscale)
    rw [List.takeWhile_nil, List.append_nil, hnil]
    rfl
  · rw [List.takeWhile_cons_of_neg (by decide), List.append_nil, List.dropWhile_cons_of_neg (by decide)]
    rfl

variable (unscaled : Int) (scale : Nat)

/-- What the text of a decimal says. -/
def numeral : Numeral where
  isNegative := unscaled < 0
  whole := whole unscaled.natAbs scale
  fraction := fraction unscaled.natAbs scale

theorem ofChars_chars : Numeral.ofChars (chars unscaled scale) = numeral unscaled scale := by
  by_cases hneg : unscaled < 0
  · rw [chars, if_pos hneg, List.singleton_append, Numeral.ofChars, ofUnsigned_magnitude, numeral,
      decide_eq_true hneg]
  · obtain ⟨c, cs, hwhole⟩ := List.exists_cons_of_ne_nil (whole_ne_nil unscaled.natAbs scale)
    have hdigit : c.isDigit = true := isDigit_of_mem_whole (hwhole ▸ List.mem_cons_self)
    have hunsigned := ofUnsigned_magnitude false unscaled.natAbs scale
    rw [chars, if_neg hneg, List.nil_append, numeral, decide_eq_false hneg, ← hunsigned, magnitude_eq, hwhole,
      List.cons_append, Numeral.ofChars]
    rintro cs ⟨⟩
    exact absurd hdigit (by decide)

theorem canonical_numeral : (numeral unscaled scale).Canonical where
  digits c hc := by
    rw [numeral, whole_append_fraction] at hc
    exact isDigit_of_mem_digits _ _ hc
  whole_ne_nil := whole_ne_nil _ _
  leading := whole_eq_of_head? _ _

theorem unscaled_numeral : (numeral unscaled scale).unscaled = unscaled := by
  rw [Numeral.unscaled, numeral, whole_append_fraction, ofDigitChars_digits]
  simp only [decide_eq_true_eq]
  split <;> omega

theorem value_numeral : (numeral unscaled scale).value = unscaled * 10 ^ (-(scale : ℤ)) := by
  have hpower : (10 : ℚ) ^ scale ≠ 0 := pow_ne_zero scale (by norm_num)
  have hmagnitude : (Nat.ofDigitChars 10 (whole unscaled.natAbs scale) 0 +
      Nat.ofDigitChars 10 (fraction unscaled.natAbs scale) 0 / 10 ^ scale : ℚ) = unscaled.natAbs / 10 ^ scale := by
    rw [eq_div_iff hpower, add_mul, div_mul_cancel₀ _ hpower]
    exact_mod_cast ofDigitChars_whole unscaled.natAbs scale
  have hsign : ((if unscaled < 0 then -1 else 1) * unscaled.natAbs : ℚ) = unscaled := by
    split
    · rename_i hneg
      rw [neg_one_mul, Nat.cast_natAbs, abs_of_neg hneg, Int.cast_neg, neg_neg]
    · rename_i hneg
      rw [one_mul, Nat.cast_natAbs, abs_of_nonneg (not_lt.1 hneg)]
  rw [Numeral.value, numeral, length_fraction, hmagnitude, zpow_neg, zpow_natCast, ← div_eq_mul_inv]
  simp only [decide_eq_true_eq]
  rw [← mul_div_assoc, hsign]

end Reading

theorem toList_literal (unscaled : Int) (scale : Nat) :
    (Sql.render (Sql.literal (.decimal unscaled scale))).toList = chars unscaled scale := by
  simp [Sql.render, Sql.literal, Sql.Token.render, text, String.join]

/-- **The literal of a decimal is exact and canonical.**  Whatever the unscaled value and the scale, it is a
minus sign precisely if the value is negative, at least one digit and no zero in front of others, and precisely
if the scale is positive a point with as many digits after it.  Read as a decimal number it is
`unscaled · 10^(-scale)`; its digits and how many of them stand after the point give back both, so different
decimals have different literals. -/
theorem literals_exact (unscaled : Int) (scale : Nat) :
    let literal := Sql.render (Sql.literal (.decimal unscaled scale))
    let read := Numeral.ofChars literal.toList
    literal.toList = (if unscaled < 0 then ['-'] else []) ++ read.whole ++
        (if scale = 0 then [] else '.' :: read.fraction) ∧
      (read.isNegative = true ↔ unscaled < 0) ∧ read.Canonical ∧ read.fraction.length = scale ∧
      read.value = unscaled * 10 ^ (-(scale : ℤ)) ∧ read.unscaled = unscaled ∧
      ∀ unscaled' scale', Sql.render (Sql.literal (.decimal unscaled' scale')) = literal ↔
        unscaled' = unscaled ∧ scale' = scale := by
  intro literal read
  have hread : read = numeral unscaled scale := by
    rw [← ofChars_chars, ← toList_literal]
  rw [hread]
  refine ⟨?_, decide_eq_true_iff, canonical_numeral _ _, length_fraction _ _, value_numeral _ _,
    unscaled_numeral _ _, fun unscaled' scale' => ⟨fun h => ?_, ?_⟩⟩
  · rw [toList_literal, chars, magnitude_eq, List.append_assoc]
    rfl
  · have hnumeral : numeral unscaled' scale' = numeral unscaled scale := by
      rw [← ofChars_chars, ← toList_literal, h]
      exact hread
    constructor
    · rw [← unscaled_numeral unscaled' scale', hnumeral, unscaled_numeral]
    · have hlength := congrArg (fun n => n.fraction.length) hnumeral
      simpa [numeral, length_fraction] using hlength
  · rintro ⟨rfl, rfl⟩
    rfl

/-- The smallest number of 128 bits, with as many digits after the point as it has less one. -/
example : Sql.render (Sql.literal (.decimal (-2 ^ 127) 38)) = "-1.70141183460469231731687303715884105728" := by
  decide +kernel

end Tabular.Scaled
