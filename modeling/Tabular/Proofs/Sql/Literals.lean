import Mathlib.Data.Nat.Digits.Defs
import Tabular.Proofs.Sql.Reading
import Tabular.Sql.Statement

/-!
# Tabular.Proofs.Sql.Literals — what a statement quotes, and the outline around it

The `quotes` of a statement are its quoted tokens in order, its `outline` is the statement with nothing in its
quotes.  A literal either quotes what it stands for or is written without quotes: no text of a number has a
quote in it (`unquoted_int`, `unquoted_scaled`, `unquoted_float`).  Main statements: `readable_literal`,
`quotes_literal` and `outline_literal`, and the same for lists of names.
-/

namespace Tabular.Sql

/-! ### The texts of numbers -/

section Numbers

variable {cs ds : List Char}

theorem unquoted_cons {c : Char} : Unquoted (c :: cs) ↔ (c ≠ '"' ∧ c ≠ '\x27') ∧ Unquoted cs :=
  List.forall_mem_cons

theorem unquoted_append : Unquoted (cs ++ ds) ↔ Unquoted cs ∧ Unquoted ds := List.forall_mem_append

theorem Unquoted.of_subset (hds : Unquoted ds) (hsubset : cs ⊆ ds) : Unquoted cs :=
  fun c hc => hds c (hsubset hc)

theorem unquoted_replicate {c : Char} (hc : Unquoted [c]) (n : Nat) : Unquoted (List.replicate n c) :=
  hc.of_subset (List.replicate_subset_singleton n c)

theorem unquoted_toDigits (n : Nat) : Unquoted (Nat.toDigits 10 n) := by
  intro c hc
  have hdigit : c.isDigit := Nat.isDigit_of_mem_toDigits (by decide) (by decide) hc
  constructor <;> rintro rfl <;> exact absurd hdigit (by decide)

theorem unquoted_int (i : Int) : Unquoted (toString i).toList := by
  cases i with
  | ofNat n =>
    rw [show toString (Int.ofNat n) = n.repr from rfl, Nat.toList_repr]
    exact unquoted_toDigits n
  | negSucc n =>
    rw [show toString (Int.negSucc n) = "-" ++ (n + 1).repr from rfl, String.toList_append, Nat.toList_repr]
    exact unquoted_append.2 ⟨by decide, unquoted_toDigits (n + 1)⟩

theorem unquoted_magnitude (n scale : Nat) : Unquoted (Scaled.magnitude n scale) := by
  rw [Scaled.magnitude]
  split
  · exact unquoted_toDigits n
  · have hdigits : Unquoted (Scaled.padded (scale + 1) (Nat.toDigits 10 n)) :=
      unquoted_append.2 ⟨unquoted_replicate (by decide) _, unquoted_toDigits n⟩
    exact unquoted_append.2 ⟨hdigits.of_subset (List.take_subset ..),
      unquoted_cons.2 ⟨by decide, hdigits.of_subset (List.drop_subset ..)⟩⟩

theorem unquoted_scaled (unscaled : Int) (scale : Nat) : Unquoted (Scaled.text unscaled scale).toList := by
  rw [Scaled.text, String.toList_ofList, Scaled.chars]
  refine unquoted_append.2 ⟨?_, unquoted_magnitude _ _⟩
  split <;> decide

theorem unquoted_point (p : Shortest.Point) : Unquoted p.text.toList := by
  rw [Shortest.Point.text]
  split <;> exact unquoted_scaled _ _

theorem unquoted_float (f : Shortest.Layout) (bits : Nat) : Unquoted (Shortest.text f bits).toList := by
  have hsign : Unquoted (if f.isNegative bits then "-" else "").toList := by
    split <;> decide
  rw [Shortest.text]
  split
  · decide
  all_goals
    rw [String.toList_append]
    refine unquoted_append.2 ⟨hsign, ?_⟩
  · decide
  · decide
  · exact unquoted_point _

end Numbers

/-! ### Quotes and outlines -/

/-- Whether a token stands in quotes. -/
def Token.isQuoted (token : Token) : Bool := token.quote?.isSome

/-- A token with nothing in its quotes. -/
def Token.blank : Token → Token
  | plain raw => .plain raw
  | identifier _ => .identifier ""
  | text _ => .text ""

/-- The quoted tokens of a statement, in order. -/
def quotes (statement : Statement) : List Token := statement.filter Token.isQuoted

/-- A statement with nothing in its quotes. -/
def outline (statement : Statement) : Statement := statement.map Token.blank

section Tokens

variable (raw name : String) (statement after : Statement)

@[simp] theorem quotes_nil : quotes [] = [] := rfl

@[simp] theorem quotes_plain : quotes (.plain raw :: after) = quotes after := rfl

@[simp] theorem quotes_identifier : quotes (.identifier name :: after) = .identifier name :: quotes after := rfl

@[simp] theorem quotes_append : quotes (statement ++ after) = quotes statement ++ quotes after :=
  List.filter_append ..

@[simp] theorem outline_nil : outline [] = [] := rfl

@[simp] theorem outline_plain : outline (.plain raw :: after) = .plain raw :: outline after := rfl

@[simp] theorem outline_identifier :
    outline (.identifier name :: after) = .identifier "" :: outline after := rfl

@[simp] theorem outline_append : outline (statement ++ after) = outline statement ++ outline after :=
  List.map_append

/-- Reading a plain token character by character neither adds quotes nor loses any. -/
theorem quotes_spelled : quotes (statement.flatMap Token.spelled) = quotes statement := by
  induction statement with
  | nil => rfl
  | cons token statement ih =>
    rw [List.flatMap_cons, quotes_append, ih]
    cases token with
    | plain raw =>
      have hplain : quotes (Token.spelled (.plain raw)) = [] := by
        simp [quotes, Token.spelled, Token.isQuoted, Token.quote?]
      rw [hplain, quotes_plain, List.nil_append]
    | identifier name => rfl
    | text content => rfl

theorem outline_spelled :
    outline (statement.flatMap Token.spelled) = (outline statement).flatMap Token.spelled := by
  induction statement with
  | nil => rfl
  | cons token statement ih =>
    rw [List.flatMap_cons, outline_append, ih]
    cases token with
    | plain raw =>
      have hplain : outline (Token.spelled (.plain raw)) = Token.spelled (.plain raw) := by
        simp [outline, Token.spelled, Token.blank]
      rw [hplain, outline_plain, List.flatMap_cons]
    | identifier name => rfl
    | text content => rfl

end Tokens

section Groups

variable (separator : String)

@[simp] theorem quotes_separated (groups : List Statement) :
    quotes (separated separator groups) = groups.flatMap quotes := by
  induction groups with
  | nil => rfl
  | cons group groups ih =>
    cases groups with
    | nil => rw [separated_singleton, List.flatMap_singleton]
    | cons next groups => rw [separated_cons_cons, quotes_append, quotes_plain, ih, List.flatMap_cons (x := group)]

@[simp] theorem outline_separated (groups : List Statement) :
    outline (separated separator groups) = separated separator (groups.map outline) := by
  induction groups with
  | nil => rfl
  | cons group groups ih =>
    cases groups with
    | nil => rw [separated_singleton, List.map_singleton, separated_singleton]
    | cons next groups =>
      rw [separated_cons_cons, outline_append, outline_plain, ih]
      simp only [List.map_cons, separated_cons_cons]

end Groups

/-! ### Names and literals -/

theorem readable_names (columns : List String) : Readable (names columns) :=
  .separated_map (by decide) fun _ => .singleton trivial

@[simp] theorem quotes_names (columns : List String) : quotes (names columns) = columns.map .identifier := by
  simp [names, List.flatMap_map, ← List.map_eq_flatMap]

/-- The outline of a list of names tells no more than how many they are. -/
theorem outline_names (columns : List String) :
    outline (names columns) = separated ", " (List.replicate columns.length [.identifier ""]) := by
  simp [names, Function.comp_def]

/-- The token in quotes that a value is written as, if its literal has one. -/
def quotedValue : Value → List Token
  | .string v => [.text v]
  | .bytes v => [.text ("\\x" ++ Hex.ofBytes v)]
  | _ => []

/-- A value as far as the outline of its literal tells it: no strings and no bytes. -/
def blankValue : Value → Value
  | .string _ => .string ""
  | .bytes _ => .bytes []
  | v => v

theorem readable_literal (v : Value) : Readable (literal v) := by
  have hplain {raw : String} (hraw : Unquoted raw.toList) : Readable [.plain raw] := .plain hraw .nil
  cases v with
  | null => exact hplain (by decide)
  | integer v => exact hplain (unquoted_int _)
  | long v => exact hplain (unquoted_int _)
  | float bits => exact hplain (unquoted_float _ _)
  | double bits => exact hplain (unquoted_float _ _)
  | boolean v => cases v <;> exact hplain (by decide)
  | string v => exact .singleton trivial
  | bytes v =>
    have hquoted : Readable [.text ("\\x" ++ Hex.ofBytes v)] := .singleton trivial
    exact hquoted.join (by decide) .nil
  | decimal unscaled scale => exact hplain (unquoted_scaled _ _)

@[simp] theorem quotes_literal (v : Value) : quotes (literal v) = quotedValue v := by
  cases v with
  | boolean v => cases v <;> rfl
  | _ => rfl

theorem outline_literal (v : Value) : outline (literal v) = outline (literal (blankValue v)) := by
  cases v <;> rfl

end Tabular.Sql
