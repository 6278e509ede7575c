import Tabular.Error
import Tabular.Row

/-!
# Tabular.Bench.Answer — what the steps of a scenario answer

Each step of a scenario answers one of these values or an error.
-/

namespace Tabular.Bench

/-- The value of a step. -/
inductive Answer where
  | nothing
  | truth (value : Bool)
  | number (value : Nat)
  | text (value : String)
  | texts (values : List String)
  | row (value : Option Row)
  | rows (values : List Row)
  /-- What a unit of work answered step by step, and how its execution ended. -/
  | run (steps : List (Except StoreError Answer)) (result : Except StoreError Nat)
deriving Inhabited

/-- An answer or the error in its place. -/
abbrev Reply := Except StoreError Answer

end Tabular.Bench
