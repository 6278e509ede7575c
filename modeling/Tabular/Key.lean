import Std.Data.ExtTreeMap
import Tabular.Text.Hex
import Tabular.Value

/-!
# Tabular.Key — primary keys and their order

A `RowKey` lists the parts of a primary key in key-column order.  Parts of different kinds are ordered
integer, long, string, bytes; parts of one kind by their content; keys lexicographically.  The order is
linear (`Std.TransOrd`, `Std.LawfulEqOrd`), which is what ordered maps keyed by `RowKey` rest on.
-/

namespace Tabular

open Std (TransOrd LawfulEqOrd OrientedCmp TransCmp LawfulEqCmp ReflCmp)

/-- One component of a primary key. -/
inductive KeyPart where
  | integer (v : Int32)
  | long (v : Int64)
  | string (v : String)
  | bytes (v : List UInt8)
deriving DecidableEq, Repr, Inhabited

namespace KeyPart

/-- The key part of a value, if its type may stand in a key and it is not null. -/
def ofValue? : Value → Option KeyPart
  | .integer v => some (integer v)
  | .long v => some (long v)
  | .string v => some (string v)
  | .bytes v => some (bytes v)
  | _ => none

/-- The value a key part stands for. -/
def toValue : KeyPart → Value
  | integer v => .integer v
  | long v => .long v
  | string v => .string v
  | bytes v => .bytes v

theorem toValue_of_ofValue? {v : Value} {p : KeyPart} (h : ofValue? v = some p) : p.toValue = v := by
  cases v <;> simp [ofValue?] at h <;> subst h <;> rfl

/-- The position of the kind of a part in the order of kinds. -/
def rank : KeyPart → Nat
  | integer _ => 0
  | long _ => 1
  | string _ => 2
  | bytes _ => 3

/-- Compares by kind first and by content second. -/
def order : KeyPart → KeyPart → Ordering
  | integer a, integer b => compare a b
  | long a, long b => compare a b
  | string a, string b => compare a b
  | bytes a, bytes b => compare a b
  | a, b => compare a.rank b.rank

instance : Ord KeyPart := ⟨order⟩

/-- How a part is shown inside a key. -/
def text : KeyPart → String
  | integer v => toString v.toInt
  | long v => toString v.toInt
  | string v => s!"'{v}'"
  | bytes v => "0x" ++ Hex.ofBytes v

theorem order_swap (a b : KeyPart) : order a b = (order b a).swap := by
  cases a <;> cases b <;> exact @OrientedCmp.eq_swap _ compare _ _ _

theorem order_isLE_trans {a b c : KeyPart} (hab : (order a b).isLE) (hbc : (order b c).isLE) :
    (order a c).isLE := by
  cases a <;> cases b <;> cases c <;>
    first
    | exact @TransCmp.isLE_trans _ compare _ _ _ _ hab hbc
    | rfl
    | exact (Bool.false_ne_true hab).elim
    | exact (Bool.false_ne_true hbc).elim

theorem eq_of_order {a b : KeyPart} (h : order a b = .eq) : a = b := by
  cases a <;> cases b <;>
    first
    | exact congrArg _ (@LawfulEqCmp.eq_of_compare _ compare _ _ _ h)
    | exact nomatch (show Ordering.lt = .eq from h)
    | exact nomatch (show Ordering.gt = .eq from h)

instance : TransOrd KeyPart where
  eq_swap := order_swap _ _
  isLE_trans := order_isLE_trans

instance : LawfulEqOrd KeyPart where
  eq_of_compare := eq_of_order

end KeyPart

/-- The primary key of a row, in key-column order. -/
structure RowKey where
  parts : List KeyPart
deriving DecidableEq, Repr, Inhabited

namespace RowKey

instance : Ord RowKey := ⟨fun a b => compare a.parts b.parts⟩

instance : TransOrd RowKey where
  eq_swap {a b} := @OrientedCmp.eq_swap (List KeyPart) compare _ a.parts b.parts
  isLE_trans {a b c} := @TransCmp.isLE_trans (List KeyPart) compare _ a.parts b.parts c.parts

instance : LawfulEqOrd RowKey where
  eq_of_compare {a b} h := by
    cases a; cases b
    exact congrArg _ (@LawfulEqCmp.eq_of_compare (List KeyPart) compare _ _ _ h)

/-- How a key is shown: its parts in parentheses. -/
def text (key : RowKey) : String := "(" ++ ", ".intercalate (key.parts.map KeyPart.text) ++ ")"

instance : ToString RowKey := ⟨text⟩

end RowKey

end Tabular
