import Std.Data.ExtTreeSet
import Tabular.Key

/-!
# Tabular.Transaction — snapshots and change sets

A `Transaction` is what the coordinator hands out at the start of a unit of work: the version of its
writes and the versions it may see.  A `ChangeSet` holds the rows that a transaction changed; two
transactions are in conflict if their change sets meet.
-/

namespace Tabular

open Std (TransOrd LawfulEqOrd OrientedCmp TransCmp LawfulEqCmp)

/-- A transaction and the versions it may see. -/
structure Transaction where
  /-- The version of its writes, by which it is known. -/
  writePointer : Nat
  /-- The latest version it may see besides its own, or `none` if there is no limit. -/
  readLimit : Option Nat
  /-- Versions up to the limit that it may not see. -/
  excluded : Std.ExtTreeSet Nat
deriving DecidableEq

instance : Inhabited Transaction := ⟨⟨0, none, ∅⟩⟩

namespace Transaction

/-- Whether a version is not beyond the read limit. -/
def reaches (tx : Transaction) (version : Nat) : Prop :=
  match tx.readLimit with
  | some limit => version ≤ limit
  | none => True

instance (tx : Transaction) (version : Nat) : Decidable (tx.reaches version) := by
  unfold reaches
  cases tx.readLimit <;> infer_instance

/-- Whether a transaction sees what was written at a version: its own writes, and those within its
snapshot. -/
def isVisible (tx : Transaction) (version : Nat) : Bool :=
  version = tx.writePointer || (tx.reaches version && !(version ∈ tx.excluded))

end Transaction

/-- A row that a transaction changed. -/
structure Change where
  table : String
  key : RowKey
deriving DecidableEq, Repr

namespace Change

/-- Compares by table first and by key second. -/
def order (a b : Change) : Ordering := (compare a.table b.table).then (compare a.key b.key)

instance : Ord Change := ⟨order⟩

instance : TransOrd Change :=
  inferInstanceAs (TransCmp (compareLex (compareOn Change.table) (compareOn Change.key)))

instance : LawfulEqOrd Change where
  eq_of_compare {a b} h := by
    cases a; cases b
    have h' := Ordering.then_eq_eq.1 h
    exact congr (congrArg _ (@LawfulEqCmp.eq_of_compare _ compare _ _ _ h'.1))
      (@LawfulEqCmp.eq_of_compare _ compare _ _ _ h'.2)

/-- How a change is shown. -/
def text (c : Change) : String := c.table ++ c.key.text

end Change

/-- The rows that a transaction changed. -/
abbrev ChangeSet := Std.ExtTreeSet Change

namespace ChangeSet

/-- Whether two change sets have a row in common. -/
def meets (a b : ChangeSet) : Bool := a.toList.any (· ∈ b)

theorem meets_eq_true_iff {a b : ChangeSet} : meets a b = true ↔ ∃ c, c ∈ a ∧ c ∈ b := by
  simp [meets, Std.ExtTreeSet.mem_toList]

end ChangeSet

end Tabular
