import Tabular.Attempt
import Tabular.Row
import Tabular.Transaction

/-!
# Tabular.Versioned.Call — what a versioned store is asked

A versioned store keeps every version of a row that was written, and beside its tables a small map of
texts, the metadata.  Whoever performs calls is a `VersionedAccess`.
-/

namespace Tabular

/-- A call to a versioned store. -/
inductive VersionedCall where
  | createTable (table : String)
  | dropTable (table : String)
  | tableExists (table : String)
  /-- The newest version of a row that a transaction sees. -/
  | read (table : String) (key : RowKey) (tx : Transaction)
  /-- All rows that a transaction sees, in key order. -/
  | scan (table : String) (tx : Transaction)
  /-- Writes one version of a row; without a row it marks the key as deleted. -/
  | write (table : String) (key : RowKey) (version : Nat) (cell : Option Row)
  | undo (table : String) (key : RowKey) (version : Nat)
  | metadataGet (key : String)
  /-- Adds an entry unless the key is there, and answers whether it did. -/
  | metadataAdd (key value : String)
  /-- Removes an entry and answers whether it was there. -/
  | metadataDelete (key : String)
  | metadataKeys (start : String)

/-- What a call answers. -/
abbrev VersionedCall.Answer : VersionedCall → Type
  | createTable _ => Unit
  | dropTable _ => Unit
  | tableExists _ => Bool
  | read _ _ _ => Option Row
  | scan _ _ => List (RowKey × Row)
  | write _ _ _ _ => Unit
  | undo _ _ _ => Unit
  | metadataGet _ => Option String
  | metadataAdd _ _ => Bool
  | metadataDelete _ => Bool
  | metadataKeys _ => List String

/-- A way to perform calls to a versioned store. -/
abbrev VersionedAccess (m : Type → Type u) := (call : VersionedCall) → Attempt m call.Answer

end Tabular
