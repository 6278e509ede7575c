import Tabular.Coordinator.Call

/-!
# Tabular.Coordinator.Permissive — the coordinator that accepts every commit

It hands out ever greater write pointers; every transaction sees every version.  It keeps no record of
transactions, so it never fails and never finds a conflict.
-/

namespace Tabular

/-- The state of a permissive coordinator. -/
structure PermissiveCoordinator where
  begun : Nat := 0

namespace PermissiveCoordinator

instance : Inhabited PermissiveCoordinator := ⟨{ }⟩

/-- The effect of a call.  All sessions are alike. -/
def perform (s : PermissiveCoordinator) : (call : CoordinatorCall) → call.Answer × PermissiveCoordinator
  | .connect => (0, s)
  | .begin _ => ({ writePointer := s.begun + 1, readLimit := none, excluded := ∅ }, ⟨s.begun + 1⟩)
  | .canCommit _ _ _ => (true, s)
  | .commit _ _ => (true, s)
  | .abort _ _ => ((), s)
  | .invalidate _ _ => (true, s)

end PermissiveCoordinator

end Tabular
