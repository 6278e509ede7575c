import Mathlib.Data.Set.Card
import Mathlib.Logic.Function.Basic
import Tabular.Proofs.Interaction.Sharing

/-!
# Tabular.Proofs.Interaction.Underway — programs that are under way

Several users around a cell may each be in the middle of a program.  Main definitions: `Underway`, who is
in the middle of what, and `Underway.Has`, how many are at a place that a predicate describes.
-/

namespace Tabular.Sharing

variable {ι σ Call : Type} {Reply : Call → Type} {α : Type}

/-- The program that each user is in the middle of, with the steps it has taken, the latest first. -/
abbrev Underway (ι σ : Type) {Call : Type} (Reply : Call → Type) (α : Type) : Type 1 :=
  ι → Option (List (Step σ Reply) × Program σ Reply α)

namespace Underway

/-- Nobody is in the middle of a program. -/
def nobody : Underway ι σ Reply α := fun _ => none

variable (u : Underway ι σ Reply α)

/-- Whether a user is in the middle of a program, at a place that the predicate holds of. -/
def At (place : List (Step σ Reply) → Program σ Reply α → Prop) (i : ι) : Prop :=
  ∃ steps p, u i = some (steps, p) ∧ place steps p

/-- Whether a user is in the middle of a program of which a step was taken. -/
abbrev Begun : ι → Prop := u.At fun steps _ => steps ≠ []

variable [DecidableEq ι]

/-- The programs once a user is in the middle of another place. -/
def put (i : ι) (steps : List (Step σ Reply)) (p : Program σ Reply α) : Underway ι σ Reply α :=
  Function.update u i (some (steps, p))

/-- The programs once that of a user has ended. -/
def finish (i : ι) : Underway ι σ Reply α := Function.update u i none

variable {u} {place : List (Step σ Reply) → Program σ Reply α → Prop} {i j : ι}
  {steps : List (Step σ Reply)} {p : Program σ Reply α}

omit [DecidableEq ι] in
theorem at_iff (h : u i = some (steps, p)) : u.At place i ↔ place steps p := by
  constructor
  · rintro ⟨steps', p', hi, hplace⟩
    rw [h] at hi
    cases hi
    exact hplace
  · exact fun hplace => ⟨steps, p, h, hplace⟩

omit [DecidableEq ι] in
theorem not_at_of_none (h : u i = none) : ¬ u.At place i := by
  rintro ⟨steps, p, hi, -⟩
  rw [h] at hi
  cases hi

theorem put_self : u.put i steps p i = some (steps, p) := Function.update_self ..

theorem put_of_ne (h : j ≠ i) : u.put i steps p j = u j := Function.update_of_ne h ..

theorem finish_self : u.finish i i = none := Function.update_self ..

theorem finish_of_ne (h : j ≠ i) : u.finish i j = u j := Function.update_of_ne h ..

theorem eq_of_put_ne (h : u.put i steps p j ≠ u j) : j = i := by_contra fun hne => h (put_of_ne hne)

theorem eq_of_finish_ne (h : u.finish i j ≠ u j) : j = i := by_contra fun hne => h (finish_of_ne hne)

theorem at_put_self : (u.put i steps p).At place i ↔ place steps p := at_iff put_self

theorem at_put_of_ne (h : j ≠ i) : (u.put i steps p).At place j ↔ u.At place j := by
  rw [At, put_of_ne h, At]

theorem at_finish : (u.finish i).At place j ↔ j ≠ i ∧ u.At place j := by
  by_cases h : j = i
  · subst h
    simp [not_at_of_none finish_self]
  · rw [At, finish_of_ne h, and_iff_right h, At]

/-! ### Where everybody is -/

/-- Whether everybody is at a place that the predicate holds of. -/
def All (u : Underway ι σ Reply α) (place : ι → List (Step σ Reply) → Program σ Reply α → Prop) : Prop :=
  ∀ i steps p, u i = some (steps, p) → place i steps p

section All

variable {place : ι → List (Step σ Reply) → Program σ Reply α → Prop}

theorem All.put (h : u.All place) (hplace : place i steps p) : (u.put i steps p).All place := by
  intro j steps' p' hj
  by_cases hji : j = i
  · subst hji
    rw [put_self] at hj
    cases hj
    exact hplace
  · rw [put_of_ne hji] at hj
    exact h j steps' p' hj

theorem All.finish (h : u.All place) : (u.finish i).All place := by
  intro j steps p hj
  by_cases hji : j = i
  · subst hji
    rw [finish_self] at hj
    cases hj
  · rw [finish_of_ne hji] at hj
    exact h j steps p hj

end All

/-! ### How many are at a place -/

/-- Whether just so many users are at a place that the predicate holds of. -/
def Has (u : Underway ι σ Reply α) (place : List (Step σ Reply) → Program σ Reply α → Prop) (n : Nat) :
    Prop :=
  ∃ users : Finset ι, (∀ i, i ∈ users ↔ u.At place i) ∧ users.card = n

namespace Has

variable {n : Nat}

omit [DecidableEq ι] in
theorem encard_eq (h : u.Has place n) : {i | u.At place i}.encard = n := by
  obtain ⟨users, husers, rfl⟩ := h
  have hset : {i | u.At place i} = ↑users := Set.ext fun i => (husers i).symm
  rw [hset, Set.encard_coe_eq_coe_finsetCard]

omit [DecidableEq ι] in
theorem nobody : (nobody : Underway ι σ Reply α).Has place 0 :=
  ⟨∅, fun _ => iff_of_false (Finset.notMem_empty _) (not_at_of_none rfl), rfl⟩

omit [DecidableEq ι] in
theorem pos (h : u.Has place n) (hi : u.At place i) : 0 < n := by
  obtain ⟨users, husers, rfl⟩ := h
  exact Finset.card_pos.2 ⟨i, (husers i).2 hi⟩

theorem enter (h : u.Has place n) (hi : ¬ u.At place i) (hplace : place steps p) :
    (u.put i steps p).Has place (n + 1) := by
  obtain ⟨users, husers, rfl⟩ := h
  refine ⟨insert i users, fun j => ?_, Finset.card_insert_of_notMem ((husers i).not.2 hi)⟩
  by_cases hji : j = i
  · subst hji
    simp [at_put_self, hplace]
  · rw [Finset.mem_insert, or_iff_right hji, husers j, at_put_of_ne hji]

theorem stay (h : u.Has place n) (hplace : u.At place i ↔ place steps p) :
    (u.put i steps p).Has place n := by
  obtain ⟨users, husers, hcard⟩ := h
  refine ⟨users, fun j => ?_, hcard⟩
  rw [husers j]
  by_cases hji : j = i
  · subst hji
    rw [hplace, at_put_self]
  · rw [at_put_of_ne hji]

theorem leave (h : u.Has place n) (hi : u.At place i) : (u.finish i).Has place (n - 1) := by
  obtain ⟨users, husers, rfl⟩ := h
  refine ⟨users.erase i, fun j => ?_, Finset.card_erase_of_mem ((husers i).2 hi)⟩
  rw [Finset.mem_erase, at_finish, husers j]

theorem finish (h : u.Has place n) (hi : ¬ u.At place i) : (u.finish i).Has place n := by
  obtain ⟨users, husers, hcard⟩ := h
  refine ⟨users, fun j => ?_, hcard⟩
  rw [husers j, at_finish]
  exact ⟨fun hj => ⟨fun hji => hi (hji ▸ hj), hj⟩, And.right⟩

end Has

end Underway

end Tabular.Sharing
