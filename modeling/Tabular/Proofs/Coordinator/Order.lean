import Tabular.Proofs.Coordinator.History

/-!
# Tabular.Proofs.Coordinator.Order — the order of commits

What two transactions that committed tell of each other in an orderly log.  Main statements:
`Orderly.disjoint`, if each began before the other's commit they changed no row in common, and
`Orderly.lt_of_meets`, if they did change a row in common the one that committed later has the larger
write pointer.
-/

namespace Tabular.Coordinator.Log

variable {log later between earlier : Log} {a b : Reply} {p q : Nat}

theorem began_append : Began p (later ++ log) ↔ Began p later ∨ Began p log := by
  simp only [Began, List.mem_append, or_and_right, exists_or]

namespace Orderly

/-- What a transaction has announced does not change any more when it commits. -/
theorem recorded_eq (h : Orderly log) (hlog : log = later ++ a :: earlier) (ha : a.fact = .committed p) :
    recorded p log = recorded p earlier := by
  subst hlog
  induction later with
  | nil => exact recorded_cons_of_ne (by simp [ha])
  | cons r later ih =>
    rw [← ih h.1, List.cons_append, recorded_cons_of_ne]
    intro changes hr
    have hnot := h.2
    rw [hr] at hnot
    exact hnot ⟨a, List.mem_append_right _ List.mem_cons_self, ha⟩

/-- Two transactions that both committed, each having begun before the other's commit, changed no row in
common. -/
theorem disjoint (h : Orderly log) (hlog : log = later ++ b :: (between ++ a :: earlier))
    (ha : a.fact = .committed p) (hb : b.fact = .committed q) (hbegan : Began q earlier) :
    ChangeSet.meets (recorded p earlier) (recorded q (between ++ a :: earlier)) = false := by
  subst hlog
  have h := h.of_append
  have hclear := h.2
  rw [hb] at hclear
  have hbetween : ¬ Began q between := by
    have hbegan' : Began q (a :: earlier) := began_cons.2 (.inr hbegan)
    exact h.1.not_began hbegan'
  exact hclear.2.2 _ (mem_commitsSince ha hbetween)

/-- What two transactions have announced that both committed, each having begun before the other's
commit, has no row in common. -/
theorem disjoint_recorded (h : Orderly log) (hlog : log = later ++ b :: (between ++ a :: earlier))
    (ha : a.fact = .committed p) (hb : b.fact = .committed q) (hbegan : Began q earlier) :
    ChangeSet.meets (recorded p log) (recorded q log) = false := by
  have hlog' : log = (later ++ b :: between) ++ a :: earlier := by simp [hlog]
  rw [h.recorded_eq hlog' ha, h.recorded_eq hlog hb]
  exact h.disjoint hlog ha hb hbegan

/-- Of two transactions that committed a change of the same row, the later one has the larger write
pointer. -/
theorem lt_of_meets (h : Orderly log) (hlog : log = later ++ b :: (between ++ a :: earlier))
    (ha : a.fact = .committed p) (hb : b.fact = .committed q)
    (hmeets : ChangeSet.meets (recorded p log) (recorded q log) = true) : p < q := by
  have hdisjoint := h.disjoint_recorded hlog ha hb
  rw [hmeets] at hdisjoint
  subst hlog
  have h := h.of_append
  have hfits := h.2
  rw [hb] at hfits
  rcases began_append.1 hfits.1 with ⟨r, hmem, hr⟩ | hbegan
  · -- the later one began after the commit of the earlier one
    obtain ⟨between', before, rfl⟩ := List.append_of_mem hmem
    have hbefore : Orderly (r :: (before ++ a :: earlier)) := by
      have hall := h.1
      rw [List.append_assoc] at hall
      exact hall.of_append
    have hnew := hbefore.2
    rw [hr] at hnew
    have hearlier := hbefore.1.of_append.2
    rw [ha] at hearlier
    exact hnew p (began_append.2 (.inr (began_cons.2 (.inr hearlier.1))))
  · rcases began_cons.1 hbegan with hr | hbegan
    · rw [ha] at hr
      cases hr
    · cases hdisjoint hbegan

end Orderly

end Tabular.Coordinator.Log
