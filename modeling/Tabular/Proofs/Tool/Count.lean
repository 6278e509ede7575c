import Tabular.Proofs.Schema.Merge
import Tabular.Proofs.Work.Shelf
import Tabular.Tool.Run

/-!
# Tabular.Proofs.Tool.Count — counting on plain tables

`counting` is the read-modify-write that adds one to a counter; the tool's `increment` is the unit of work
of that one step.  Main statement: `count_performAll`, increments one after another add up.
-/

namespace Tabular

namespace Tool

def counterKey (name : String) : RowKey := ⟨[.string name]⟩

/-- The value of a counter on a shelf; a counter that has no row is at 0. -/
def count (shelf : Shelf) (name : String) : Int64 :=
  ((shelf.row? ⟨"counters", counterKey name⟩).bind counted).getD 0

/-- The row that is upserted to add one to a counter with the given row. -/
def successor (name : String) (row : Option Row) : Row :=
  .ofCells [("name", .string name), ("value", .long ((row.bind counted).getD 0 + 1))]

/-- The read-modify-write that adds one to a counter. -/
def counting (name : String) : ReadModifyWrite where
  table := "counters"
  key := [.string name]
  change row := some (successor name row)

theorem all_counting {m : Type → Type u} (name : String) :
    (ReadModifyWrite.all [counting name] : Work m Unit) = increment name :=
  Work.andThen_done (counting name).work

variable {name other : String} {row : Option Row} {merged : Row} {schemas : Schemas}
  {shelf shelf' : Shelf}

theorem counted_of_value {row : Row} {value : Int64} (h : row["value"]? = some (.long value)) :
    counted row = some value := by
  rw [counted, h]
  rfl

theorem keyFromValues_counters : counters.keyFromValues [.string name] = .ok (counterKey name) := rfl

theorem keyOf_successor : counters.keyOf (successor name row) = .ok (counterKey name) := by
  have hname : (successor name row)["name"]? = some (.string name) := by
    rw [successor, Row.ofCells, List.foldl_cons, List.foldl_cons, List.foldl_nil,
      Std.ExtTreeMap.getElem?_insert, if_neg (by simp), Std.ExtTreeMap.getElem?_insert_self]
  have hpart : counters.keyPartOf (successor name row) "name" = .ok (.string name) := by
    rw [TableSchema.keyPartOf, hname]
    rfl
  have hkey : ["name"].mapM (counters.keyPartOf (successor name row)) = .ok [.string name] := by
    rw [List.mapM_cons, hpart]
    rfl
  rw [TableSchema.keyOf]
  exact congrArg (fun parts => counters.reportRow (RowKey.mk <$> parts)) hkey

/-- Adding one to a counter leaves a row that counts one more. -/
theorem counted_of_mergeRow (h : counters.mergeRow row (successor name row) = .ok merged) :
    counted merged = some ((row.bind counted).getD 0 + 1) := by
  have hvalue : (successor name row)["value"]? = some (.long ((row.bind counted).getD 0 + 1)) := by
    rw [successor, Row.ofCells, List.foldl_cons, List.foldl_cons, List.foldl_nil,
      Std.ExtTreeMap.getElem?_insert_self]
  rw [TableSchema.eq_of_mergeRow h]
  cases row with
  | none => exact counted_of_value hvalue
  | some current => exact counted_of_value (Row.getElem?_overlay hvalue)

theorem fits_counting (hschema : schemas "counters" = some ⟨counters, rfl⟩) :
    (counting name).Fits schemas := by
  intro schema hschema' row new key hchange hkey
  cases Option.some.inj (hschema.symm.trans hschema')
  cases hchange
  rw [keyOf_successor] at hkey
  exact hkey

theorem perform_increment (hschema : schemas "counters" = some ⟨counters, rfl⟩) :
    ((increment name).perform (Shelf.tables schemas)).run shelf =
      match counters.mergeRow (shelf.row? ⟨"counters", counterKey name⟩)
        (successor name (shelf.row? ⟨"counters", counterKey name⟩)) with
      | .ok merged => (.ok (), shelf.change ⟨"counters", counterKey name⟩ (some merged))
      | .error e => (.error (.error e), shelf) := by
  rw [increment, Work.perform_andThen, Work.perform_call, Shelf.tables_read hschema keyFromValues_counters]
  show ((Work.call (.upsert "counters" (successor name _))).perform _).run shelf = _
  rw [Work.perform_call, Shelf.tables_upsert hschema keyOf_successor]
  cases counters.mergeRow (shelf.row? ⟨"counters", counterKey name⟩)
    (successor name (shelf.row? ⟨"counters", counterKey name⟩)) <;> rfl

/-- An increment adds one to its counter and nothing to the others. -/
theorem count_perform (hschema : schemas "counters" = some ⟨counters, rfl⟩)
    (h : shelf.perform schemas (increment name) = .ok shelf') :
    count shelf' other = count shelf other + if name = other then 1 else 0 := by
  rw [Shelf.perform, perform_increment hschema] at h
  cases hmerge : counters.mergeRow (shelf.row? ⟨"counters", counterKey name⟩)
      (successor name (shelf.row? ⟨"counters", counterKey name⟩)) with
  | error e =>
    rw [hmerge] at h
    cases h
  | ok merged =>
    rw [hmerge] at h
    cases h
    rw [count, count, Shelf.row?_change]
    by_cases hname : name = other
    · subst hname
      rw [if_pos rfl, Function.update_self, Option.bind_some, counted_of_mergeRow hmerge, Option.getD_some]
    · have hne : (⟨"counters", counterKey other⟩ : Change) ≠ ⟨"counters", counterKey name⟩ := by
        rintro ⟨⟩
        exact hname rfl
      rw [if_neg hname, Function.update_of_ne hne, Int64.add_zero]

/-- Increments one after another add up. -/
theorem count_performAll (hschema : schemas "counters" = some ⟨counters, rfl⟩) {names : List String}
    (h : shelf.performAll schemas (names.map increment) = .ok shelf') :
    count shelf' other = count shelf other + Int64.ofNat (names.count other) := by
  induction names generalizing shelf with
  | nil =>
    cases h
    exact (Int64.add_zero _).symm
  | cons name names ih =>
    rw [List.map_cons, Shelf.performAll, List.foldlM_cons] at h
    cases hfirst : shelf.perform schemas (increment name) with
    | error failure =>
      rw [hfirst] at h
      cases h
    | ok next =>
      rw [hfirst] at h
      rw [ih h, count_perform hschema hfirst, List.count_cons, Int64.add_assoc, Int64.ofNat_add,
        Int64.add_comm (Int64.ofNat _)]
      by_cases hname : name = other
      · rw [if_pos hname, if_pos (beq_iff_eq.2 hname)]
        rfl
      · rw [if_neg hname, if_neg (mt beq_iff_eq.1 hname)]
        rfl

end Tool

end Tabular
