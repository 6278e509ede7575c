import Tabular.Schema.Basic

/-!
# Tabular.Proofs.Schema.Merge — what a merge leaves of an update

A merged row has the cells of the update, those of the row it is laid over elsewhere.  Main statement:
`keyOf_mergeRow`, a merged row has the key of the update.
-/

namespace Tabular

/-- A column of an overlaid row has its value in the update, or else in the row underneath. -/
theorem Row.getElem?_overlay_eq_or (base update : Row) (column : String) :
    (base.overlay update)[column]? = update[column]?.or base[column]? := by
  have hoverlay : base.overlay update = base.insertMany update.toList := by
    rw [overlay, Std.ExtTreeMap.foldl_eq_foldl_toList, Std.ExtTreeMap.insertMany_list_eq_foldl]
  rw [hoverlay]
  cases hcell : update[column]? with
  | some value =>
    exact Std.ExtTreeMap.getElem?_insertMany_list_of_mem Std.compare_self
      Std.ExtTreeMap.distinct_keys_toList (Std.ExtTreeMap.mem_toList_iff_getElem?_eq_some.2 hcell)
  | none =>
    refine Std.ExtTreeMap.getElem?_insertMany_list_of_contains_eq_false ?_
    simpa [Std.ExtTreeMap.map_fst_toList_eq_keys, Std.ExtTreeMap.contains_keys] using hcell

/-- A column of an update has its value there. -/
theorem Row.getElem?_overlay {base update : Row} {column : String} {value : Value}
    (h : update[column]? = some value) : (base.overlay update)[column]? = some value := by
  rw [getElem?_overlay_eq_or, h, Option.some_or]

namespace TableSchema

variable {s : TableSchema} {row : Option Row} {update merged : Row}

/-- A merge that ends well answers the update, laid over the row if there is one. -/
theorem eq_of_mergeRow (h : s.mergeRow row update = .ok merged) :
    merged = row.elim update (·.overlay update) := by
  have hvalidated : ∀ merged', (s.validateRow merged' >>= fun _ => pure merged') = .ok merged →
      merged = merged' := by
    intro merged' h
    cases hvalid : s.validateRow merged' <;> rw [hvalid] at h <;> cases h
    rfl
  cases row <;> exact hvalidated _ h

theorem mapM_congr_of_ok {α β ε : Type} {f g : α → Except ε β} {bs : List β} :
    ∀ {as : List α}, as.mapM f = .ok bs → (∀ a b, f a = .ok b → g a = .ok b) → as.mapM g = .ok bs
  | [], h, _ => h
  | a :: as, h, hfg => by
    rw [List.mapM_cons] at h ⊢
    cases hf : f a with
    | error e =>
      rw [hf] at h
      cases h
    | ok b =>
      rw [hf] at h
      rw [hfg a b hf]
      cases hrest : as.mapM f with
      | error e =>
        rw [hrest] at h
        cases h
      | ok rest =>
        rw [hrest] at h
        rw [mapM_congr_of_ok hrest hfg]
        exact h

/-- A merged row has a column of the update where the update has it. -/
theorem getElem?_mergeRow {column : String} {value : Value} (h : s.mergeRow row update = .ok merged)
    (hcolumn : update[column]? = some value) : merged[column]? = some value := by
  rw [eq_of_mergeRow h]
  cases row with
  | none => exact hcolumn
  | some current => exact Row.getElem?_overlay hcolumn

/-- A merged row has the key of the update. -/
theorem keyOf_mergeRow {key : RowKey} (h : s.mergeRow row update = .ok merged)
    (hkey : s.keyOf update = .ok key) : s.keyOf merged = .ok key := by
  have hpart : ∀ column part, s.keyPartOf update column = .ok part → s.keyPartOf merged column = .ok part := by
    intro column part hpart
    rw [keyPartOf] at hpart ⊢
    cases hcell : update[column]? with
    | none =>
      rw [hcell] at hpart
      cases hpart
    | some value =>
      rw [hcell] at hpart
      rw [getElem?_mergeRow h hcell]
      exact hpart
  rw [keyOf] at hkey ⊢
  cases hparts : s.primaryKey.mapM (s.keyPartOf update) with
  | error flaw =>
    rw [hparts] at hkey
    cases hkey
  | ok parts =>
    rw [hparts] at hkey
    rw [mapM_congr_of_ok hparts hpart]
    exact hkey

end TableSchema

end Tabular
