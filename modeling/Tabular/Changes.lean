import Tabular.Key
import Tabular.Row

/-!
# Tabular.Changes — rows by key, and changes laid over them

`Rows` are the rows of a table by key.  `Changes` say for some keys which row they get or that they lose
theirs.  Main statement: `getElem?_applyTo`, which reads off the row of a key after the changes.
-/

namespace Tabular

/-- The rows of a table by key. -/
abbrev Rows := Std.ExtTreeMap RowKey Row

/-- The new row of each changed key; `none` says that the key has no row any more. -/
abbrev Changes := Std.ExtTreeMap RowKey (Option Row)

namespace Rows

/-- The rows after the change of one key. -/
def change (rows : Rows) (key : RowKey) : Option Row → Rows
  | some row => rows.insert key row
  | none => rows.erase key

theorem getElem?_change (rows : Rows) (key other : RowKey) (cell : Option Row) :
    (rows.change key cell)[other]? = if key = other then cell else rows[other]? := by
  cases cell <;> simp [change, Std.ExtTreeMap.getElem?_insert, Std.ExtTreeMap.getElem?_erase]

end Rows

namespace Changes

/-- The rows after all changes. -/
def applyTo (changes : Changes) (rows : Rows) : Rows := changes.foldl Rows.change rows

theorem getElem?_foldl_change (key : RowKey) :
    ∀ (entries : List (RowKey × Option Row)) (rows : Rows), (entries.map (·.1)).Nodup →
      (entries.foldl (fun rows entry => rows.change entry.1 entry.2) rows)[key]?
        = (entries.lookup key).getD rows[key]?
  | [], rows, _ => rfl
  | (k, cell) :: entries, rows, h => by
    rw [List.map_cons, List.nodup_cons] at h
    rw [List.foldl_cons, getElem?_foldl_change key entries _ h.2, Rows.getElem?_change]
    by_cases hk : k = key
    · subst hk
      have : entries.lookup k = none := by
        rw [List.lookup_eq_none_iff]
        intro entry hentry
        have : entry.1 ≠ k := fun e => h.1 (List.mem_map.2 ⟨entry, hentry, e⟩)
        simpa using fun e => this e.symm
      simp [this]
    · have : (key == k) = false := by simpa using fun e => hk e.symm
      simp [List.lookup_cons, this, hk]

theorem lookup_eq_some_of_mem {key : RowKey} {cell : Option Row} :
    ∀ {entries : List (RowKey × Option Row)}, (entries.map (·.1)).Nodup → (key, cell) ∈ entries →
      entries.lookup key = some cell
  | (k, c) :: entries, h, hmem => by
    rw [List.map_cons, List.nodup_cons] at h
    rcases List.mem_cons.1 hmem with heq | htail
    · cases heq
      simp
    · have : (key == k) = false := by
        simpa using fun e : key = k => h.1 (List.mem_map.2 ⟨_, htail, e⟩)
      simp [List.lookup_cons, this, lookup_eq_some_of_mem h.2 htail]

theorem lookup_toList (changes : Changes) (key : RowKey) : changes.toList.lookup key = changes[key]? := by
  have hnodup : (changes.toList.map (·.1)).Nodup := by
    rw [Std.ExtTreeMap.map_fst_toList_eq_keys]
    exact Std.ExtTreeMap.nodup_keys
  cases h : changes[key]? with
  | some cell => exact lookup_eq_some_of_mem hnodup (Std.ExtTreeMap.mem_toList_iff_getElem?_eq_some.2 h)
  | none =>
    rw [List.lookup_eq_none_iff]
    intro entry hentry
    rw [Std.ExtTreeMap.mem_toList_iff_getElem?_eq_some] at hentry
    simp only [ne_eq, bne_iff_ne]
    rintro rfl
    simp [h] at hentry

/-- After the changes a changed key has its new row, any other key its old one. -/
theorem getElem?_applyTo (changes : Changes) (rows : Rows) (key : RowKey) :
    (changes.applyTo rows)[key]? = changes[key]?.getD rows[key]? := by
  have hnodup : (changes.toList.map (·.1)).Nodup := by
    rw [Std.ExtTreeMap.map_fst_toList_eq_keys]
    exact Std.ExtTreeMap.nodup_keys
  rw [applyTo, Std.ExtTreeMap.foldl_eq_foldl_toList, getElem?_foldl_change key _ _ hnodup, lookup_toList]

end Changes

end Tabular
