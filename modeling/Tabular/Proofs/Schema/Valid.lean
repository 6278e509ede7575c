import Mathlib.Data.List.Nodup
import Tabular.Schema.Check

/-!
# Tabular.Proofs.Schema.Valid — what the checks of a schema and of a row say

A schema that passes has columns of different names (`distinct_of_validate`), and its key columns are
declared, cannot be null and are of a type that may stand in a key (`keyColumn_of_validate`).  A row passes
if its cells fit their columns (`CellsFit`) and it is complete (`Complete`): `validateRow_eq_ok_iff`.
-/

namespace Tabular

/-! ### Checks one after another -/

section Checks

variable {ε α : Type} {x : Except ε Unit} {y : Except ε α} {a : α} {f : α → Except ε Unit} {l : List α}

theorem seq_eq_ok_iff : (x >>= fun _ => y) = .ok a ↔ x = .ok () ∧ y = .ok a := by
  cases x with
  | error e => exact ⟨nofun, nofun⟩
  | ok => exact ⟨fun h => ⟨rfl, h⟩, fun h => h.2⟩

/-- What is refused under a condition passes where the condition does not hold. -/
theorem refuse_eq_ok_iff {p : Prop} [Decidable p] {e : ε} {f : Unit → Except ε α} :
    (if p then throw e >>= f else y) = .ok a ↔ ¬ p ∧ y = .ok a := by
  by_cases hp : p
  · rw [if_pos hp]
    exact ⟨nofun, fun h => absurd hp h.1⟩
  · rw [if_neg hp]
    exact ⟨fun h => ⟨hp, h⟩, fun h => h.2⟩

theorem seq_eq_error_iff {e : ε} :
    (x >>= fun _ => y) = .error e ↔ x = .error e ∨ x = .ok () ∧ y = .error e := by
  cases x with
  | error e' => exact ⟨fun h => .inl (by cases h; rfl), fun h => h.elim (fun h => by cases h; rfl) nofun⟩
  | ok => exact ⟨fun h => .inr ⟨rfl, h⟩, fun h => h.elim nofun And.right⟩

/-- What is refused under a condition fails so where the condition holds. -/
theorem refuse_eq_error_iff {p : Prop} [Decidable p] {e e' : ε} {f : Unit → Except ε α} :
    (if p then throw e >>= f else y) = .error e' ↔ p ∧ e' = e ∨ ¬ p ∧ y = .error e' := by
  by_cases hp : p
  · rw [if_pos hp]
    exact ⟨fun h => .inl ⟨hp, by cases h; rfl⟩, fun h => h.elim (fun h => h.2 ▸ rfl) fun h => absurd hp h.1⟩
  · rw [if_neg hp]
    exact ⟨fun h => .inr ⟨hp, h⟩, fun h => h.elim (fun h => absurd h.1 hp) And.right⟩

/-- A check of a list passes if each of its items does. -/
theorem forM_eq_ok_iff : l.forM f = .ok () ↔ ∀ a ∈ l, f a = .ok () := by
  induction l with
  | nil => exact ⟨nofun, fun _ => rfl⟩
  | cons a l ih =>
    rw [List.forall_mem_cons, ← ih]
    exact seq_eq_ok_iff

/-- A check of a list that fails tells what is wrong with one of its items. -/
theorem exists_of_forM_eq_error {e : ε} (h : l.forM f = .error e) : ∃ a ∈ l, f a = .error e := by
  induction l with
  | nil => cases h
  | cons a l ih =>
    have h : (f a >>= fun _ => l.forM f) = .error e := h
    cases ha : f a with
    | error e' =>
      rw [ha] at h
      cases h
      exact ⟨a, List.mem_cons_self, ha⟩
    | ok =>
      rw [ha] at h
      obtain ⟨b, hb, hfail⟩ := ih h
      exact ⟨b, List.mem_cons_of_mem _ hb, hfail⟩

end Checks

namespace TableSchema

variable {s : TableSchema}

theorem check_eq_ok_iff : s.check = .ok () ↔ s.name ≠ "" ∧ s.columns ≠ [] ∧
    checkNames [] s.columns = .ok () ∧ s.primaryKey ≠ [] ∧ checkKeys s.columns none s.primaryKey = .ok () ∧
      ∀ index ∈ s.indexes, s.checkIndex index = .ok () := by
  rw [check, refuse_eq_ok_iff, refuse_eq_ok_iff, seq_eq_ok_iff, refuse_eq_ok_iff, seq_eq_ok_iff, forM_eq_ok_iff]

theorem check_of_validate (h : s.validate = .ok ()) : s.check = .ok () := by
  rw [validate] at h
  cases hcheck : s.check with
  | error flaw =>
    rw [hcheck] at h
    cases h
  | ok => rfl

/-- Column names that pass are no others than those seen, and differ from each other. -/
theorem distinct_of_checkNames {seen : List String} {columns : List Column}
    (h : checkNames seen columns = .ok ()) :
    (∀ column ∈ columns, column.name ∉ seen) ∧ (columns.map (·.name)).Nodup := by
  induction columns generalizing seen with
  | nil => exact ⟨nofun, List.nodup_nil⟩
  | cons column rest ih =>
    rw [checkNames] at h
    split at h
    · cases h
    · split at h
      · cases h
      · rename_i hseen
        obtain ⟨hrest, hnodup⟩ := ih h
        refine ⟨List.forall_mem_cons.2 ⟨hseen, fun other hother hmem => ?_⟩, ?_⟩
        · exact hrest other hother (List.mem_cons_of_mem _ hmem)
        · rw [List.map_cons, List.nodup_cons]
          refine ⟨fun hmem => ?_, hnodup⟩
          obtain ⟨other, hother, hname⟩ := List.mem_map.1 hmem
          exact hrest other hother (hname ▸ List.mem_cons_self)

/-- The column of a name, if no two columns have one name. -/
theorem column?_eq_some_iff (hdistinct : (s.columns.map (·.name)).Nodup) {name : String} {column : Column} :
    s.column? name = some column ↔ column ∈ s.columns ∧ column.name = name := by
  constructor
  · intro h
    exact ⟨List.mem_of_find?_eq_some h, by simpa using List.find?_some h⟩
  · rintro ⟨hmem, rfl⟩
    cases hfind : s.column? column.name with
    | none =>
      have := List.find?_eq_none.1 hfind column hmem
      simp at this
    | some other =>
      have hname : other.name = column.name := by simpa using List.find?_some hfind
      have heq := List.inj_on_of_nodup_map hdistinct (List.mem_of_find?_eq_some hfind) hmem hname
      rw [heq]

theorem map_position? (columns : List Column) (name : String) :
    (position? columns name).map (·.2) = columns.find? (·.name == name) := by
  have hzip : ∀ (columns : List Column) (n : Nat),
      ((columns.zipIdx n).find? (·.1.name == name)).map (·.1) = columns.find? (·.name == name) := by
    intro columns
    induction columns with
    | nil => exact fun _ => rfl
    | cons column rest ih =>
      intro n
      rw [List.zipIdx_cons, List.find?_cons, List.find?_cons]
      cases hname : column.name == name with
      | true => rfl
      | false => exact ih (n + 1)
  rw [position?, Option.map_map, ← hzip columns 0]
  rfl

/-- Key columns that pass are declared, and a value in them may be part of a key. -/
theorem keyColumn_of_checkKeys {columns : List Column} {keys : List String} {last : Option Nat}
    (h : checkKeys columns last keys = .ok ()) : ∀ name ∈ keys, ∃ column,
      columns.find? (·.name == name) = some column ∧ column.type.isKeyCapable = true ∧ column.nullable = false := by
  induction keys generalizing last with
  | nil => exact nofun
  | cons name rest ih =>
    rw [checkKeys] at h
    split at h
    · cases h
    · rename_i position column hposition
      rw [seq_eq_ok_iff, seq_eq_ok_iff] at h
      obtain ⟨-, hcolumn, hrest⟩ := h
      refine List.forall_mem_cons.2 ⟨⟨column, ?_, ?_⟩, ih hrest⟩
      · rw [← map_position?, hposition]
        rfl
      · unfold checkKeyColumn at hcolumn
        split at hcolumn
        · split at hcolumn
          · cases hcolumn
          · rename_i hcapable hnullable
            exact ⟨hcapable, by simpa using hnullable⟩
        · cases hcolumn

theorem distinct_of_validate (h : s.validate = .ok ()) : (s.columns.map (·.name)).Nodup :=
  (distinct_of_checkNames (check_eq_ok_iff.1 (check_of_validate h)).2.2.1).2

theorem keyColumn_of_validate (h : s.validate = .ok ()) {name : String} (hname : name ∈ s.primaryKey) :
    ∃ column, s.column? name = some column ∧ column.type.isKeyCapable = true ∧ column.nullable = false :=
  keyColumn_of_checkKeys (check_eq_ok_iff.1 (check_of_validate h)).2.2.2.2.1 name hname

end TableSchema

/-! ### Rows -/

/-- Whether a value may stand in a column: it is of the column's type, or null where that is allowed. -/
def Column.Allows (column : Column) (value : Value) : Prop :=
  value.fieldType? = some column.type ∨ value = .null ∧ column.nullable = true

theorem Column.checkCell_eq_ok_iff {column : Column} {value : Value} :
    column.checkCell value = .ok () ↔ column.Allows value := by
  have hnull : value.fieldType? = none ↔ value = .null := by cases value <;> simp [Value.fieldType?]
  unfold Column.checkCell Column.Allows
  rw [← hnull]
  cases value.fieldType? with
  | none => cases column.nullable <;> simp
  | some type => by_cases htype : type = column.type <;> simp [htype]

namespace TableSchema

variable {s : TableSchema} {row : Row} {name : String} {value : Value}

/-- Whether each cell of a row stands in a declared column that allows it. -/
def CellsFit (s : TableSchema) (row : Row) : Prop :=
  ∀ (name : String) (value : Value), row[name]? = some value →
    ∃ column ∈ s.columns, column.name = name ∧ column.Allows value

/-- Whether a row has a cell in each column that cannot be null. -/
def Complete (s : TableSchema) (row : Row) : Prop :=
  ∀ column ∈ s.columns, column.nullable = false → column.name ∈ row

theorem checkCell_eq_ok_iff (hdistinct : (s.columns.map (·.name)).Nodup) :
    s.checkCell (name, value) = .ok () ↔ ∃ column ∈ s.columns, column.name = name ∧ column.Allows value := by
  rw [checkCell]
  cases hcolumn : s.column? name with
  | none =>
    refine ⟨nofun, ?_⟩
    rintro ⟨column, hmem, hname, -⟩
    rw [(column?_eq_some_iff hdistinct).2 ⟨hmem, hname⟩] at hcolumn
    cases hcolumn
  | some column =>
    obtain ⟨hmem, hname⟩ := (column?_eq_some_iff hdistinct).1 hcolumn
    refine Column.checkCell_eq_ok_iff.trans ⟨fun h => ⟨column, hmem, hname, h⟩, ?_⟩
    rintro ⟨other, hother, hname', hallows⟩
    rwa [List.inj_on_of_nodup_map hdistinct hother hmem (hname'.trans hname.symm)] at hallows

theorem checkPresent_eq_ok_iff {column : Column} :
    checkPresent row column = .ok () ↔ (column.nullable = false → column.name ∈ row) := by
  rw [checkPresent]
  cases column.nullable <;> by_cases hmem : column.name ∈ row <;> simp [hmem]

/-- A row passes if its cells fit and it is complete. -/
theorem validateRow_eq_ok_iff (hdistinct : (s.columns.map (·.name)).Nodup) :
    s.validateRow row = .ok () ↔ s.CellsFit row ∧ s.Complete row := by
  have hreport : s.validateRow row = .ok () ↔ s.checkRow row = .ok () := by
    rw [validateRow, reportRow]
    cases s.checkRow row <;> simp [Except.mapError]
  rw [hreport, checkRow, seq_eq_ok_iff, forM_eq_ok_iff, forM_eq_ok_iff]
  refine and_congr ?_ (forall₂_congr fun column _ => checkPresent_eq_ok_iff)
  constructor
  · intro h name value hcell
    exact (checkCell_eq_ok_iff hdistinct).1
      (h (name, value) (Std.ExtTreeMap.mem_toList_iff_getElem?_eq_some.2 hcell))
  · rintro h ⟨name, value⟩ hcell
    exact (checkCell_eq_ok_iff hdistinct).2 (h name value (Std.ExtTreeMap.mem_toList_iff_getElem?_eq_some.1 hcell))

/-- What is wrong with a row that is refused: one of its cells, or that there is none in a column. -/
theorem exists_flaw_of_validateRow {e : StoreError} (h : s.validateRow row = .error e) :
    ∃ flaw, e = .invalidRow s.name flaw.reason ∧
      ((∃ (name : String) (value : Value), row[name]? = some value ∧ s.checkCell (name, value) = .error flaw) ∨
        ∃ column ∈ s.columns, checkPresent row column = .error flaw) := by
  rw [validateRow, reportRow] at h
  cases hcheck : s.checkRow row with
  | ok =>
    rw [hcheck] at h
    cases h
  | error flaw =>
    rw [hcheck] at h
    cases h
    refine ⟨flaw, rfl, ?_⟩
    rw [checkRow] at hcheck
    cases hcells : row.toList.forM s.checkCell with
    | error flaw' =>
      rw [hcells] at hcheck
      cases hcheck
      obtain ⟨⟨name, value⟩, hmem, hflaw⟩ := exists_of_forM_eq_error hcells
      exact .inl ⟨name, value, Std.ExtTreeMap.mem_toList_iff_getElem?_eq_some.1 hmem, hflaw⟩
    | ok =>
      rw [hcells] at hcheck
      exact .inr (exists_of_forM_eq_error hcheck)

end TableSchema

end Tabular
