import Tabular.Proofs.Schema.Valid

/-!
# Tabular.Proofs.Schema.WellFormed — which schemas are well formed

`WellFormed` lists the rules, `SchemaFlaw.Of` says what each flaw means of a schema.  The key columns are
checked one at a time, each against the position of the one before; that they pass means that they are a
subsequence of the declared names (`sublist_of_checkKeys`).  Main statement: `validate_exact`, a schema is
accepted precisely if it is well formed, and a refusal names a flaw that it has.
-/

namespace Tabular

namespace TableSchema

/-- The names of the columns in declaration order. -/
def columnNames (s : TableSchema) : List String := s.columns.map (·.name)

/-- The rules of a well-formed schema. -/
structure WellFormed (s : TableSchema) : Prop where
  named : s.name ≠ ""
  hasColumns : s.columns ≠ []
  columnsNamed : "" ∉ s.columnNames
  distinct : s.columnNames.Nodup
  hasKey : s.primaryKey ≠ []
  /-- Key columns are declared, and listed once, in declaration order. -/
  ordered : s.primaryKey.Sublist s.columnNames
  keyColumns : ∀ column ∈ s.columns, column.name ∈ s.primaryKey →
    column.nullable = false ∧ column.type ∈ [FieldType.integer, .long, .string, .bytes]
  indexColumns : ∀ index ∈ s.indexes, index ∈ s.columnNames ∧ index ∉ s.primaryKey

end TableSchema

/-- What a flaw says of a schema. -/
def SchemaFlaw.Of (s : TableSchema) : SchemaFlaw → Prop
  | emptyTableName => s.name = ""
  | noColumns => s.columns = []
  | emptyColumnName => "" ∈ s.columnNames
  | duplicateColumn name => [name, name].Sublist s.columnNames
  | noPrimaryKey => s.primaryKey = []
  | undeclaredKey name => name ∈ s.primaryKey ∧ name ∉ s.columnNames
  | repeatedKey name => [name, name].Sublist s.primaryKey
  | misplacedKey name =>
    ∃ before, [before, name].Sublist s.primaryKey ∧ [name, before].Sublist s.columnNames
  | unfitKeyType name type => name ∈ s.primaryKey ∧
    ∃ column ∈ s.columns, column.name = name ∧ column.type = type ∧
      type ∉ [FieldType.integer, .long, .string, .bytes]
  | nullableKey name =>
    name ∈ s.primaryKey ∧ ∃ column ∈ s.columns, column.name = name ∧ column.nullable = true
  | undeclaredIndex name => name ∈ s.indexes ∧ name ∉ s.columnNames
  | keyIndex name => name ∈ s.indexes ∧ name ∈ s.primaryKey

theorem FieldType.isKeyCapable_iff {type : FieldType} :
    type.isKeyCapable = true ↔ type ∈ [FieldType.integer, .long, .string, .bytes] := by
  cases type <;> decide

/-! ### Places in a list -/

section Places

variable {α : Type} {l : List α} {a b : α} {m n : Nat}

theorem drop_of_getElem? (h : l[n]? = some a) : l.drop n = a :: l.drop (n + 1) := by
  obtain ⟨hlt, rfl⟩ := List.getElem?_eq_some_iff.1 h
  exact List.drop_eq_getElem_cons hlt

/-- Two items at places one after the other are a subsequence. -/
theorem pair_sublist (ha : l[m]? = some a) (hb : l[n]? = some b) (hlt : m < n) : [a, b].Sublist l := by
  have hmem : b ∈ l.drop (m + 1) := by
    rw [List.mem_iff_getElem?]
    exact ⟨n - (m + 1), by rw [List.getElem?_drop, Nat.add_sub_cancel' hlt, hb]⟩
  have htail : [a, b].Sublist (a :: l.drop (m + 1)) := (List.singleton_sublist.2 hmem).cons_cons a
  rw [← drop_of_getElem? ha] at htail
  exact htail.trans (List.drop_sublist m l)

/-- Items that do not recur stand in one order only. -/
theorem not_swapped (hnodup : l.Nodup) (hab : [a, b].Sublist l) : ¬ [b, a].Sublist l := by
  induction l with
  | nil => cases hab
  | cons c l ih =>
    obtain ⟨hc, hnodup⟩ := List.nodup_cons.1 hnodup
    intro hba
    rcases List.sublist_cons_iff.1 hab with hab' | ⟨_, ⟨⟩, hb⟩
    · rcases List.sublist_cons_iff.1 hba with hba' | ⟨_, ⟨⟩, -⟩
      · exact ih hnodup hab' hba'
      · exact hc (hab'.subset (List.mem_cons_of_mem a List.mem_cons_self))
    · rcases List.sublist_cons_iff.1 hba with hba' | ⟨_, ⟨⟩, -⟩
      · exact hc (hba'.subset (List.mem_cons_of_mem b List.mem_cons_self))
      · exact hc (List.singleton_sublist.1 hb)

end Places

namespace TableSchema

variable {s : TableSchema} {name : String} {flaw : SchemaFlaw}

/-- A well-formed schema has no flaw. -/
theorem WellFormed.not_of (h : s.WellFormed) : ¬ flaw.Of s := by
  intro hflaw
  cases flaw with
  | emptyTableName => exact h.named hflaw
  | noColumns => exact h.hasColumns hflaw
  | emptyColumnName => exact h.columnsNamed hflaw
  | duplicateColumn name => exact List.nodup_iff_sublist.1 h.distinct name hflaw
  | noPrimaryKey => exact h.hasKey hflaw
  | undeclaredKey name => exact hflaw.2 (h.ordered.subset hflaw.1)
  | repeatedKey name => exact List.nodup_iff_sublist.1 h.distinct name (hflaw.trans h.ordered)
  | misplacedKey name =>
    obtain ⟨before, hkey, hdeclared⟩ := hflaw
    exact not_swapped h.distinct hdeclared (hkey.trans h.ordered)
  | unfitKeyType name type =>
    obtain ⟨hname, column, hcolumn, rfl, rfl, hunfit⟩ := hflaw
    exact hunfit (h.keyColumns column hcolumn hname).2
  | nullableKey name =>
    obtain ⟨hname, column, hcolumn, rfl, hnullable⟩ := hflaw
    rw [(h.keyColumns column hcolumn hname).1] at hnullable
    cases hnullable
  | undeclaredIndex name => exact hflaw.2 (h.indexColumns name hflaw.1).1
  | keyIndex name => exact (h.indexColumns name hflaw.1).2 hflaw.2

/-! ### The names of columns -/

theorem columnNames_of_checkNames {seen : List String} {columns : List Column}
    (h : checkNames seen columns = .ok ()) : "" ∉ columns.map (·.name) := by
  induction columns generalizing seen with
  | nil => exact List.not_mem_nil
  | cons column rest ih =>
    rw [checkNames] at h
    split at h
    · cases h
    · rename_i hname
      split at h
      · cases h
      · rw [List.map_cons, List.mem_cons]
        rintro (hempty | hrest)
        · exact hname hempty.symm
        · exact ih h hrest

/-- Column names are refused if one is empty, or if one is among those seen or recurs. -/
theorem flaw_of_checkNames {seen : List String} {columns : List Column}
    (h : checkNames seen columns = .error flaw) :
    flaw = .emptyColumnName ∧ "" ∈ columns.map (·.name) ∨
      ∃ name, flaw = .duplicateColumn name ∧
        (name ∈ seen ∧ name ∈ columns.map (·.name) ∨ [name, name].Sublist (columns.map (·.name))) := by
  induction columns generalizing seen with
  | nil => cases h
  | cons column rest ih =>
    rw [List.map_cons]
    rw [checkNames] at h
    split at h
    · rename_i hname
      cases h
      exact .inl ⟨rfl, List.mem_cons.2 (.inl hname.symm)⟩
    · split at h
      · rename_i hseen
        cases h
        exact .inr ⟨column.name, rfl, .inl ⟨hseen, List.mem_cons_self⟩⟩
      · rcases ih h with ⟨rfl, hmem⟩ | ⟨name, rfl, ⟨hseen, hmem⟩ | hrecurs⟩
        · exact .inl ⟨rfl, List.mem_cons_of_mem _ hmem⟩
        · refine .inr ⟨name, rfl, ?_⟩
          rcases List.mem_cons.1 hseen with rfl | hseen
          · exact .inr ((List.singleton_sublist.2 hmem).cons_cons _)
          · exact .inl ⟨hseen, List.mem_cons_of_mem _ hmem⟩
        · exact .inr ⟨name, rfl, .inr (hrecurs.cons _)⟩

/-! ### The columns of the primary key -/

theorem getElem?_of_position? {columns : List Column} {position : Nat} {column : Column}
    (h : position? columns name = some (position, column)) :
    columns[position]? = some column ∧ column.name = name := by
  obtain ⟨⟨found, n⟩, hfind, ⟨⟩⟩ := Option.map_eq_some_iff.1 h
  exact ⟨List.mem_zipIdx_iff_getElem?.1 (List.mem_of_find?_eq_some hfind), by simpa using List.find?_some hfind⟩

theorem getElem?_columnNames {position : Nat} {column : Column}
    (h : position? s.columns name = some (position, column)) : s.columnNames[position]? = some name := by
  obtain ⟨hcolumn, rfl⟩ := getElem?_of_position? h
  rw [columnNames, List.getElem?_map, hcolumn]
  rfl

theorem not_mem_columnNames (h : s.columns.find? (·.name == name) = none) : name ∉ s.columnNames := by
  intro hmem
  obtain ⟨column, hcolumn, rfl⟩ := List.mem_map.1 hmem
  simpa using List.find?_eq_none.1 h column hcolumn

/-- Key columns that pass are a subsequence of the names after the place of the one before. -/
theorem sublist_of_checkKeys {keys : List String} {last : Option Nat}
    (h : checkKeys s.columns last keys = .ok ()) :
    keys.Sublist (s.columnNames.drop (last.elim 0 (· + 1))) := by
  induction keys generalizing last with
  | nil => exact List.nil_sublist _
  | cons name rest ih =>
    rw [checkKeys] at h
    split at h
    · cases h
    · rename_i position column hposition
      rw [seq_eq_ok_iff, seq_eq_ok_iff] at h
      obtain ⟨horder, -, hrest⟩ := h
      have hle : last.elim 0 (· + 1) ≤ position := by
        cases last with
        | none => exact Nat.zero_le _
        | some before =>
          simp only [checkOrder] at horder
          split at horder
          · cases horder
          · split at horder
            · cases horder
            · simp only [Option.elim_some]
              omega
      have htail : (name :: rest).Sublist (s.columnNames.drop position) := by
        rw [drop_of_getElem? (getElem?_columnNames hposition)]
        exact (ih hrest).cons_cons name
      exact htail.trans (List.drop_sublist_drop_left _ hle)

/-- What is said of a key column is true of it, if `last` is the place of the one before. -/
theorem flaw_of_checkKeys {keys : List String} {last : Option Nat}
    (h : checkKeys s.columns last keys = .error flaw) (hkeys : keys.Sublist s.primaryKey)
    (hlast : ∀ position, last = some position →
      ∃ before, s.columnNames[position]? = some before ∧ (before :: keys).Sublist s.primaryKey) :
    flaw.Of s := by
  induction keys generalizing last with
  | nil => cases h
  | cons name rest ih =>
    have hname : name ∈ s.primaryKey := hkeys.subset List.mem_cons_self
    rw [checkKeys] at h
    split at h
    · rename_i hposition
      cases h
      refine ⟨hname, not_mem_columnNames ?_⟩
      rw [← map_position?, hposition]
      rfl
    · rename_i position column hposition
      obtain ⟨hcolumn, rfl⟩ := getElem?_of_position? hposition
      have hplace := getElem?_columnNames hposition
      rw [seq_eq_error_iff, seq_eq_error_iff] at h
      rcases h with horder | ⟨-, hunfit | ⟨-, hrest⟩⟩
      · cases last with
        | none => cases horder
        | some position' =>
          obtain ⟨before, hbefore, hkeys'⟩ := hlast position' rfl
          have hpair : [before, column.name].Sublist s.primaryKey :=
            (((List.nil_sublist rest).cons_cons _).cons_cons _).trans hkeys'
          simp only [checkOrder] at horder
          split at horder
          · rename_i heq
            cases horder
            subst heq
            cases hplace.symm.trans hbefore
            exact hpair
          · split at horder
            · rename_i hlt
              cases horder
              exact ⟨before, hpair, pair_sublist hplace hbefore hlt⟩
            · cases horder
      · unfold checkKeyColumn at hunfit
        have hmem := List.mem_of_getElem? hcolumn
        split at hunfit
        · split at hunfit
          · rename_i hnullable
            cases hunfit
            exact ⟨hname, column, hmem, rfl, hnullable⟩
          · cases hunfit
        · rename_i hcapable
          cases hunfit
          exact ⟨hname, column, hmem, rfl, rfl, mt FieldType.isKeyCapable_iff.2 hcapable⟩
      · exact ih hrest ((List.sublist_cons_self _ _).trans hkeys) fun _ heq => by
          cases heq
          exact ⟨column.name, hplace, hkeys⟩

/-! ### Schemas -/

theorem flaw_of_checkIndex (h : s.checkIndex name = .error flaw) (hname : name ∈ s.indexes) : flaw.Of s := by
  rw [checkIndex] at h
  split at h
  · rename_i hnone
    cases h
    exact ⟨hname, not_mem_columnNames (Option.isNone_iff_eq_none.1 hnone)⟩
  · split at h
    · rename_i hkey
      cases h
      exact ⟨hname, hkey⟩
    · cases h

theorem checkIndex_eq_ok (h : s.checkIndex name = .ok ()) : name ∈ s.columnNames ∧ name ∉ s.primaryKey := by
  rw [checkIndex] at h
  split at h
  · cases h
  · rename_i hsome
    split at h
    · cases h
    · rename_i hkey
      obtain ⟨column, hcolumn⟩ := Option.ne_none_iff_exists'.1 (mt Option.isNone_iff_eq_none.2 hsome)
      have hfound : column.name = name := by simpa using List.find?_some hcolumn
      exact ⟨hfound ▸ List.mem_map_of_mem (List.mem_of_find?_eq_some hcolumn), hkey⟩

/-- The flaw that a check tells is one of the schema. -/
theorem flaw_of_check (h : s.check = .error flaw) : flaw.Of s := by
  rw [check, refuse_eq_error_iff, refuse_eq_error_iff, seq_eq_error_iff, refuse_eq_error_iff, seq_eq_error_iff] at h
  rcases h with ⟨hname, rfl⟩ | ⟨-, ⟨hcolumns, rfl⟩ | ⟨-, hnames | ⟨-, ⟨hkey, rfl⟩ | ⟨-, hkeys | ⟨-, hindexes⟩⟩⟩⟩⟩
  · exact hname
  · exact hcolumns
  · rcases flaw_of_checkNames hnames with ⟨rfl, hmem⟩ | ⟨name, rfl, ⟨hseen, -⟩ | hrecurs⟩
    · exact hmem
    · cases hseen
    · exact hrecurs
  · exact hkey
  · exact flaw_of_checkKeys hkeys (List.Sublist.refl _) (by simp)
  · obtain ⟨name, hmem, hname⟩ := exists_of_forM_eq_error hindexes
    exact flaw_of_checkIndex hname hmem

/-- A schema that passes is well formed. -/
theorem wellFormed_of_validate (h : s.validate = .ok ()) : s.WellFormed := by
  obtain ⟨hname, hcolumns, hnames, hkey, hkeys, hindexes⟩ := check_eq_ok_iff.1 (check_of_validate h)
  have hdistinct := distinct_of_validate h
  refine ⟨hname, hcolumns, columnNames_of_checkNames hnames, hdistinct, hkey, sublist_of_checkKeys hkeys,
    fun column hmem hcolumn => ?_, fun index hindex => checkIndex_eq_ok (hindexes index hindex)⟩
  obtain ⟨found, hfound, hcapable, hnullable⟩ := keyColumn_of_validate h hcolumn
  cases ((column?_eq_some_iff hdistinct).2 ⟨hmem, rfl⟩).symm.trans hfound
  exact ⟨hnullable, FieldType.isKeyCapable_iff.1 hcapable⟩

/-- **Exactly the well-formed schemas are accepted.**  A schema passes precisely if it keeps to all the rules;
otherwise it is refused as invalid, by its name and with a flaw that it has. -/
theorem validate_exact (s : TableSchema) :
    (s.validate = .ok () ↔ s.WellFormed) ∧
    ((∃ flaw : SchemaFlaw, flaw.Of s ∧ s.validate = .error (.invalidSchema s.name flaw.reason)) ↔
      ¬ s.WellFormed) := by
  cases hcheck : s.check with
  | ok =>
    have hvalid : s.validate = .ok () := by rw [validate, hcheck]; rfl
    have hformed := wellFormed_of_validate hvalid
    refine ⟨⟨fun _ => hformed, fun _ => hvalid⟩, ?_, fun h => absurd hformed h⟩
    rintro ⟨flaw, hflaw, -⟩
    exact absurd hflaw hformed.not_of
  | error flaw =>
    have hflaw := flaw_of_check hcheck
    have hrefused : s.validate = .error (.invalidSchema s.name flaw.reason) := by rw [validate, hcheck]; rfl
    have hformed : ¬ s.WellFormed := fun h => h.not_of hflaw
    refine ⟨⟨fun h => ?_, fun h => absurd h hformed⟩, fun _ => hformed, fun _ => ⟨flaw, hflaw, hrefused⟩⟩
    rw [hrefused] at h
    cases h

end TableSchema

end Tabular
