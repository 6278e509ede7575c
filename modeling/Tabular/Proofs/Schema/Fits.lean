import Mathlib.Data.List.Forall2
import Tabular.Proofs.Runner.Held
import Tabular.Proofs.Schema.Merge

/-!
# Tabular.Proofs.Schema.Fits — rows that fit their schema and their key

`Fits s key row` says that a row is a complete row of a table and that its key is the given one.  Main
statements: `fits_of_mergeRow`, what a merge makes of an update fits the key of the update, and
`map_getElem?_of_keyOf`, a row has the values in its key columns that its key was made from.
-/

namespace Tabular.TableSchema

variable {s : TableSchema} {key : RowKey} {row update merged : Row} {values : List Value} {column : String}
  {value : Value} {part : KeyPart}

/-- Whether a row is a complete row of a table, with the given key. -/
structure Fits (s : TableSchema) (key : RowKey) (row : Row) : Prop where
  valid : s.validateRow row = .ok ()
  keyed : s.keyOf row = .ok key

/-- A merge validates what it makes. -/
theorem validateRow_mergeRow {existing : Option Row} (h : s.mergeRow existing update = .ok merged) :
    s.validateRow merged = .ok () := by
  have heq := eq_of_mergeRow h
  have hvalidated : ∀ row, (s.validateRow row >>= fun _ => pure row) = .ok merged →
      s.validateRow row = .ok () := by
    intro row hrow
    cases hvalid : s.validateRow row with
    | ok => rfl
    | error e =>
      rw [hvalid] at hrow
      cases hrow
  rw [heq]
  cases existing <;> exact hvalidated _ h

/-- What a merge makes of an update fits the key of the update. -/
theorem fits_of_mergeRow {existing : Option Row} (h : s.mergeRow existing update = .ok merged)
    (hkey : s.keyOf update = .ok key) : s.Fits key merged :=
  ⟨validateRow_mergeRow h, keyOf_mergeRow h hkey⟩

/-! ### Key columns -/

/-- A key part stands for the value that it was made from. -/
theorem toValue_of_keyPart (h : s.keyPart column value = .ok part) : part.toValue = value := by
  unfold keyPart at h
  cases hcolumn : s.column? column with
  | none =>
    rw [hcolumn] at h
    cases h
  | some declared =>
    rw [hcolumn] at h
    cases hcheck : declared.checkCell value with
    | error flaw =>
      simp only [hcheck, bind, Except.bind] at h
      cases h
    | ok =>
      cases hpart : KeyPart.ofValue? value with
      | none =>
        simp only [hcheck, hpart, bind, Except.bind] at h
        cases h
      | some part' =>
        simp only [hcheck, hpart, bind, Except.bind] at h
        cases h
        exact KeyPart.toValue_of_ofValue? hpart

theorem getElem?_of_keyPartOf (h : s.keyPartOf row column = .ok part) :
    row[column]? = some part.toValue := by
  unfold keyPartOf at h
  cases hcell : row[column]? with
  | none =>
    rw [hcell] at h
    cases h
  | some value =>
    rw [hcell] at h
    rw [toValue_of_keyPart h]

theorem mapM_cons_eq_ok {α β ε : Type} {f : α → Except ε β} {a : α} {as : List α} {bs : List β} :
    (a :: as).mapM f = .ok bs ↔ ∃ b rest, f a = .ok b ∧ as.mapM f = .ok rest ∧ bs = b :: rest := by
  rw [List.mapM_cons]
  cases f a with
  | error e => exact ⟨nofun, nofun⟩
  | ok b =>
    cases as.mapM f with
    | error e => exact ⟨nofun, nofun⟩
    | ok rest =>
      constructor
      · rintro ⟨⟩
        exact ⟨b, rest, rfl, rfl, rfl⟩
      · rintro ⟨_, _, ⟨⟩, ⟨⟩, rfl⟩
        rfl

/-- Where a row and as many values make the same key parts, the row has the values. -/
theorem map_getElem?_of_mapM : ∀ {columns : List String} {values : List Value} {parts : List KeyPart},
    values.length = columns.length → columns.mapM (s.keyPartOf row) = .ok parts →
    (columns.zip values).mapM (fun pair => s.keyPart pair.1 pair.2) = .ok parts →
    columns.map (row[·]?) = values.map some
  | [], [], _, _, _, _ => rfl
  | column :: columns, value :: values, _, hlength, hrow, hvalues => by
    obtain ⟨part, rest, hpart, hrest, rfl⟩ := mapM_cons_eq_ok.1 hrow
    obtain ⟨_, _, hpart', hrest', heq⟩ := mapM_cons_eq_ok.1 hvalues
    cases heq
    have htail := map_getElem?_of_mapM (Nat.succ.inj hlength) hrest hrest'
    rw [List.map_cons, List.map_cons, htail, getElem?_of_keyPartOf hpart, toValue_of_keyPart hpart']

theorem reportRow_eq_ok {α : Type} {x : Except RowFlaw α} {a : α} (h : s.reportRow x = .ok a) : x = .ok a := by
  cases x with
  | error flaw => cases h
  | ok b =>
    cases h
    rfl

theorem keyOf_eq_ok (h : s.keyOf row = .ok key) : s.primaryKey.mapM (s.keyPartOf row) = .ok key.parts := by
  have hparts := reportRow_eq_ok h
  cases hmap : s.primaryKey.mapM (s.keyPartOf row) with
  | error flaw =>
    rw [hmap] at hparts
    cases hparts
  | ok parts =>
    rw [hmap] at hparts
    cases hparts
    rfl

theorem keyFromValues_eq_ok (h : s.keyFromValues values = .ok key) : values.length = s.primaryKey.length ∧
    (s.primaryKey.zip values).mapM (fun pair => s.keyPart pair.1 pair.2) = .ok key.parts := by
  have hparts := reportRow_eq_ok h
  split at hparts
  · rename_i hlength
    refine ⟨hlength, ?_⟩
    cases hmap : (s.primaryKey.zip values).mapM (fun pair => s.keyPart pair.1 pair.2) with
    | error flaw =>
      rw [hmap] at hparts
      cases hparts
    | ok parts =>
      rw [hmap] at hparts
      cases hparts
      rfl
  · cases hparts

/-- A row whose key was made from values has these values in its key columns. -/
theorem map_getElem?_of_keyOf (hrow : s.keyOf row = .ok key) (hvalues : s.keyFromValues values = .ok key) :
    s.primaryKey.map (row[·]?) = values.map some := by
  obtain ⟨hlength, hparts⟩ := keyFromValues_eq_ok hvalues
  exact map_getElem?_of_mapM hlength (keyOf_eq_ok hrow) hparts

/-! ### Rows in the order of their keys -/

/-- Whether rows fit, one for each of strictly ascending keys. -/
def Ascending (s : TableSchema) (rows : List Row) : Prop :=
  ∃ keys : List RowKey, keys.Pairwise (fun a b => compare a b = .lt) ∧ List.Forall₂ s.Fits keys rows

theorem ascending_of_entries {entries : List (RowKey × Row)}
    (hordered : entries.Pairwise fun a b => compare a.1 b.1 = .lt)
    (hfits : ∀ entry ∈ entries, s.Fits entry.1 entry.2) : s.Ascending (entries.map (·.2)) := by
  refine ⟨entries.map (·.1), List.pairwise_map.2 hordered, ?_⟩
  rw [List.forall₂_map_left_iff, List.forall₂_map_right_iff, List.forall₂_same]
  exact hfits

/-- Rows by key fit if each fits its key. -/
theorem ascending_values {rows : Rows} (hfits : ∀ key row, rows[key]? = some row → s.Fits key row) :
    s.Ascending rows.values := by
  rw [values_eq_map_toList]
  refine ascending_of_entries Std.ExtTreeMap.ordered_keys_toList fun entry hentry => ?_
  exact hfits _ _ (Std.ExtTreeMap.mem_toList_iff_getElem?_eq_some.1 hentry)

end Tabular.TableSchema
