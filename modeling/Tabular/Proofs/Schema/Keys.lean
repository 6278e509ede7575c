import Tabular.Proofs.Schema.Upserts
import Tabular.Proofs.Schema.WellFormed

/-!
# Tabular.Proofs.Schema.Keys — the ways to form a key

The key of a row is the key made from the values in its key columns (`keyOf_eq_ok_iff`), a key keeps these
values (`map_toValue_of_keyFromValues`), and as a row it has them in the key columns and nothing else
(`map_getElem?_keyToRow`).  Main statement: `keys_identify_rows`.
-/

namespace Tabular

/-! ### Rows made of cells -/

namespace Row

variable {cells : List (String × Value)} {column : String} {value : Value}

theorem ofCells_eq_insertMany (cells : List (String × Value)) :
    ofCells cells = (∅ : Row).insertMany cells :=
  Std.ExtTreeMap.insertMany_list_eq_foldl.symm

/-- Where no two cells are for one column, each is in the row. -/
theorem getElem?_ofCells_of_mem (hdistinct : (cells.map (·.1)).Nodup) (hmem : (column, value) ∈ cells) :
    (ofCells cells)[column]? = some value := by
  rw [ofCells_eq_insertMany]
  refine Std.ExtTreeMap.getElem?_insertMany_list_of_mem Std.compare_self ?_ hmem
  refine (List.pairwise_map.1 hdistinct).imp fun hne heq => hne ?_
  exact Std.LawfulEqCmp.eq_of_compare heq

theorem getElem?_ofCells_of_not_mem (hnot : column ∉ cells.map (·.1)) : (ofCells cells)[column]? = none := by
  rw [ofCells_eq_insertMany, Std.ExtTreeMap.getElem?_insertMany_list_of_contains_eq_false]
  · exact Std.ExtTreeMap.getElem?_empty
  · simpa using hnot

end Row

theorem exists_mapM_iff {α β ε : Type} {f : α → Except ε β} {as : List α} :
    (∃ bs, as.mapM f = .ok bs) ↔ ∀ a ∈ as, ∃ b, f a = .ok b := by
  refine ⟨?_, TableSchema.exists_mapM⟩
  induction as with
  | nil => exact fun _ => nofun
  | cons a as ih =>
    rintro ⟨bs, hbs⟩
    obtain ⟨b, rest, hb, hrest, -⟩ := TableSchema.mapM_cons_eq_ok.1 hbs
    exact List.forall_mem_cons.2 ⟨⟨b, hb⟩, ih ⟨rest, hrest⟩⟩

namespace TableSchema

variable {s : TableSchema} {key : RowKey} {row row' : Row} {values : List Value} {name : String} {value : Value}

/-! ### Keys and values -/

/-- A key column takes the values of its type. -/
theorem exists_keyPart_iff (hs : s.validate = .ok ()) (hname : name ∈ s.primaryKey) :
    (∃ part, s.keyPart name value = .ok part) ↔
      ∃ column ∈ s.columns, column.name = name ∧ value.fieldType? = some column.type := by
  have hdistinct := distinct_of_validate hs
  obtain ⟨column, hcolumn, hcapable, hnullable⟩ := keyColumn_of_validate hs hname
  constructor
  · rintro ⟨part, hpart⟩
    obtain ⟨hmem, rfl⟩ := (column?_eq_some_iff hdistinct).1 hcolumn
    unfold keyPart at hpart
    simp only [hcolumn] at hpart
    cases hcheck : column.checkCell value with
    | error flaw =>
      rw [hcheck] at hpart
      cases hpart
    | ok =>
      refine ⟨column, hmem, rfl, (Column.checkCell_eq_ok_iff.1 hcheck).resolve_right fun h => ?_⟩
      rw [hnullable] at h
      cases h.2
  · rintro ⟨other, hother, hsame, htype⟩
    cases ((column?_eq_some_iff hdistinct).2 ⟨hother, hsame⟩).symm.trans hcolumn
    exact exists_keyPart hcolumn hcapable hnullable (.inl htype)

/-- From values a key is made precisely if there is one for each key column, of its type. -/
theorem exists_keyFromValues_iff (hs : s.validate = .ok ()) :
    (∃ key, s.keyFromValues values = .ok key) ↔ values.length = s.primaryKey.length ∧
      ∀ pair ∈ s.primaryKey.zip values,
        ∃ column ∈ s.columns, column.name = pair.1 ∧ pair.2.fieldType? = some column.type := by
  have hparts : (∃ parts, (s.primaryKey.zip values).mapM (fun pair => s.keyPart pair.1 pair.2) = .ok parts) ↔
      ∀ pair ∈ s.primaryKey.zip values,
        ∃ column ∈ s.columns, column.name = pair.1 ∧ pair.2.fieldType? = some column.type :=
    exists_mapM_iff.trans
      (forall₂_congr fun pair hpair => exists_keyPart_iff hs (List.of_mem_zip hpair).1)
  rw [← hparts]
  constructor
  · rintro ⟨key, hkey⟩
    obtain ⟨hlength, hmap⟩ := keyFromValues_eq_ok hkey
    exact ⟨hlength, key.parts, hmap⟩
  · rintro ⟨hlength, parts, hmap⟩
    refine ⟨⟨parts⟩, ?_⟩
    rw [keyFromValues, if_pos hlength, hmap]
    rfl

/-- A key keeps the values that it was made from. -/
theorem map_toValue_of_keyFromValues (h : s.keyFromValues values = .ok key) :
    key.parts.map KeyPart.toValue = values := by
  obtain ⟨hlength, hmap⟩ := keyFromValues_eq_ok h
  clear h
  generalize s.primaryKey = columns at hlength hmap
  generalize key.parts = parts at hmap
  induction columns generalizing values parts with
  | nil =>
    cases List.length_eq_zero_iff.1 hlength
    cases hmap
    rfl
  | cons column columns ih =>
    cases values with
    | nil => cases hlength
    | cons value values =>
      obtain ⟨part, rest, hpart, hrest, rfl⟩ := mapM_cons_eq_ok.1 hmap
      rw [List.map_cons, toValue_of_keyPart hpart, ih (Nat.succ.inj hlength) rest hrest]

/-! ### Keys and rows -/

theorem mapM_keyPartOf_iff {columns : List String} {parts : List KeyPart} :
    columns.mapM (s.keyPartOf row) = .ok parts ↔ ∃ values : List Value,
      columns.map (row[·]?) = values.map some ∧
        (columns.zip values).mapM (fun pair => s.keyPart pair.1 pair.2) = .ok parts := by
  induction columns generalizing parts with
  | nil =>
    constructor
    · exact fun h => ⟨[], rfl, h⟩
    · rintro ⟨values, -, h⟩
      exact h
  | cons column columns ih =>
    rw [mapM_cons_eq_ok]
    constructor
    · rintro ⟨part, rest, hpart, hrest, rfl⟩
      obtain ⟨values, hvalues, hmap⟩ := ih.1 hrest
      have hcell := getElem?_of_keyPartOf hpart
      rw [keyPartOf, hcell] at hpart
      exact ⟨part.toValue :: values, by rw [List.map_cons, List.map_cons, hcell, hvalues],
        mapM_cons_eq_ok.2 ⟨part, rest, hpart, hmap, rfl⟩⟩
    · rintro ⟨values, hvalues, hmap⟩
      cases values with
      | nil => cases hvalues
      | cons value values =>
        obtain ⟨hcell : row[column]? = some value, hvalues⟩ := List.cons_eq_cons.1 hvalues
        obtain ⟨part, rest, hpart, hrest, rfl⟩ := mapM_cons_eq_ok.1 hmap
        exact ⟨part, rest, by rw [keyPartOf, hcell]; exact hpart, ih.2 ⟨values, hvalues, hrest⟩, rfl⟩

/-- The key of a row is the key made from the values in its key columns. -/
theorem keyOf_eq_ok_iff : s.keyOf row = .ok key ↔
    ∃ values, s.primaryKey.map (row[·]?) = values.map some ∧ s.keyFromValues values = .ok key := by
  constructor
  · intro h
    obtain ⟨values, hvalues, hmap⟩ := mapM_keyPartOf_iff.1 (keyOf_eq_ok h)
    have hlength : values.length = s.primaryKey.length := by
      simpa using (congrArg List.length hvalues).symm
    refine ⟨values, hvalues, ?_⟩
    rw [keyFromValues, if_pos hlength, hmap]
    rfl
  · rintro ⟨values, hvalues, hkey⟩
    rw [keyOf, mapM_keyPartOf_iff.2 ⟨values, hvalues, (keyFromValues_eq_ok hkey).2⟩]
    rfl

/-- A row has in its key columns what its key says. -/
theorem map_getElem?_of_keyOf_eq_ok (h : s.keyOf row = .ok key) :
    s.primaryKey.map (row[·]?) = key.parts.map (some ·.toValue) := by
  obtain ⟨values, hvalues, hkey⟩ := keyOf_eq_ok_iff.1 h
  rw [hvalues, ← map_toValue_of_keyFromValues hkey, List.map_map]
  rfl

/-- As a row, a key has its parts in the key columns. -/
theorem map_getElem?_keyToRow (hdistinct : s.primaryKey.Nodup) (hlength : key.parts.length = s.primaryKey.length) :
    s.primaryKey.map ((s.keyToRow key)[·]?) = key.parts.map (some ·.toValue) := by
  have hlength' : s.primaryKey.length ≤ (key.parts.map KeyPart.toValue).length := by
    simp [hlength]
  refine List.ext_getElem (by simp [hlength]) fun i hleft hright => ?_
  rw [List.length_map] at hleft hright
  rw [List.getElem_map, List.getElem_map]
  refine Row.getElem?_ofCells_of_mem (by rwa [List.map_fst_zip hlength']) ?_
  refine List.mem_iff_getElem.2 ⟨i, ?_, ?_⟩
  · rw [List.length_zip, List.length_map]
    omega
  · rw [List.getElem_zip, List.getElem_map]

theorem getElem?_keyToRow_of_not_mem (h : name ∉ s.primaryKey) : (s.keyToRow key)[name]? = none := by
  refine Row.getElem?_ofCells_of_not_mem fun hmem => h ?_
  obtain ⟨pair, hpair, rfl⟩ := List.mem_map.1 hmem
  exact (List.of_mem_zip hpair).1

/-- A key has a part for each key column. -/
theorem length_of_keyOf (h : s.keyOf row = .ok key) : key.parts.length = s.primaryKey.length := by
  simpa using (congrArg List.length (map_getElem?_of_keyOf_eq_ok h)).symm

/-- As a row, the key of a row is the row restricted to the key columns. -/
theorem keyToRow_of_keyOf (hdistinct : s.primaryKey.Nodup) (h : s.keyOf row = .ok key) :
    s.keyToRow key = row.filter fun column _ => column ∈ s.primaryKey := by
  refine Std.ExtTreeMap.ext_getElem? fun column => ?_
  rw [Std.ExtTreeMap.getElem?_filter']
  by_cases hcolumn : column ∈ s.primaryKey
  · have hsame := (map_getElem?_keyToRow hdistinct (length_of_keyOf h)).trans (map_getElem?_of_keyOf_eq_ok h).symm
    rw [List.map_inj_left.1 hsame column hcolumn]
    cases row[column]? with
    | none => rfl
    | some value => simp [Option.filter, hcolumn]
  · rw [getElem?_keyToRow_of_not_mem hcolumn]
    simp [hcolumn]

/-- A key made from values is the key of the row that it stands for. -/
theorem keyOf_keyToRow (hdistinct : s.primaryKey.Nodup) (h : s.keyFromValues values = .ok key) :
    s.keyOf (s.keyToRow key) = .ok key := by
  have hvalues := map_toValue_of_keyFromValues h
  have hlength : key.parts.length = s.primaryKey.length := by
    rw [← (keyFromValues_eq_ok h).1, ← hvalues, List.length_map]
  refine keyOf_eq_ok_iff.2 ⟨values, ?_, h⟩
  rw [map_getElem?_keyToRow hdistinct hlength, ← hvalues, List.map_map]
  rfl

/-- Rows with keys have the same one precisely if they agree on the key columns. -/
theorem keyOf_eq_keyOf_iff {key' : RowKey} (h : s.keyOf row = .ok key) (h' : s.keyOf row' = .ok key') :
    s.keyOf row = s.keyOf row' ↔ ∀ column ∈ s.primaryKey, row[column]? = row'[column]? := by
  rw [← List.map_inj_left]
  constructor
  · intro heq
    cases h.symm.trans (heq.trans h')
    rw [map_getElem?_of_keyOf_eq_ok h, map_getElem?_of_keyOf_eq_ok h']
  · intro hsame
    obtain ⟨values, hvalues, hkey⟩ := keyOf_eq_ok_iff.1 h
    rw [h, keyOf_eq_ok_iff.2 ⟨values, hsame ▸ hvalues, hkey⟩]

/-- A complete row has a key. -/
theorem exists_keyOf_of_validateRow (hs : s.validate = .ok ()) (hrow : s.validateRow row = .ok ()) :
    ∃ key, s.keyOf row = .ok key := by
  obtain ⟨hfit, hcomplete⟩ := (validateRow_eq_ok_iff (distinct_of_validate hs)).1 hrow
  refine exists_keyOf hs hfit fun name hname => ?_
  obtain ⟨column, hcolumn, -, hnullable⟩ := keyColumn_of_validate hs hname
  obtain ⟨hmem, rfl⟩ := (column?_eq_some_iff (distinct_of_validate hs)).1 hcolumn
  exact hcomplete column hmem hnullable

/-- **The ways to form a key agree, and keys identify rows.**  Under a valid schema every complete row has a
key.  It is the key made from the row's values in key order, and as a row it is the row restricted to the key
columns.  A key made from values is the key of its row; from values a key is made precisely if there is one
for each key column, not null and of its type.  Two complete rows have one key precisely if they agree on
every key column. -/
theorem keys_identify_rows (hs : s.validate = .ok ()) :
    (∀ row : Row, s.validateRow row = .ok () → ∃ (key : RowKey) (values : List Value),
      s.keyOf row = .ok key ∧ s.primaryKey.map (row[·]?) = values.map some ∧
      s.keyFromValues values = .ok key ∧
      s.keyToRow key = row.filter fun column _ => column ∈ s.primaryKey) ∧
    (∀ (values : List Value) (key : RowKey), s.keyFromValues values = .ok key →
      s.keyOf (s.keyToRow key) = .ok key) ∧
    (∀ values : List Value, (∃ key, s.keyFromValues values = .ok key) ↔
      values.length = s.primaryKey.length ∧ ∀ pair ∈ s.primaryKey.zip values,
        ∃ column ∈ s.columns, column.name = pair.1 ∧ pair.2.fieldType? = some column.type) ∧
    ∀ row row' : Row, s.validateRow row = .ok () → s.validateRow row' = .ok () →
      (s.keyOf row = s.keyOf row' ↔ ∀ column ∈ s.primaryKey, row[column]? = row'[column]?) := by
  have hformed := wellFormed_of_validate hs
  have hdistinct : s.primaryKey.Nodup := hformed.distinct.sublist hformed.ordered
  refine ⟨fun row hrow => ?_, fun values key hkey => keyOf_keyToRow hdistinct hkey,
    fun values => exists_keyFromValues_iff hs, fun row row' hrow hrow' => ?_⟩
  · obtain ⟨key, hkey⟩ := exists_keyOf_of_validateRow hs hrow
    obtain ⟨values, hvalues, hkey'⟩ := keyOf_eq_ok_iff.1 hkey
    exact ⟨key, values, hkey, hvalues, hkey', keyToRow_of_keyOf hdistinct hkey⟩
  · obtain ⟨key, hkey⟩ := exists_keyOf_of_validateRow hs hrow
    obtain ⟨key', hkey'⟩ := exists_keyOf_of_validateRow hs hrow'
    exact keyOf_eq_keyOf_iff hkey hkey'

/-- A table of readings, by sensor and time. -/
def readings : TableSchema where
  name := "readings"
  columns := [⟨"sensor", .string, false⟩, ⟨"unit", .string, true⟩, ⟨"at", .long, false⟩, ⟨"value", .double, true⟩]
  primaryKey := ["sensor", "at"]
  indexes := ["unit"]

def reading : Row := .ofCells [("at", .long 12), ("sensor", .string "roof"), ("value", .double 0)]

/-- The same reading without its value. -/
def emptied : Row := .ofCells [("at", .long 12), ("sensor", .string "roof"), ("unit", .null)]

def later : Row := .ofCells [("at", .long 13), ("sensor", .string "roof")]

/-- The key of a reading is made of its sensor and its time, whatever else there is in the row. -/
theorem keys_identify_rows_readings : readings.validate = .ok () ∧
    readings.validateRow reading = .ok () ∧ readings.validateRow emptied = .ok () ∧
    readings.validateRow later = .ok () ∧
    (∃ key, readings.keyOf reading = .ok key ∧ key = ⟨[.string "roof", .long 12]⟩ ∧
      readings.keyToRow key = reading.filter (fun column _ => column ∈ ["sensor", "at"]) ∧
      readings.keyOf (readings.keyToRow key) = .ok key) ∧
    readings.keyOf reading = readings.keyOf emptied ∧ readings.keyOf reading ≠ readings.keyOf later ∧
    ¬ ∃ key, readings.keyFromValues [.string "roof", .null] = .ok key := by
  obtain ⟨hkeyed, hback, hvalues, hsame⟩ := keys_identify_rows (s := readings) rfl
  obtain ⟨key, values, hkey, -, hmade, hrestricted⟩ := hkeyed reading rfl
  cases hkey.symm.trans (show readings.keyOf reading = .ok ⟨[.string "roof", .long 12]⟩ from rfl)
  refine ⟨rfl, rfl, rfl, rfl, ⟨_, hkey, rfl, hrestricted, hback values _ hmade⟩,
    (hsame reading emptied rfl rfl).2 (by decide), mt (hsame reading later rfl rfl).1 (by decide), ?_⟩
  rw [hvalues]
  decide

end TableSchema

end Tabular
