import Tabular.Proofs.Engine.Backend
import Tabular.Proofs.Runner.Held
import Tabular.Proofs.Versioned.Visible

/-!
# Tabular.Proofs.Engine.Stock — what a versioned store has in stock between transactions

`Stocked listed stored limit s` says that a versioned store has the tables `stored`, as seen by everyone who
sees all versions below `limit`, and the registry entries of `listed`.  Each step of a definition keeps it.
`Writes` says that a transaction has written what its participants hold back; main statement:
`Stocked.commit`, then the store has the changed rows in stock.
-/

namespace Tabular

/-- A map is what its entries make. -/
theorem ofList_toList (rows : Rows) : Std.ExtTreeMap.ofList rows.toList compare = rows := by
  refine Std.ExtTreeMap.ext_getElem? fun key => ?_
  cases hkey : rows[key]? with
  | some row =>
    exact Std.ExtTreeMap.getElem?_ofList_of_mem Std.compare_self Std.ExtTreeMap.distinct_keys_toList
      (Std.ExtTreeMap.mem_toList_iff_getElem?_eq_some.2 hkey)
  | none =>
    refine Std.ExtTreeMap.getElem?_ofList_of_contains_eq_false ?_
    simpa [Std.ExtTreeMap.map_fst_toList_eq_keys, Std.ExtTreeMap.contains_keys] using hkey

namespace VersionedStore

variable {s s' s'' : VersionedStore} {name : String} {key : RowKey} {version : Nat}

/-! ### Writing what is held back -/

/-- Whether a store differs from the one before in nothing but cells of a version, which are those held
back; those of some rows are. -/
structure Writes (participants : Participants) (version : Nat) (s s' : VersionedStore)
    (rows : Change → Prop) : Prop where
  metadata : s'.metadata = s.metadata
  mem_tables : ∀ table, table ∈ s'.tables ↔ table ∈ s.tables
  others : ∀ row q, q ≠ version → s'.cell? row q = s.cell? row q
  wrote : Cells.Wrote participants rows (s.cell? · version) (s'.cell? · version)
  all : ∀ row, rows row → s'.cell? row version = Cells.held participants row

namespace Writes

variable {participants : Participants} {rows rows' : Change → Prop}

theorem nothing : Writes participants version s s fun _ => False where
  metadata := rfl
  mem_tables _ := Iff.rfl
  others _ _ _ := rfl
  wrote _ := .inl rfl
  all _ h := h.elim

theorem trans (h : Writes participants version s s' rows) (h' : Writes participants version s' s'' rows') :
    Writes participants version s s'' fun row => rows row ∨ rows' row where
  metadata := h'.metadata.trans h.metadata
  mem_tables table := (h'.mem_tables table).trans (h.mem_tables table)
  others row q hq := (h'.others row q hq).trans (h.others row q hq)
  wrote := h.wrote.trans h'.wrote
  all row hrow := hrow.elim (fun hrow => h'.wrote.eq_held (h.all row hrow)) (h'.all row)

theorem mono (h : Writes participants version s s' rows) (hrows : ∀ row, rows row ↔ rows' row) :
    Writes participants version s s' rows' where
  metadata := h.metadata
  mem_tables := h.mem_tables
  others := h.others
  wrote := h.wrote.mono fun row => (hrows row).1
  all row hrow := h.all row ((hrows row).2 hrow)

/-- Writing one cell that is held back. -/
theorem one {cell : Option Row} (hheld : Cells.held participants ⟨name, key⟩ = some cell)
    (h : s.perform (.write name key version cell) = .ok ((), s')) (hmetadata : s'.metadata = s.metadata) :
    Writes participants version s s' (· = ⟨name, key⟩) := by
  obtain ⟨hcells, htables⟩ := cell?_write h
  refine ⟨hmetadata, htables, fun row q hq => ?_, fun row => ?_, fun row hrow => ?_⟩
  · rw [hcells, if_neg fun h => hq h.2]
  · by_cases hrow : row = ⟨name, key⟩
    · exact .inr ⟨by simp [hcells, hrow, hheld], hrow⟩
    · exact .inl (by simp [hcells, hrow])
  · rw [hcells, if_pos ⟨hrow, rfl⟩, hrow, hheld]

/-- Where there were no cells of the version, there are those that are held back. -/
theorem cell?_eq_held (h : Writes participants version s s' rows)
    (hnew : ∀ row, s.cell? row version = none)
    (hall : ∀ row, (Cells.held participants row).isSome → rows row) (row : Change) :
    s'.cell? row version = Cells.held participants row := by
  cases hheld : Cells.held participants row with
  | some cell => rw [h.all row (hall row (by rw [hheld]; rfl)), hheld]
  | none =>
    rcases h.wrote row with heq | ⟨heq, -⟩
    · exact heq.trans (hnew row)
    · exact heq.trans hheld

end Writes

end VersionedStore

namespace Bench

/-- Whether a versioned store has the given tables, for those who see every version below the limit. -/
structure Stocked (listed : Schemas) (stored : Stored) (limit : Nat) (s : VersionedStore) : Prop where
  registered : ∀ table, (s.metadata[Catalog.entryKey table]?).isSome = (listed table).isSome
  mem_tables : ∀ table, table ∈ s.tables ↔ (stored table).isSome
  below : ∀ row q, (s.cell? row q).isSome → q < limit
  rows : ∀ {table : String} {rows : Rows}, stored table = some rows → ∀ key tx,
    (∀ q < limit, tx.isVisible q = true) → s.row? ⟨table, key⟩ tx = rows[key]?

namespace Stocked

variable {listed : Schemas} {stored stored' : Stored} {limit limit' : Nat} {s s' : VersionedStore}
  {table : String}

theorem mono (h : Stocked listed stored limit s) (hlimit : limit ≤ limit') :
    Stocked listed stored limit' s where
  registered := h.registered
  mem_tables := h.mem_tables
  below row q hq := Nat.lt_of_lt_of_le (h.below row q hq) hlimit
  rows hrows key tx hvisible := h.rows hrows key tx fun q hq => hvisible q (Nat.lt_of_lt_of_le hq hlimit)

/-- One table is created without rows, or dropped. -/
theorem restock (h : Stocked listed stored limit s) {cell : Option Rows} (hempty : ∀ rows ∈ cell, rows = ∅)
    (hmetadata : s'.metadata = s.metadata) (hself : table ∈ s'.tables ↔ cell.isSome)
    (hmem : ∀ other, other ≠ table → (other ∈ s'.tables ↔ other ∈ s.tables))
    (hgone : ∀ row : Change, row.table = table → s'.versions row = ∅)
    (hothers : ∀ row : Change, row.table ≠ table → s'.versions row = s.versions row) :
    Stocked listed (Function.update stored table cell) limit s' := by
  refine ⟨fun other => ?_, fun other => ?_, fun row q hq => ?_, fun {other rows} hrows key tx hvisible => ?_⟩
  · rw [hmetadata, h.registered]
  · by_cases hother : other = table
    · rw [hother, hself, Function.update_self]
    · rw [hmem other hother, h.mem_tables, Function.update_of_ne hother]
  · rw [VersionedStore.cell?] at hq
    by_cases hrow : row.table = table
    · simp [hgone row hrow] at hq
    · rw [hothers row hrow] at hq
      exact h.below row q hq
  · by_cases hother : other = table
    · rw [hother, Function.update_self] at hrows
      rw [VersionedStore.row?, hgone ⟨other, key⟩ hother, hempty rows hrows]
      exact (Versions.visible?_of_hidden fun q hq => by simp at hq).trans (by simp)
    · rw [Function.update_of_ne hother] at hrows
      rw [VersionedStore.row?, hothers ⟨other, key⟩ hother]
      exact h.rows hrows key tx hvisible

theorem create (h : Stocked listed stored limit s) (hnone : stored table = none) :
    s.perform (.createTable table) = .ok ((), { s with tables := s.tables.insert table ∅ }) ∧
      Stocked listed (Function.update stored table (some ∅)) limit
        { s with tables := s.tables.insert table ∅ } := by
  have hmem : table ∉ s.tables := by simp [h.mem_tables, hnone]
  constructor
  · rw [VersionedStore.perform, VersionedStore.createTable, if_neg hmem]
    rfl
  refine h.restock (by simp) rfl (by simp) (fun other hother => by simp [Ne.symm hother]) ?_ ?_
  · rintro row rfl
    simp [VersionedStore.versions, VersionedTable.versions]
  · intro row hrow
    simp [VersionedStore.versions, Std.ExtTreeMap.getD_insert, Ne.symm hrow]

theorem drop (h : Stocked listed stored limit s) (hsome : (stored table).isSome) :
    s.perform (.dropTable table) = .ok ((), { s with tables := s.tables.erase table }) ∧
      Stocked listed (Function.update stored table none) limit { s with tables := s.tables.erase table } := by
  have hmem : table ∈ s.tables := (h.mem_tables table).2 hsome
  constructor
  · rw [VersionedStore.perform, VersionedStore.dropTable, if_pos hmem]
    rfl
  refine h.restock (by simp) rfl (by simp) (fun other hother => by simp [Ne.symm hother]) ?_ ?_
  · rintro row rfl
    simp [VersionedStore.versions, VersionedTable.versions]
  · intro row hrow
    simp [VersionedStore.versions, Std.ExtTreeMap.getD_erase, Ne.symm hrow]

theorem entryKey_inj {table other : String} : Catalog.entryKey table = Catalog.entryKey other ↔ table = other :=
  String.append_right_inj Catalog.entryStart

/-- One entry of the registry is added or removed. -/
theorem relist (h : Stocked listed stored limit s) (table : String) {listed' : Schemas}
    {metadata : Std.ExtTreeMap String String}
    (hself : (metadata[Catalog.entryKey table]?).isSome = (listed' table).isSome)
    (hentries : ∀ key, key ≠ Catalog.entryKey table → metadata[key]? = s.metadata[key]?)
    (hlisted : ∀ other, other ≠ table → listed' other = listed other) :
    Stocked listed' stored limit { s with metadata } := by
  refine ⟨fun other => ?_, h.mem_tables, h.below, h.rows⟩
  by_cases hother : other = table
  · rw [hother, hself]
  · rw [hentries _ fun heq => hother (entryKey_inj.1 heq), h.registered, hlisted other hother]

theorem register (h : Stocked listed stored limit s) (schema : TableSchema)
    (hnone : listed schema.name = none) (document : String) :
    ∃ metadata, s.perform (.metadataAdd (Catalog.entryKey schema.name) document) =
        .ok (true, { s with metadata }) ∧
      Stocked (Function.update listed schema.name (some ⟨schema, rfl⟩)) stored limit
        { s with metadata } := by
  have hmem : Catalog.entryKey schema.name ∉ s.metadata := by
    rw [Std.ExtTreeMap.mem_iff_isSome_getElem?, h.registered, hnone]
    exact Bool.false_ne_true
  refine ⟨s.metadata.insert (Catalog.entryKey schema.name) document, if_neg hmem,
    h.relist schema.name (by simp) (fun key hkey => ?_) fun other hother => Function.update_of_ne hother _ _⟩
  rw [Std.ExtTreeMap.getElem?_insert, if_neg (by simpa using hkey.symm)]

theorem remove (h : Stocked listed stored limit s) (hsome : (listed table).isSome) :
    ∃ metadata, s.perform (.metadataDelete (Catalog.entryKey table)) = .ok (true, { s with metadata }) ∧
      Stocked (Function.update listed table none) stored limit { s with metadata } := by
  have hmem : Catalog.entryKey table ∈ s.metadata := by
    rw [Std.ExtTreeMap.mem_iff_isSome_getElem?, h.registered, hsome]
  refine ⟨s.metadata.erase (Catalog.entryKey table), ?_,
    h.relist table (by simp) (fun key hkey => ?_) fun other hother => Function.update_of_ne hother _ _⟩
  · simp [VersionedStore.perform, hmem]
  · rw [Std.ExtTreeMap.getElem?_erase, if_neg (by simpa using hkey.symm)]

/-- A transaction that has written what it held back has changed the rows so. -/
theorem commit {participants : Participants} {version : Nat} {written : Change → Prop}
    (h : Stocked listed stored limit s) (hwrites : s.Writes participants version s' written)
    (hall : ∀ row, (Cells.held participants row).isSome → written row) (hversion : limit ≤ version)
    (hlimit : version < limit') (hsome : ∀ table, (stored' table).isSome = (stored table).isSome)
    (hrows : ∀ {table rows rows'}, stored table = some rows → stored' table = some rows' → ∀ key : RowKey,
      rows'[key]? = (Cells.held participants ⟨table, key⟩).getD rows[key]?) :
    Stocked listed stored' limit' s' := by
  have hnew : ∀ row, s.cell? row version = none := by
    intro row
    rw [Option.eq_none_iff_forall_ne_some]
    intro cell hcell
    have := h.below row version (by rw [hcell]; rfl)
    omega
  have hcell : ∀ row, s'.cell? row version = Cells.held participants row := hwrites.cell?_eq_held hnew hall
  have hbelow : ∀ row q, (s'.cell? row q).isSome → q ≤ version := by
    intro row q hq
    by_cases hqv : q = version
    · omega
    · rw [hwrites.others row q hqv] at hq
      have := h.below row q hq
      omega
  refine ⟨fun table => ?_, fun table => ?_, fun row q hq => ?_, fun {table rows'} hrows' key tx hvisible => ?_⟩
  · rw [hwrites.metadata, h.registered]
  · rw [hwrites.mem_tables, h.mem_tables, hsome]
  · exact Nat.lt_of_le_of_lt (hbelow row q hq) hlimit
  · obtain ⟨rows, hstored⟩ := Option.isSome_iff_exists.1 ((hsome table).symm.trans (by rw [hrows']; rfl))
    rw [hrows hstored hrows' key]
    cases hheld : Cells.held participants ⟨table, key⟩ with
    | some cell =>
      exact VersionedStore.row?_of_newest ((hcell _).trans hheld) (hvisible version hlimit)
        fun q hq _ => hbelow _ q hq
    | none =>
      refine Eq.trans (VersionedStore.row?_congr fun q cell => ?_)
        (h.rows hstored key tx fun q hq => hvisible q (by omega))
      by_cases hqv : q = version
      · rw [hqv, hcell, hheld, hnew]
      · rw [hwrites.others _ q hqv]

end Stocked

end Bench

end Tabular
