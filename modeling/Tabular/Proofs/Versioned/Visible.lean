import Tabular.Changes
import Tabular.Versioned.Basic

/-!
# Tabular.Proofs.Versioned.Visible — the cells of a store, and what a transaction sees of them

`VersionedStore.cell?` is the cell of a row at a version, `VersionedStore.row?` the row that a
transaction sees.  A transaction sees the newest of its visible cells (`row?_of_newest`), so that cells
it does not see never matter to it (`row?_congr`).  Writing and undoing change one cell
(`cell?_write`, `cell?_undo`).
-/

namespace Tabular

namespace Versions

variable {versions versions' : Versions} {tx tx' : Transaction} {p : Nat} {cell : Option Row}

/-- Whether a cell is the one of the largest version that a transaction sees. -/
def Newest (versions : Versions) (tx : Transaction) (p : Nat) (cell : Option Row) : Prop :=
  versions[p]? = some cell ∧ tx.isVisible p = true ∧
    ∀ q, versions[q]?.isSome → tx.isVisible q = true → q ≤ p

theorem pairwise_toList (versions : Versions) :
    versions.toList.Pairwise fun older newer => older.1 < newer.1 := by
  have hordered := Std.ExtTreeMap.ordered_keys_toList (t := versions)
  exact hordered.imp fun h => Nat.compare_eq_lt.1 h

theorem isSome_getElem?_of_mem_toList {entry : Nat × Option Row} (h : entry ∈ versions.toList) :
    versions[entry.1]?.isSome := by
  have h' : (entry.1, entry.2) ∈ versions.toList := h
  rw [Std.ExtTreeMap.mem_toList_iff_getElem?_eq_some.1 h']
  rfl

/-- The search from the largest version down finds the newest visible cell. -/
theorem find?_eq_some_iff_newest :
    versions.toList.reverse.find? (fun entry => tx.isVisible entry.1) = some (p, cell) ↔
      versions.Newest tx p cell := by
  have hsorted := versions.pairwise_toList
  constructor
  · intro h
    obtain ⟨hvisible, newer, older, hlist, hnewer⟩ := List.find?_eq_some_iff_append.1 h
    have hlist := congrArg List.reverse hlist
    simp only [List.reverse_reverse, List.reverse_append, List.reverse_cons, List.append_assoc,
      List.singleton_append] at hlist
    rw [hlist] at hsorted
    refine ⟨Std.ExtTreeMap.mem_toList_iff_getElem?_eq_some.1 (by simp [hlist]), hvisible, ?_⟩
    intro q hq hqvisible
    obtain ⟨other, hother⟩ := Option.isSome_iff_exists.1 hq
    have hmem := Std.ExtTreeMap.mem_toList_iff_getElem?_eq_some.2 hother
    rw [hlist, List.mem_append, List.mem_cons] at hmem
    rcases hmem with hmem | hmem | hmem
    · exact Nat.le_of_lt ((List.pairwise_append.1 hsorted).2.2 _ hmem _ List.mem_cons_self)
    · cases hmem
      exact Nat.le_refl p
    · have := hnewer _ (List.mem_reverse.1 hmem)
      simp [hqvisible] at this
  · rintro ⟨hcell, hvisible, hnewest⟩
    obtain ⟨older, newer, hlist⟩ :=
      List.append_of_mem (Std.ExtTreeMap.mem_toList_iff_getElem?_eq_some.2 hcell)
    refine List.find?_eq_some_iff_append.2 ⟨hvisible, newer.reverse, older.reverse, ?_, ?_⟩
    · simp [hlist]
    · intro entry hentry
      have hentry := List.mem_reverse.1 hentry
      have hmem : entry ∈ versions.toList := by simp [hlist, hentry]
      rw [hlist] at hsorted
      have hlt := (List.pairwise_cons.1 (List.pairwise_append.1 hsorted).2.1).1 entry hentry
      rw [Bool.not_eq_true', Bool.eq_false_iff]
      intro hentryVisible
      have := hnewest _ (isSome_getElem?_of_mem_toList hmem) hentryVisible
      omega

theorem visible?_of_newest (h : versions.Newest tx p cell) : versions.visible? tx = cell := by
  rw [visible?, find?_eq_some_iff_newest.2 h]
  rfl

theorem visible?_of_hidden (h : ∀ q, versions[q]?.isSome → tx.isVisible q = false) :
    versions.visible? tx = none := by
  rw [visible?, List.find?_eq_none.2 _]
  · rfl
  · intro entry hentry
    simp [h _ (isSome_getElem?_of_mem_toList (List.mem_reverse.1 hentry))]

/-- A transaction sees the newest of its visible cells, and nothing if there is none. -/
theorem visible?_cases (versions : Versions) (tx : Transaction) :
    (∃ p, versions.Newest tx p (versions.visible? tx)) ∨
      versions.visible? tx = none ∧ ∀ p, tx.isVisible p = true → versions[p]? = none := by
  cases hfind : versions.toList.reverse.find? (fun entry => tx.isVisible entry.1) with
  | some entry =>
    have hnewest := find?_eq_some_iff_newest.1 hfind
    exact .inl ⟨entry.1, by rwa [visible?_of_newest hnewest]⟩
  | none =>
    refine .inr ⟨by rw [visible?, hfind]; rfl, fun p hvisible => ?_⟩
    rw [Option.eq_none_iff_forall_ne_some]
    intro cell hcell
    have hmem := Std.ExtTreeMap.mem_toList_iff_getElem?_eq_some.2 hcell
    exact List.find?_eq_none.1 hfind _ (List.mem_reverse.2 hmem) hvisible

/-- Cells that a transaction does not see do not matter to it. -/
theorem visible?_congr (h : ∀ q cell, (versions[q]? = some cell ∧ tx.isVisible q = true) ↔
    (versions'[q]? = some cell ∧ tx'.isVisible q = true)) :
    versions.visible? tx = versions'.visible? tx' := by
  rcases versions.visible?_cases tx with ⟨p, hcell, hvisible, hnewest⟩ | ⟨hnone, hhidden⟩
  · obtain ⟨hcell', hvisible'⟩ := (h _ _).1 ⟨hcell, hvisible⟩
    refine (visible?_of_newest ⟨hcell', hvisible', fun q hq hqvisible => ?_⟩).symm
    obtain ⟨other, hother⟩ := Option.isSome_iff_exists.1 hq
    obtain ⟨hq, hqvisible⟩ := (h q other).2 ⟨hother, hqvisible⟩
    exact hnewest q (by rw [hq]; rfl) hqvisible
  · rw [hnone, visible?_of_hidden]
    intro q hq
    obtain ⟨cell, hcell⟩ := Option.isSome_iff_exists.1 hq
    rw [Bool.eq_false_iff]
    intro hvisible
    obtain ⟨hcell', hvisible'⟩ := (h q cell).2 ⟨hcell, hvisible⟩
    rw [hhidden q hvisible'] at hcell'
    cases hcell'

end Versions

namespace VersionedTable

theorem versions_setVersions (t : VersionedTable) (key other : RowKey) (versions : Versions) :
    (t.setVersions key versions).versions other = if key = other then versions else t.versions other := by
  by_cases hempty : versions.isEmpty
  · have hnone : versions = ∅ := Std.ExtTreeMap.isEmpty_iff.1 hempty
    simp [setVersions, VersionedTable.versions, hnone, Std.ExtTreeMap.getD_erase]
  · simp [setVersions, VersionedTable.versions, hempty, Std.ExtTreeMap.getD_insert]

end VersionedTable

namespace VersionedStore

variable {s s' : VersionedStore} {tx tx' : Transaction} {row : Change} {p : Nat} {cell : Option Row}

/-- The cells of a row by version; a table that is missing has none. -/
def versions (s : VersionedStore) (row : Change) : Versions :=
  (s.tables.getD row.table ∅).versions row.key

/-- The cell of a row at a version. -/
def cell? (s : VersionedStore) (row : Change) (version : Nat) : Option (Option Row) :=
  (s.versions row)[version]?

/-- What a transaction sees of a row. -/
def row? (s : VersionedStore) (row : Change) (tx : Transaction) : Option Row :=
  (s.versions row).visible? tx

theorem row?_of_newest (hcell : s.cell? row p = some cell) (hvisible : tx.isVisible p = true)
    (hnewest : ∀ q, (s.cell? row q).isSome → tx.isVisible q = true → q ≤ p) :
    s.row? row tx = cell :=
  Versions.visible?_of_newest ⟨hcell, hvisible, hnewest⟩

theorem row?_congr (h : ∀ q cell, (s.cell? row q = some cell ∧ tx.isVisible q = true) ↔
    (s'.cell? row q = some cell ∧ tx'.isVisible q = true)) : s.row? row tx = s'.row? row tx' :=
  Versions.visible?_congr h

/-! ### The calls of a transaction -/

theorem table_eq_ok_iff {name : String} {t : VersionedTable} :
    s.table name = .ok t ↔ s.tables[name]? = some t := by
  unfold table
  split <;> simp_all

theorem table_eq_error {name : String} (h : s.tables[name]? = none) :
    s.table name = .error (.tableNotFound name) := by
  rw [table, h]

theorem perform_read_of_mem (key : RowKey) {name : String} (h : name ∈ s.tables) :
    s.perform (.read name key tx) = .ok (s.row? ⟨name, key⟩ tx, s) := by
  obtain ⟨t, ht⟩ := Option.isSome_iff_exists.1 (Std.ExtTreeMap.mem_iff_isSome_getElem?.1 h)
  have hread : s.row? ⟨name, key⟩ tx = t.read key tx := by
    simp [row?, versions, VersionedTable.read, Std.ExtTreeMap.getD_eq_getD_getElem?, ht]
  rw [hread]
  show (do return ((← s.table name).read key tx, s)) = _
  rw [table_eq_ok_iff.2 ht]
  rfl

theorem perform_read_of_not_mem (key : RowKey) {name : String} (h : name ∉ s.tables) :
    s.perform (.read name key tx) = .error (.tableNotFound name) := by
  show (do return ((← s.table name).read key tx, s)) = _
  rw [table_eq_error (by simpa using h)]
  rfl

theorem perform_read {name : String} {key : RowKey} {answer : Option Row}
    (h : s.perform (.read name key tx) = .ok (answer, s')) :
    s' = s ∧ answer = s.row? ⟨name, key⟩ tx := by
  by_cases hmem : name ∈ s.tables
  · rw [perform_read_of_mem key hmem] at h
    cases h
    exact ⟨rfl, rfl⟩
  · rw [perform_read_of_not_mem key hmem] at h
    cases h

/-- The rows of a table that a transaction sees, by key. -/
theorem getElem?_filterMap_visible? (t : VersionedTable) (tx : Transaction) (key : RowKey) :
    (t.filterMap fun _ versions => versions.visible? tx)[key]? = (t.versions key).visible? tx := by
  rw [Std.ExtTreeMap.getElem?_filterMap', VersionedTable.versions, Std.ExtTreeMap.getD_eq_getD_getElem?]
  cases t[key]? with
  | some versions => rfl
  | none => rfl

/-- A scan answers the rows that a transaction sees. -/
theorem perform_scan_of_mem (tx : Transaction) {name : String} (h : name ∈ s.tables) :
    ∃ rows : Rows, s.perform (.scan name tx) = .ok (rows.toList, s) ∧
      ∀ key : RowKey, rows[key]? = s.row? ⟨name, key⟩ tx := by
  obtain ⟨t, ht⟩ := Option.isSome_iff_exists.1 (Std.ExtTreeMap.mem_iff_isSome_getElem?.1 h)
  refine ⟨t.filterMap fun _ versions => versions.visible? tx, ?_, fun key => ?_⟩
  · rw [Std.ExtTreeMap.toList_filterMap]
    show (do return ((← s.table name).scan tx, s)) = _
    rw [table_eq_ok_iff.2 ht]
    rfl
  · rw [getElem?_filterMap_visible?, row?, versions, Std.ExtTreeMap.getD_eq_getD_getElem?, ht]
    rfl

theorem perform_scan_of_not_mem {name : String} (h : name ∉ s.tables) :
    s.perform (.scan name tx) = .error (.tableNotFound name) := by
  show (do return ((← s.table name).scan tx, s)) = _
  rw [table_eq_error (by simpa using h)]
  rfl

theorem perform_scan {name : String} {answer : List (RowKey × Row)}
    (h : s.perform (.scan name tx) = .ok (answer, s')) : s' = s := by
  by_cases hmem : name ∈ s.tables
  · obtain ⟨rows, hscan, -⟩ := perform_scan_of_mem tx hmem
    rw [hscan] at h
    cases h
    rfl
  · rw [perform_scan_of_not_mem hmem] at h
    cases h

section Altered

variable {name : String} {key : RowKey} {change : VersionedTable → VersionedTable}
  {versions : Versions}

theorem alter_eq_ok_iff : s.alter name change = .ok s' ↔
    ∃ t, s.tables[name]? = some t ∧ s' = { s with tables := s.tables.insert name (change t) } := by
  unfold alter
  cases ht : s.tables[name]? with
  | some t =>
    rw [table_eq_ok_iff.2 ht]
    constructor
    · rintro h
      cases h
      exact ⟨t, rfl, rfl⟩
    · rintro ⟨_, ⟨⟩, rfl⟩
      rfl
  | none =>
    rw [table_eq_error ht]
    constructor
    · exact nofun
    · rintro ⟨_, ⟨⟩, -⟩

/-- Replacing the cells of a key changes those of no other row, and adds or removes no table. -/
theorem alter_setVersions (edit : Versions → Versions)
    (h : s.alter name (fun t => t.setVersions key (edit (t.versions key))) = .ok s') :
    (∀ row, s'.versions row =
      if row = ⟨name, key⟩ then edit (s.versions row) else s.versions row) ∧
    ∀ table, table ∈ s'.tables ↔ table ∈ s.tables := by
  obtain ⟨t, ht, rfl⟩ := alter_eq_ok_iff.1 h
  have hmem : name ∈ s.tables := Std.ExtTreeMap.mem_iff_isSome_getElem?.2 (by simp [ht])
  constructor
  · rintro ⟨table, k⟩
    by_cases htable : table = name
    · subst htable
      by_cases hkey : k = key
      · simp [VersionedStore.versions, VersionedTable.versions_setVersions, hkey,
          Std.ExtTreeMap.getD_eq_getD_getElem?, ht]
      · have hne : key ≠ k := fun heq => hkey heq.symm
        simp [VersionedStore.versions, VersionedTable.versions_setVersions, hkey, hne,
          Std.ExtTreeMap.getD_eq_getD_getElem?, ht]
    · have hne : name ≠ table := fun heq => htable heq.symm
      simp [VersionedStore.versions, htable, hne, Std.ExtTreeMap.getD_insert]
  · intro table
    simp only [Std.ExtTreeMap.mem_insert, Std.compare_eq_iff_eq]
    constructor
    · rintro (rfl | h)
      · exact hmem
      · exact h
    · exact Or.inr

end Altered

section Edits

variable {name : String} {key : RowKey} {version : Nat}

theorem eq_ok_of_answered {x : Except StoreError VersionedStore} {u : Unit}
    (h : ((), ·) <$> x = .ok (u, s')) : x = .ok s' := by
  cases x with
  | error e => cases h
  | ok t =>
    cases h
    rfl

/-- An edit of the cells of a key at one version changes no other cell. -/
theorem cell?_of_alter (edit : Versions → Versions) {content : Option (Option Row)}
    (hself : ∀ versions, (edit versions)[version]? = content)
    (hother : ∀ versions p, version ≠ p → (edit versions)[p]? = versions[p]?)
    (h : s.alter name (fun t => t.setVersions key (edit (t.versions key))) = .ok s') :
    (∀ row p, s'.cell? row p =
      if row = ⟨name, key⟩ ∧ p = version then content else s.cell? row p) ∧
    ∀ table, table ∈ s'.tables ↔ table ∈ s.tables := by
  obtain ⟨hversions, htables⟩ := alter_setVersions edit h
  refine ⟨fun row p => ?_, htables⟩
  rw [cell?, hversions]
  by_cases hrow : row = ⟨name, key⟩
  · by_cases hp : p = version
    · simp [hrow, hp, hself]
    · have hne : version ≠ p := fun heq => hp heq.symm
      simp [hrow, hp, hother _ p hne, cell?]
  · simp [hrow, cell?]

/-- Writing puts one cell in place. -/
theorem cell?_write {u : Unit} (h : s.perform (.write name key version cell) = .ok (u, s')) :
    (∀ row p, s'.cell? row p =
      if row = ⟨name, key⟩ ∧ p = version then some cell else s.cell? row p) ∧
    ∀ table, table ∈ s'.tables ↔ table ∈ s.tables := by
  have h' : s.alter name (fun t => t.setVersions key ((t.versions key).insert version cell)) =
      .ok s' :=
    eq_ok_of_answered h
  refine cell?_of_alter (·.insert version cell) (fun _ => Std.ExtTreeMap.getElem?_insert_self) ?_ h'
  intro versions p hne
  simp [Std.ExtTreeMap.getElem?_insert, hne]

/-- Writing puts one cell in place, in a table that is there. -/
theorem perform_write_of_mem (key : RowKey) (version : Nat) (cell : Option Row) (h : name ∈ s.tables) :
    ∃ s', s.perform (.write name key version cell) = .ok ((), s') ∧ s'.metadata = s.metadata := by
  obtain ⟨t, ht⟩ := Option.isSome_iff_exists.1 (Std.ExtTreeMap.mem_iff_isSome_getElem?.1 h)
  refine ⟨{ s with tables := s.tables.insert name (t.write key version cell) }, ?_, rfl⟩
  show ((), ·) <$> s.alter name _ = _
  rw [alter_eq_ok_iff.2 ⟨t, ht, rfl⟩]
  rfl

/-- Undoing removes one cell. -/
theorem cell?_undo {u : Unit} (h : s.perform (.undo name key version) = .ok (u, s')) :
    (∀ row p, s'.cell? row p =
      if row = ⟨name, key⟩ ∧ p = version then none else s.cell? row p) ∧
    ∀ table, table ∈ s'.tables ↔ table ∈ s.tables := by
  have h' : s.alter name (fun t => t.setVersions key ((t.versions key).erase version)) = .ok s' :=
    eq_ok_of_answered h
  refine cell?_of_alter (·.erase version) (fun _ => Std.ExtTreeMap.getElem?_erase_self) ?_ h'
  intro versions p hne
  simp [Std.ExtTreeMap.getElem?_erase, hne]

end Edits

end VersionedStore

end Tabular
