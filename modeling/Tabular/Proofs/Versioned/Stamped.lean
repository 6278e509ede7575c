import Tabular.Proofs.Versioned.Visible

/-!
# Tabular.Proofs.Versioned.Stamped — the cells that one version adds to a store

A store that has come about by calls is `Tidy`: it keeps no key without cells.  Such a store is known by
its metadata, its tables and its cells (`Tidy.eq_of_cell?`).  `Stamped s version rows s'` says that `s'`
is tidy and has what `s` has, besides cells of the version at the given rows.  Writing and undoing a cell
of the version keep this up with the rows (`Stamped.write`, `Stamped.undo`); with no rows left the store
is the one before (`Stamped.eq`).
-/

namespace Tabular

/-! ### Tidy stores -/

namespace VersionedTable

/-- Whether every key of a table has a cell. -/
def Tidy (t : VersionedTable) : Prop := ∀ key : RowKey, t[key]? ≠ some ∅

variable {t t' : VersionedTable}

theorem tidy_empty : Tidy ∅ := by
  intro key
  simp

theorem Tidy.setVersions (h : t.Tidy) (key : RowKey) (versions : Versions) :
    (t.setVersions key versions).Tidy := by
  intro other
  by_cases hempty : versions.isEmpty
  · rw [VersionedTable.setVersions, if_pos hempty, Std.ExtTreeMap.getElem?_erase]
    split
    · simp
    · exact h other
  · rw [VersionedTable.setVersions, if_neg hempty, Std.ExtTreeMap.getElem?_insert]
    split
    · intro heq
      rw [Option.some.inj heq] at hempty
      exact hempty Std.ExtTreeMap.isEmpty_empty
    · exact h other

theorem Tidy.getElem? (h : t.Tidy) (key : RowKey) :
    t[key]? = if t.versions key = ∅ then none else some (t.versions key) := by
  rw [VersionedTable.versions, Std.ExtTreeMap.getD_eq_getD_getElem?]
  cases hkey : t[key]? with
  | none => simp
  | some versions =>
    have hne : versions ≠ ∅ := fun heq => h key (by rw [hkey, heq])
    simp [hne]

/-- A tidy table is known by its cells. -/
theorem Tidy.eq_of_versions (h : t.Tidy) (h' : t'.Tidy) (hversions : ∀ key, t'.versions key = t.versions key) :
    t' = t := by
  refine Std.ExtTreeMap.ext_getElem? fun key => ?_
  rw [h'.getElem?, h.getElem?, hversions]

end VersionedTable

namespace VersionedStore

/-- Whether no table keeps a key without cells. -/
def Tidy (s : VersionedStore) : Prop :=
  ∀ (name : String) (t : VersionedTable), s.tables[name]? = some t → t.Tidy

/-- The stores that come about by calls. -/
inductive Reached : VersionedStore → Prop where
  | empty : Reached { }
  | step {s s' : VersionedStore} {call : VersionedCall} {answer : call.Answer} :
    Reached s → s.perform call = .ok (answer, s') → Reached s'

variable {s s' : VersionedStore} {name : String} {key : RowKey} {version : Nat}

theorem Tidy.insert (h : s.Tidy) {t : VersionedTable} (ht : t.Tidy) :
    Tidy { s with tables := s.tables.insert name t } := by
  intro other t' ht'
  rw [Std.ExtTreeMap.getElem?_insert] at ht'
  split at ht'
  · cases ht'
    exact ht
  · exact h other t' ht'

theorem Tidy.erase (h : s.Tidy) : Tidy { s with tables := s.tables.erase name } := by
  intro other t ht
  rw [Std.ExtTreeMap.getElem?_erase] at ht
  split at ht
  · cases ht
  · exact h other t ht

theorem Tidy.alter (h : s.Tidy) {change : VersionedTable → VersionedTable}
    (hchange : ∀ t : VersionedTable, t.Tidy → (change t).Tidy) (hs : s.alter name change = .ok s') :
    s'.Tidy := by
  obtain ⟨t, ht, rfl⟩ := alter_eq_ok_iff.1 hs
  exact h.insert (hchange t (h name t ht))

/-- No call leaves a key without cells behind. -/
theorem Tidy.perform (h : s.Tidy) {call : VersionedCall} {answer : call.Answer}
    (hs : s.perform call = .ok (answer, s')) : s'.Tidy := by
  cases call with
  | createTable name =>
    have hs := eq_ok_of_answered hs
    rw [createTable] at hs
    split at hs
    · cases hs
    · cases hs
      exact h.insert VersionedTable.tidy_empty
  | dropTable name =>
    have hs := eq_ok_of_answered hs
    rw [dropTable] at hs
    split at hs
    · cases hs
      exact h.erase
    · cases hs
  | write name key version cell => exact h.alter (fun _ ht => ht.setVersions key _) (eq_ok_of_answered hs)
  | undo name key version => exact h.alter (fun _ ht => ht.setVersions key _) (eq_ok_of_answered hs)
  | read name key tx => rwa [(perform_read hs).1]
  | scan name tx => rwa [perform_scan hs]
  | tableExists name => cases hs; exact h
  | metadataGet key => cases hs; exact h
  | metadataKeys start => cases hs; exact h
  | metadataDelete key => cases hs; exact h
  | metadataAdd key value =>
    rw [VersionedStore.perform] at hs
    split at hs
    all_goals
      cases hs
      exact h

theorem Reached.tidy (h : s.Reached) : s.Tidy := by
  induction h with
  | empty => exact fun name t ht => by simp at ht
  | step _ hs ih => exact ih.perform hs

/-- A tidy store is known by its metadata, its tables and its cells. -/
theorem Tidy.eq_of_cell? (h : s.Tidy) (h' : s'.Tidy) (hmetadata : s'.metadata = s.metadata)
    (htables : ∀ table, table ∈ s'.tables ↔ table ∈ s.tables)
    (hcells : ∀ row p, s'.cell? row p = s.cell? row p) : s' = s := by
  obtain ⟨tables, metadata⟩ := s
  obtain ⟨tables', metadata'⟩ := s'
  cases hmetadata
  congr 1
  refine Std.ExtTreeMap.ext_getElem? fun name => ?_
  have hname := htables name
  simp only [Std.ExtTreeMap.mem_iff_isSome_getElem?] at hname
  cases ht : tables[name]? with
  | none => simpa [ht] using hname
  | some t =>
    obtain ⟨t', ht'⟩ := Option.isSome_iff_exists.1 (hname.2 (by rw [ht]; rfl))
    have hversions : ∀ key, t'.versions key = t.versions key := by
      intro key
      refine Std.ExtTreeMap.ext_getElem? fun p => ?_
      have hcell := hcells ⟨name, key⟩ p
      simpa [cell?, VersionedStore.versions, Std.ExtTreeMap.getD_eq_getD_getElem?, ht, ht'] using hcell
    rw [ht', (h name t ht).eq_of_versions (h' name t' ht') hversions]

/-! ### The cells of one version -/

/-- Whether a tidy store has what another has, besides cells of a version at some rows. -/
structure Stamped (s : VersionedStore) (version : Nat) (rows : List Change) (s' : VersionedStore) : Prop where
  tidy : s'.Tidy
  metadata : s'.metadata = s.metadata
  mem_tables : ∀ table, table ∈ s'.tables ↔ table ∈ s.tables
  others : ∀ row q, q ≠ version → s'.cell? row q = s.cell? row q
  cells : ∀ row, (s'.cell? row version).isSome ↔ row ∈ rows

theorem Stamped.start (h : s.Tidy) (hnew : ∀ row, s.cell? row version = none) :
    Stamped s version [] s where
  tidy := h
  metadata := rfl
  mem_tables _ := Iff.rfl
  others _ _ _ := rfl
  cells row := by simp [hnew]

namespace Stamped

variable {rows rows' : List Change} {s'' : VersionedStore}

theorem congr (h : Stamped s version rows s') (hrows : ∀ row, row ∈ rows ↔ row ∈ rows') :
    Stamped s version rows' s' :=
  { h with cells row := (h.cells row).trans (hrows row) }

/-- With no rows left the store is the one before. -/
theorem eq (h : Stamped s version [] s') (hs : s.Tidy) (hnew : ∀ row, s.cell? row version = none) :
    s' = s := by
  refine hs.eq_of_cell? h.tidy h.metadata h.mem_tables fun row p => ?_
  by_cases hp : p = version
  · have hnone := mt (h.cells row).1 List.not_mem_nil
    rw [hp, hnew row]
    simpa using hnone
  · exact h.others row p hp

theorem write (h : Stamped s version rows s') (hmem : name ∈ s.tables) (key : RowKey) (cell : Option Row) :
    ∃ s'', s'.perform (.write name key version cell) = .ok ((), s'') ∧
      Stamped s version (⟨name, key⟩ :: rows) s'' := by
  obtain ⟨s'', hs, hmetadata⟩ := perform_write_of_mem key version cell ((h.mem_tables name).2 hmem)
  obtain ⟨hcells, htables⟩ := cell?_write hs
  refine ⟨s'', hs, h.tidy.perform hs, hmetadata.trans h.metadata,
    fun table => (htables table).trans (h.mem_tables table), fun row q hq => ?_, fun row => ?_⟩
  · rw [hcells, if_neg fun heq => hq heq.2, h.others row q hq]
  · by_cases hrow : row = ⟨name, key⟩
    · simp [hcells, hrow]
    · simp [hcells, hrow, h.cells]

/-- Undoing removes one cell, in a table that is there. -/
theorem undo (h : Stamped s version (⟨name, key⟩ :: rows) s') (hmem : name ∈ s.tables)
    (hnot : ⟨name, key⟩ ∉ rows) :
    ∃ s'', s'.perform (.undo name key version) = .ok ((), s'') ∧ Stamped s version rows s'' := by
  obtain ⟨t, ht⟩ := Option.isSome_iff_exists.1
    (Std.ExtTreeMap.mem_iff_isSome_getElem?.1 ((h.mem_tables name).2 hmem))
  have hs : s'.perform (.undo name key version) =
      .ok ((), { s' with tables := s'.tables.insert name (t.undo key version) }) := by
    show ((), ·) <$> s'.alter name _ = _
    rw [alter_eq_ok_iff.2 ⟨t, ht, rfl⟩]
    rfl
  obtain ⟨hcells, htables⟩ := cell?_undo hs
  refine ⟨_, hs, h.tidy.perform hs, h.metadata, fun table => (htables table).trans (h.mem_tables table),
    fun row q hq => ?_, fun row => ?_⟩
  · rw [hcells, if_neg fun heq => hq heq.2, h.others row q hq]
  · by_cases hrow : row = ⟨name, key⟩
    · simp [hcells, hrow, hnot]
    · simp [hcells, hrow, h.cells]

end Stamped

end VersionedStore

end Tabular
