import Mathlib.Data.Set.Card
import Tabular.Proofs.Versioned.Visible
import Tabular.Proofs.Work.Samples

/-!
# Tabular.Proofs.Versioned.History — what the calls of the past have left in a store

`play` lets a list of calls, the latest first, happen to an empty store; a call that fails changes nothing.
`VersionedHistory.hasTable` and `VersionedHistory.cell?` tell from the calls alone which tables are there and
which cell a row has at a version; `left_play` says that the store has the same.  A transaction sees the
newest of the cells visible to it (`sees_row?`), and a table counts the cells it has (`cellCount_eq_encard`).
Main statement: `visible_versions_decide`.
-/

namespace Tabular

open Samples (note noteKey)

/-- The calls made to a store, the latest first. -/
abbrev VersionedHistory := List VersionedCall

namespace VersionedHistory

/-- Whether the calls have left a table of the given name. -/
def hasTable (name : String) : VersionedHistory → Bool
  | [] => false
  | .createTable other :: earlier => other = name || hasTable name earlier
  | .dropTable other :: earlier => other ≠ name && hasTable name earlier
  | _ :: earlier => hasTable name earlier

/-- The cell of a row at a version that the calls have left: the one written last, unless it has been undone
since or the table has been dropped. -/
def cell? (row : Change) (version : Nat) : VersionedHistory → Option (Option Row)
  | [] => none
  | .dropTable name :: earlier => if name = row.table then none else cell? row version earlier
  | .write name key v cell :: earlier =>
    if row = ⟨name, key⟩ ∧ version = v ∧ hasTable name earlier then some cell else cell? row version earlier
  | .undo name key v :: earlier =>
    if row = ⟨name, key⟩ ∧ version = v then none else cell? row version earlier
  | _ :: earlier => cell? row version earlier

/-- Whether a row, or nothing, is what a transaction has to see: the cell of the largest version visible to
it, a row or the mark that the key is deleted, and nothing if there is no such version. -/
def Sees (h : VersionedHistory) (row : Change) (tx : Transaction) (answer : Option Row) : Prop :=
  (∃ p, h.cell? row p = some answer ∧ tx.isVisible p = true ∧
    ∀ q, (h.cell? row q).isSome → tx.isVisible q = true → q ≤ p) ∨
  answer = none ∧ ∀ p, tx.isVisible p = true → h.cell? row p = none

theorem cell?_of_not_hasTable {h : VersionedHistory} {row : Change} {version : Nat}
    (htable : h.hasTable row.table = false) : h.cell? row version = none := by
  induction h with
  | nil => rfl
  | cons call earlier ih =>
    cases call with
    | createTable name =>
      rw [hasTable, Bool.or_eq_false_iff] at htable
      exact ih htable.2
    | dropTable name =>
      rw [cell?]
      split
      · rfl
      · rename_i hname
        refine ih ?_
        simpa [hasTable, hname] using htable
    | write name key v cell =>
      rw [cell?, if_neg, ih htable]
      rintro ⟨rfl, -, hhas⟩
      exact absurd hhas (by simpa [hasTable] using htable)
    | undo name key v =>
      rw [cell?, ih htable, ite_self]
    | _ => exact ih htable

end VersionedHistory

/-- Whether a call writes or undoes a cell of a version that a transaction does not see. -/
def VersionedCall.HiddenFrom (tx : Transaction) : VersionedCall → Prop
  | write _ _ version _ | undo _ _ version => tx.isVisible version = false
  | _ => False

namespace VersionedStore

variable {s s' : VersionedStore} {h h' : VersionedHistory} {name : String} {row : Change} {tx : Transaction}

/-- The store after a call; one that fails changes nothing. -/
def after (s : VersionedStore) (call : VersionedCall) : VersionedStore :=
  match s.perform call with
  | .ok (_, s') => s'
  | .error _ => s

/-- The store after the given calls. -/
def play : VersionedHistory → VersionedStore
  | [] => { }
  | call :: earlier => (play earlier).after call

/-! ### Tables and cells -/

theorem after_of_ok {call : VersionedCall} {answer : call.Answer} (hs : s.perform call = .ok (answer, s')) :
    s.after call = s' := by
  rw [after, hs]

theorem after_of_error {call : VersionedCall} {e : StoreError} (hs : s.perform call = .error e) :
    s.after call = s := by
  rw [after, hs]

/-- A call that keeps the store as it is if it succeeds keeps it in any case. -/
theorem after_of_kept {call : VersionedCall}
    (hkept : ∀ (answer : call.Answer) (s' : VersionedStore), s.perform call = .ok (answer, s') → s' = s) :
    s.after call = s := by
  cases hs : s.perform call with
  | error e => exact after_of_error hs
  | ok result =>
    obtain ⟨answer, s'⟩ := result
    rw [after_of_ok hs, hkept answer s' hs]

theorem perform_alter_of_not_mem {change : VersionedTable → VersionedTable} (hname : name ∉ s.tables) :
    s.alter name change = .error (.tableNotFound name) := by
  rw [alter, table_eq_error (by simpa using hname)]
  rfl

/-- Whether a store has the tables and the cells that the calls have left. -/
structure Left (h : VersionedHistory) (s : VersionedStore) : Prop where
  tables : ∀ name, name ∈ s.tables ↔ h.hasTable name = true
  cells : ∀ row version, s.cell? row version = h.cell? row version

namespace Left

theorem empty : Left [] { } where
  tables name := by simp [VersionedHistory.hasTable]
  cells row version := by simp [cell?, versions, VersionedTable.versions, VersionedHistory.cell?]

theorem cell?_of_not_mem (hl : Left h s) (hrow : row.table ∉ s.tables) (version : Nat) :
    h.cell? row version = none :=
  VersionedHistory.cell?_of_not_hasTable (by simpa [hl.tables] using hrow)

theorem createTable (hl : Left h s) (name : String) : Left (.createTable name :: h) (s.after (.createTable name)) := by
  by_cases hname : name ∈ s.tables
  · rw [after_of_error (e := .tableAlreadyExists name) (by simp [perform, VersionedStore.createTable, hname])]
    refine ⟨fun other => ?_, hl.cells⟩
    rw [VersionedHistory.hasTable, Bool.or_eq_true, ← hl.tables other, decide_eq_true_iff]
    refine ⟨.inr, ?_⟩
    rintro (rfl | hother)
    · exact hname
    · exact hother
  · have hcreated : s.perform (.createTable name) = .ok ((), { s with tables := s.tables.insert name ∅ }) := by
      simp [perform, VersionedStore.createTable, hname]
    rw [after_of_ok hcreated]
    refine ⟨fun other => ?_, fun row version => ?_⟩
    · rw [VersionedHistory.hasTable, Bool.or_eq_true, ← hl.tables other, decide_eq_true_iff]
      simp
    · show _ = h.cell? row version
      by_cases hrow : name = row.table
      · rw [hl.cell?_of_not_mem (hrow ▸ hname)]
        simp [cell?, versions, VersionedTable.versions, hrow]
      · rw [← hl.cells row version]
        simp [cell?, versions, Std.ExtTreeMap.getD_insert, hrow]

theorem dropTable (hl : Left h s) (name : String) : Left (.dropTable name :: h) (s.after (.dropTable name)) := by
  by_cases hname : name ∈ s.tables
  · have hdropped : s.perform (.dropTable name) = .ok ((), { s with tables := s.tables.erase name }) := by
      simp [perform, VersionedStore.dropTable, hname]
    rw [after_of_ok hdropped]
    refine ⟨fun other => ?_, fun row version => ?_⟩
    · rw [VersionedHistory.hasTable, Bool.and_eq_true, ← hl.tables other, decide_eq_true_iff]
      simp
    · rw [VersionedHistory.cell?]
      split
      · rename_i hrow
        simp [cell?, versions, VersionedTable.versions, hrow]
      · rename_i hrow
        rw [← hl.cells row version]
        simp [cell?, versions, Std.ExtTreeMap.getD_erase, hrow]
  · rw [after_of_error (e := .tableNotFound name) (by simp [perform, VersionedStore.dropTable, hname])]
    refine ⟨fun other => ?_, fun row version => ?_⟩
    · rw [VersionedHistory.hasTable, Bool.and_eq_true, ← hl.tables other, decide_eq_true_iff]
      refine ⟨fun hother => ⟨?_, hother⟩, And.right⟩
      rintro rfl
      exact hname hother
    · rw [VersionedHistory.cell?, hl.cells row version]
      split
      · rename_i hrow
        exact hl.cell?_of_not_mem (hrow ▸ hname) version
      · rfl

theorem write (hl : Left h s) (name : String) (key : RowKey) (version : Nat) (cell : Option Row) :
    Left (.write name key version cell :: h) (s.after (.write name key version cell)) := by
  by_cases hname : name ∈ s.tables
  · obtain ⟨s', hs, -⟩ := perform_write_of_mem key version cell hname
    obtain ⟨hcells, htables⟩ := cell?_write hs
    rw [after_of_ok hs]
    refine ⟨fun other => (htables other).trans (hl.tables other), fun row p => ?_⟩
    rw [hcells, VersionedHistory.cell?, hl.cells]
    simp [(hl.tables name).1 hname]
  · rw [after_of_error (e := .tableNotFound name) (by simp [perform, perform_alter_of_not_mem hname])]
    refine ⟨hl.tables, fun row p => ?_⟩
    rw [VersionedHistory.cell?, if_neg, hl.cells]
    exact fun hwritten => hname ((hl.tables name).2 hwritten.2.2)

theorem undo (hl : Left h s) (name : String) (key : RowKey) (version : Nat) :
    Left (.undo name key version :: h) (s.after (.undo name key version)) := by
  cases hs : s.perform (.undo name key version) with
  | ok result =>
    obtain ⟨hcells, htables⟩ := cell?_undo hs
    rw [after_of_ok hs]
    refine ⟨fun other => (htables other).trans (hl.tables other), fun row p => ?_⟩
    rw [hcells, VersionedHistory.cell?, hl.cells]
  | error e =>
    have hname : name ∉ s.tables := by
      intro hmem
      obtain ⟨t, ht⟩ := Option.isSome_iff_exists.1 (Std.ExtTreeMap.mem_iff_isSome_getElem?.1 hmem)
      have hs : ((), ·) <$> s.alter name (·.undo key version) = .error e := hs
      rw [alter_eq_ok_iff.2 ⟨t, ht, rfl⟩] at hs
      cases hs
    rw [after_of_error hs]
    refine ⟨hl.tables, fun row p => ?_⟩
    rw [VersionedHistory.cell?, hl.cells]
    split
    · rename_i hrow
      rw [hrow.1]
      exact hl.cell?_of_not_mem hname p
    · rfl

/-- A call leaves behind what the history says. -/
theorem step (hl : Left h s) (call : VersionedCall) : Left (call :: h) (s.after call) := by
  cases call with
  | createTable name => exact hl.createTable name
  | dropTable name => exact hl.dropTable name
  | write name key version cell => exact hl.write name key version cell
  | undo name key version => exact hl.undo name key version
  | read name key tx =>
    rw [after_of_kept fun _ _ hs => (perform_read hs).1]
    exact ⟨hl.tables, hl.cells⟩
  | scan name tx =>
    rw [after_of_kept fun _ _ hs => perform_scan hs]
    exact ⟨hl.tables, hl.cells⟩
  | tableExists name => exact ⟨hl.tables, hl.cells⟩
  | metadataGet key => exact ⟨hl.tables, hl.cells⟩
  | metadataKeys start => exact ⟨hl.tables, hl.cells⟩
  | metadataDelete key => exact ⟨hl.tables, hl.cells⟩
  | metadataAdd key value =>
    have htables : (s.after (.metadataAdd key value)).tables = s.tables := by
      by_cases hkey : key ∈ s.metadata <;> simp [after, perform, hkey]
    refine ⟨fun name => htables ▸ hl.tables name, fun row version => ?_⟩
    rw [cell?, versions, htables]
    exact hl.cells row version

end Left

/-- A store has what the calls have left. -/
theorem left_play (h : VersionedHistory) : Left h (play h) := by
  induction h with
  | nil => exact Left.empty
  | cons call earlier ih => exact ih.step call

/-! ### Reads and scans -/

/-- What a transaction sees of a row is what it has to see. -/
theorem Left.sees_row? (hl : Left h s) (row : Change) (tx : Transaction) : h.Sees row tx (s.row? row tx) := by
  rcases (s.versions row).visible?_cases tx with ⟨p, hcell, hvisible, hnewest⟩ | ⟨hnone, hhidden⟩
  · refine .inl ⟨p, (hl.cells row p).symm.trans hcell, hvisible, fun q hq hqvisible => ?_⟩
    rw [← hl.cells] at hq
    exact hnewest q hq hqvisible
  · exact .inr ⟨hnone, fun p hvisible => (hl.cells row p).symm.trans (hhidden p hvisible)⟩

/-- A scan answers what a transaction sees of each key, in the order of the keys. -/
theorem perform_scan_entries (tx : Transaction) (hname : name ∈ s.tables) :
    ∃ rows : List (RowKey × Row), s.perform (.scan name tx) = .ok (rows, s) ∧
      rows.Pairwise (fun a b => compare a.1 b.1 = .lt) ∧
      ∀ key row, (key, row) ∈ rows ↔ s.perform (.read name key tx) = .ok (some row, s) := by
  obtain ⟨rows, hscan, hrows⟩ := perform_scan_of_mem tx hname
  refine ⟨rows.toList, hscan, Std.ExtTreeMap.ordered_keys_toList, fun key row => ?_⟩
  rw [Std.ExtTreeMap.mem_toList_iff_getElem?_eq_some, hrows, perform_read_of_mem key hname]
  constructor
  · exact fun hrow => by rw [hrow]
  · exact fun hrow => congrArg Prod.fst (Except.ok.inj hrow)

/-- Whether no read and no scan of a table by a transaction tells two stores apart. -/
def SameReads (s s' : VersionedStore) (name : String) (tx : Transaction) : Prop :=
  (∀ key, Prod.fst <$> s.perform (.read name key tx) = Prod.fst <$> s'.perform (.read name key tx)) ∧
    Prod.fst <$> s.perform (.scan name tx) = Prod.fst <$> s'.perform (.scan name tx)

/-- Stores with the same cells at the versions visible to a transaction are read alike. -/
theorem Left.sameReads (hl : Left h s) (hl' : Left h' s') (htable : h.hasTable name = h'.hasTable name)
    (hagree : ∀ key p, tx.isVisible p = true → h.cell? ⟨name, key⟩ p = h'.cell? ⟨name, key⟩ p) :
    SameReads s s' name tx := by
  have hrow : ∀ key, s.row? ⟨name, key⟩ tx = s'.row? ⟨name, key⟩ tx := by
    refine fun key => row?_congr fun q cell => and_congr_left fun hvisible => ?_
    rw [hl.cells, hl'.cells, hagree key q hvisible]
  by_cases hname : name ∈ s.tables
  · have hname' : name ∈ s'.tables := (hl'.tables name).2 (htable ▸ (hl.tables name).1 hname)
    refine ⟨fun key => ?_, ?_⟩
    · rw [perform_read_of_mem key hname, perform_read_of_mem key hname', hrow]
      rfl
    · obtain ⟨rows, hscan, hrows⟩ := perform_scan_of_mem tx hname
      obtain ⟨rows', hscan', hrows'⟩ := perform_scan_of_mem tx hname'
      have heq : rows = rows' := Std.ExtTreeMap.ext_getElem? fun key => by rw [hrows, hrows', hrow]
      rw [hscan, hscan', heq]
      rfl
  · have hname' : name ∉ s'.tables := fun hmem => hname ((hl.tables name).2 (htable ▸ (hl'.tables name).1 hmem))
    refine ⟨fun key => ?_, ?_⟩
    · rw [perform_read_of_not_mem key hname, perform_read_of_not_mem key hname']
    · rw [perform_scan_of_not_mem hname, perform_scan_of_not_mem hname']

end VersionedStore

namespace VersionedHistory

variable {h later : VersionedHistory} {tx : Transaction}

/-- Calls that are hidden from a transaction keep the tables and all that it sees. -/
theorem append_of_hidden (hlater : ∀ call ∈ later, call.HiddenFrom tx) :
    (∀ name, (later ++ h).hasTable name = h.hasTable name) ∧
      ∀ row p, tx.isVisible p = true → (later ++ h).cell? row p = h.cell? row p := by
  induction later with
  | nil => exact ⟨fun _ => rfl, fun _ _ _ => rfl⟩
  | cons call later ih =>
    obtain ⟨hcall, hlater⟩ := List.forall_mem_cons.1 hlater
    obtain ⟨htables, hcells⟩ := ih hlater
    cases call with
    | write name key version cell =>
      refine ⟨htables, fun row p hvisible => ?_⟩
      rw [List.cons_append, cell?, if_neg, hcells row p hvisible]
      rintro ⟨-, rfl, -⟩
      rw [VersionedCall.HiddenFrom, hvisible] at hcall
      cases hcall
    | undo name key version =>
      refine ⟨htables, fun row p hvisible => ?_⟩
      rw [List.cons_append, cell?, if_neg, hcells row p hvisible]
      rintro ⟨-, rfl⟩
      rw [VersionedCall.HiddenFrom, hvisible] at hcall
      cases hcall
    | _ => exact hcall.elim

end VersionedHistory

/-! ### The number of cells -/

namespace VersionedTable

variable (t : VersionedTable)

/-- The places of the cells of a table. -/
def places : List (RowKey × Nat) := t.toList.flatMap fun entry => entry.2.keys.map (entry.1, ·)

theorem mem_places {key : RowKey} {version : Nat} :
    (key, version) ∈ t.places ↔ ((t.versions key)[version]?).isSome := by
  rw [places, List.mem_flatMap, versions, Std.ExtTreeMap.getD_eq_getD_getElem?]
  constructor
  · rintro ⟨⟨key', cells⟩, hentry, hplace⟩
    obtain ⟨version', hversion, ⟨⟩⟩ := List.mem_map.1 hplace
    rw [Std.ExtTreeMap.mem_toList_iff_getElem?_eq_some.1 hentry]
    exact Std.ExtTreeMap.mem_iff_isSome_getElem?.1 (Std.ExtTreeMap.mem_keys.1 hversion)
  · intro hcell
    cases hkey : t[key]? with
    | none => simp [hkey] at hcell
    | some cells =>
      rw [hkey, Option.getD_some] at hcell
      refine ⟨(key, cells), Std.ExtTreeMap.mem_toList_iff_getElem?_eq_some.2 hkey, List.mem_map.2 ⟨version, ?_, rfl⟩⟩
      exact Std.ExtTreeMap.mem_keys.2 (Std.ExtTreeMap.mem_iff_isSome_getElem?.2 hcell)

theorem nodup_places : t.places.Nodup := by
  refine List.nodup_flatMap.2 ⟨fun entry _ => ?_, ?_⟩
  · exact Std.ExtTreeMap.nodup_keys.map fun _ _ heq => congrArg Prod.snd heq
  · refine (Std.ExtTreeMap.distinct_keys_toList (t := t)).imp fun {a b} hne place ha hb => hne ?_
    obtain ⟨_, -, rfl⟩ := List.mem_map.1 ha
    obtain ⟨_, -, heq⟩ := List.mem_map.1 hb
    rw [← congrArg Prod.fst heq]
    exact Std.compare_self

theorem cellCount_eq_length : t.cellCount = t.places.length := by
  rw [cellCount, Std.ExtTreeMap.foldl_eq_foldl_toList, places, List.length_flatMap, List.sum_eq_foldl,
    List.foldl_map]
  simp only [List.length_map, Std.ExtTreeMap.length_keys]

/-- A table counts its cells. -/
theorem cellCount_eq_encard :
    (t.cellCount : ℕ∞) = {place : RowKey × Nat | ((t.versions place.1)[place.2]?).isSome}.encard := by
  have hset : {place : RowKey × Nat | ((t.versions place.1)[place.2]?).isSome} = ↑t.places.toFinset := by
    ext ⟨key, version⟩
    rw [Set.mem_ofPred_eq, ← t.mem_places, Finset.mem_coe, List.mem_toFinset]
  rw [hset, Set.encard_coe_eq_coe_finsetCard, List.toFinset_card_of_nodup t.nodup_places, cellCount_eq_length]

end VersionedTable

namespace VersionedStore

variable {s : VersionedStore} {h : VersionedHistory} {name : String}

/-- A store counts the cells that the calls have left in a table. -/
theorem Left.cellCount (hl : Left h s) (hname : name ∈ s.tables) : ∃ n, s.cellCount name = .ok n ∧
    (n : ℕ∞) = {place : RowKey × Nat | (h.cell? ⟨name, place.1⟩ place.2).isSome}.encard := by
  obtain ⟨t, ht⟩ := Option.isSome_iff_exists.1 (Std.ExtTreeMap.mem_iff_isSome_getElem?.1 hname)
  have hcells : ∀ key version, (t.versions key)[version]? = h.cell? ⟨name, key⟩ version := by
    intro key version
    rw [← hl.cells, cell?, versions, Std.ExtTreeMap.getD_eq_getD_getElem?, ht]
    rfl
  refine ⟨t.cellCount, by rw [VersionedStore.cellCount, table_eq_ok_iff.2 ht]; rfl, ?_⟩
  rw [t.cellCount_eq_encard]
  simp only [hcells]

theorem cellCount_of_not_mem (hname : name ∉ s.tables) : s.cellCount name = .error (.tableNotFound name) := by
  rw [VersionedStore.cellCount, table_eq_error (by simpa using hname)]
  rfl

/-- **The visible versions decide what is read.**  Whatever calls a store has come about by, a transaction
reads of a key the cell of the largest version visible to it, and scans the keys of which it reads a row, with
these rows, in strictly ascending order; the table counts as many cells as there are pairs of a key and a
version that were written since it was created, and not undone after they were written last.  Stores that
agree on the versions visible to a transaction are read alike, so it never learns of versions that others
write or undo unless it can see them. -/
theorem visible_versions_decide (h : VersionedHistory) :
    (∀ name, h.hasTable name = true →
      (∀ tx, (∀ key, ∃ answer, (play h).perform (.read name key tx) = .ok (answer, play h) ∧
          h.Sees ⟨name, key⟩ tx answer) ∧
        ∃ rows : List (RowKey × Row), (play h).perform (.scan name tx) = .ok (rows, play h) ∧
          rows.Pairwise (fun a b => compare a.1 b.1 = .lt) ∧
          ∀ key row, (key, row) ∈ rows ↔ (play h).perform (.read name key tx) = .ok (some row, play h)) ∧
      ∃ n, (play h).cellCount name = .ok n ∧
        (n : ℕ∞) = {place : RowKey × Nat | (h.cell? ⟨name, place.1⟩ place.2).isSome}.encard) ∧
    (∀ name, h.hasTable name = false →
      (∀ tx, (∀ key, (play h).perform (.read name key tx) = .error (.tableNotFound name)) ∧
        (play h).perform (.scan name tx) = .error (.tableNotFound name)) ∧
      (play h).cellCount name = .error (.tableNotFound name)) ∧
    (∀ (h' : VersionedHistory) (name : String) (tx : Transaction), h.hasTable name = h'.hasTable name →
      (∀ key p, tx.isVisible p = true → h.cell? ⟨name, key⟩ p = h'.cell? ⟨name, key⟩ p) →
      SameReads (play h) (play h') name tx) ∧
    ∀ (later : VersionedHistory) (tx : Transaction), (∀ call ∈ later, call.HiddenFrom tx) →
      ∀ name, SameReads (play (later ++ h)) (play h) name tx := by
  have hl := left_play h
  refine ⟨fun name htable => ?_, fun name htable => ?_, fun h' name tx => hl.sameReads (left_play h'),
    fun later tx hlater name => ?_⟩
  · have hname := (hl.tables name).2 htable
    exact ⟨fun tx => ⟨fun key => ⟨_, perform_read_of_mem key hname, hl.sees_row? ⟨name, key⟩ tx⟩,
      perform_scan_entries tx hname⟩, hl.cellCount hname⟩
  · have hname : name ∉ (play h).tables := by simp [hl.tables, htable]
    exact ⟨fun tx => ⟨fun key => perform_read_of_not_mem key hname, perform_scan_of_not_mem hname⟩,
      cellCount_of_not_mem hname⟩
  · obtain ⟨htables, hcells⟩ := VersionedHistory.append_of_hidden (h := h) hlater
    exact (left_play (later ++ h)).sameReads hl (htables name) fun key => hcells ⟨name, key⟩

/-- A note is written twice, the second time in vain, and drafted by a transaction that is still at work. -/
def noting : VersionedHistory :=
  [.write "notes" (noteKey 7) 2 none, .undo "notes" (noteKey 7) 4, .write "notes" (noteKey 7) 4 none,
    .write "notes" (noteKey 7) 3 (some (note 7)), .createTable "notes"]

/-- The draft is given up and another one made. -/
def redrafting : VersionedHistory := [.write "notes" (noteKey 7) 6 none, .undo "notes" (noteKey 7) 2]

/-- A transaction of version 7 that does not see the drafts, nor what came after the limit. -/
def readingNotes : Transaction := ⟨7, some 5, Std.ExtTreeSet.empty.insert 2⟩

/-- The drafts do not keep the note from being read. -/
theorem visible_versions_decide_noting :
    noting.hasTable "notes" = true ∧ (∀ call ∈ redrafting, call.HiddenFrom readingNotes) ∧
    Prod.fst <$> (play (redrafting ++ noting)).perform (.read "notes" (noteKey 7) readingNotes) = .ok (some (note 7)) ∧
    {place : RowKey × Nat | (noting.cell? ⟨"notes", place.1⟩ place.2).isSome}.encard = 2 := by
  have hhidden : ∀ call ∈ redrafting, call.HiddenFrom readingNotes := by
    simp only [redrafting, List.forall_mem_cons]
    exact ⟨by rfl, by rfl, nofun⟩
  obtain ⟨htabled, -, -, hlater⟩ := visible_versions_decide noting
  obtain ⟨-, n, hcount, hn⟩ := htabled "notes" rfl
  refine ⟨rfl, hhidden, ?_, ?_⟩
  · rw [(hlater redrafting readingNotes hhidden "notes").1 (noteKey 7)]
    rfl
  · cases hcount.symm.trans (show (play noting).cellCount "notes" = .ok 2 from rfl)
    exact hn.symm

end VersionedStore

end Tabular
