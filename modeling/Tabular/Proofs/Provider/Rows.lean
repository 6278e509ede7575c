import Tabular.Proofs.Engine.Connections
import Tabular.Proofs.Versioned.Visible

/-!
# Tabular.Proofs.Provider.Rows — where the rows of a backend come from

`Holds` says that a backend has a row under a key: a versioned store at some version, a database among its
committed rows or among the changes that some connection keeps aside.  Main statements: `holds_perform`, for
each backend, after a call it has no row that it did not have before and that the call did not write; for what
it answers, `VersionedStore.holds_of_read`, `VersionedStore.holds_of_scan` and `Database.Holds.of_seen`; and
`Database.spared_perform`, which calls leave a table alone.
-/

namespace Tabular

namespace VersionedStore

variable {s s' : VersionedStore} {table : String} {key : RowKey} {row : Row} {tx : Transaction}

/-- Whether a store has a row under a key, at any version. -/
def Holds (s : VersionedStore) (table : String) (key : RowKey) (row : Row) : Prop :=
  ∃ version, s.cell? ⟨table, key⟩ version = some (some row)

theorem holds_of_row? (h : s.row? ⟨table, key⟩ tx = some row) : s.Holds table key row := by
  unfold row? Versions.visible? at h
  obtain ⟨⟨version, cell⟩, hfind, rfl⟩ := Option.bind_eq_some_iff.1 h
  exact ⟨version, (Versions.find?_eq_some_iff_newest.1 hfind).1⟩

theorem not_holds_of_tables (h : s.tables[table]? = none) : ¬ s.Holds table key row := by
  rintro ⟨version, hcell⟩
  simp [cell?, versions, VersionedTable.versions, Std.ExtTreeMap.getD_eq_getD_getElem?, h] at hcell

theorem holds_congr (h : s'.tables[table]? = s.tables[table]?) :
    s'.Holds table key row ↔ s.Holds table key row := by
  simp [Holds, cell?, versions, Std.ExtTreeMap.getD_eq_getD_getElem?, h]

/-- A store answers no row that it does not have. -/
theorem holds_of_read {answer : Option Row} (h : s.perform (.read table key tx) = .ok (answer, s')) :
    ∀ row, answer = some row → s.Holds table key row := by
  rintro row rfl
  exact holds_of_row? (perform_read h).2.symm

/-- A scan lists rows that the store has, by key. -/
theorem holds_of_scan {answer : List (RowKey × Row)} (h : s.perform (.scan table tx) = .ok (answer, s')) :
    ∃ rows : Rows, answer = rows.toList ∧ ∀ key row, rows[key]? = some row → s.Holds table key row := by
  by_cases hmem : table ∈ s.tables
  · obtain ⟨rows, hscan, hrows⟩ := perform_scan_of_mem tx hmem
    cases hscan.symm.trans h
    exact ⟨rows, rfl, fun key row hrow => holds_of_row? ((hrows key).symm.trans hrow)⟩
  · have hnone : s.tables[table]? = none := by simpa using hmem
    have h : (do return ((← s.table table).scan tx, s)) = .ok (answer, s') := h
    rw [table_eq_error hnone] at h
    cases h

theorem holds_of_erase {name : String} (h : s'.tables = s.tables.erase name) (hrow : s'.Holds table key row) :
    s.Holds table key row := by
  by_cases heq : name = table
  · exact absurd hrow (not_holds_of_tables (by simp [h, heq]))
  · exact (holds_congr (by simp [h, Std.ExtTreeMap.getElem?_erase, heq])).1 hrow

theorem holds_of_insert_empty {name : String} (h : s'.tables = s.tables.insert name ∅)
    (hrow : s'.Holds table key row) : s.Holds table key row := by
  by_cases heq : name = table
  · obtain ⟨version, hcell⟩ := hrow
    simp [cell?, versions, VersionedTable.versions, h, heq] at hcell
  · exact (holds_congr (by simp [h, Std.ExtTreeMap.getElem?_insert, heq])).1 hrow

/-- After a call a store has no row that it did not have before and that was not written. -/
theorem holds_perform {c : VersionedCall} {a : c.Answer} (h : s.perform c = .ok (a, s'))
    (hrow : s'.Holds table key row) :
    s.Holds table key row ∨ ∃ version, c = .write table key version (some row) := by
  cases c with
  | createTable name =>
    have h := eq_ok_of_answered h
    unfold createTable at h
    split at h
    · cases h
    · cases h
      exact .inl (holds_of_insert_empty rfl hrow)
  | dropTable name =>
    have h := eq_ok_of_answered h
    unfold dropTable at h
    split at h
    · cases h
      exact .inl (holds_of_erase rfl hrow)
    · cases h
  | tableExists name =>
    cases h
    exact .inl hrow
  | read name key' tx =>
    rw [(perform_read h).1] at hrow
    exact .inl hrow
  | scan name tx =>
    rw [perform_scan h] at hrow
    exact .inl hrow
  | write name key' version cell =>
    obtain ⟨p, hcell⟩ := hrow
    rw [(cell?_write h).1] at hcell
    split at hcell
    · rename_i heq
      obtain ⟨heq, -⟩ := heq
      cases heq
      cases hcell
      exact .inr ⟨version, rfl⟩
    · exact .inl ⟨p, hcell⟩
  | undo name key' version =>
    obtain ⟨p, hcell⟩ := hrow
    rw [(cell?_undo h).1] at hcell
    split at hcell
    · cases hcell
    · exact .inl ⟨p, hcell⟩
  | metadataGet name =>
    cases h
    exact .inl hrow
  | metadataAdd name value =>
    by_cases hmem : name ∈ s.metadata
    · simp only [perform, if_pos hmem] at h
      cases h
      exact .inl hrow
    · simp only [perform, if_neg hmem] at h
      cases h
      exact .inl hrow
  | metadataDelete name =>
    cases h
    exact .inl hrow
  | metadataKeys start =>
    cases h
    exact .inl hrow

end VersionedStore

/-- Whether a call changes nothing about a table. -/
def RelationalCall.Spares (table : String) : RelationalCall → Prop
  | .createTable _ schema | .upsert _ schema _ | .delete _ schema _ => schema.name ≠ table
  | .dropTable _ name => name ≠ table
  | _ => True

namespace Database

variable {db after : Database} {table : String} {key : RowKey} {row : Row} {session : Nat}

/-! ### What a call changes -/

/-- Whether a connection keeps aside what it kept before, or nothing. -/
def Eases (db after : Database) (s : Nat) : Prop :=
  after.staged? s = db.staged? s ∨ after.staged? s = none ∨ after.staged? s = some ∅

theorem eases_of_ite {s other : Nat} {staged : Option Staged} (hstaged : staged = none ∨ staged = some ∅)
    (h : after.staged? s = if other = s then staged else db.staged? s) : Eases db after s := by
  split at h
  · rcases hstaged with rfl | rfl
    · exact .inr (.inl h)
    · exact .inr (.inr h)
  · exact .inl h

theorem stagedFor_congr (h : after.staged? session = db.staged? session) :
    after.stagedFor session table = db.stagedFor session table := by
  rw [stagedFor, stagedFor, h]

theorem Eases.stagedFor (h : Eases db after session) (table : String) :
    after.stagedFor session table = db.stagedFor session table ∨ after.stagedFor session table = ∅ := by
  rcases h with heq | hnone | hempty
  · exact .inl (stagedFor_congr heq)
  · exact .inr (stagedFor_of_none hnone)
  · exact .inr ((stagedFor_of_some hempty).trans Std.ExtTreeMap.getD_empty)

/-- What a call may make of the tables and of what connections keep aside. -/
inductive Effect (db : Database) : RelationalCall → Database → Prop where
  | eased {call : RelationalCall} {after : Database} (htables : after.tables = db.tables)
    (heases : ∀ s, Eases db after s) : Effect db call after
  | committed {session : Nat} (h : (db.commit session).1 = .ok ()) :
    Effect db (.commit session) (db.commit session).2
  | created (session : Nat) (schema : TableSchema) :
    Effect db (.createTable session schema) { db with tables := db.tables.insert schema.name ∅ }
  | dropped (session : Nat) (name : String) :
    Effect db (.dropTable session name) { db with tables := db.tables.erase name }
  | upserted {session : Nat} {schema : TableSchema} {row : Row} {key : RowKey} {after : Database}
    (hkey : schema.keyOf row = .ok key) (h : db.change session schema.name key (some row) = .ok after) :
    Effect db (.upsert session schema row) after
  | deleted {session : Nat} {schema : TableSchema} {key : RowKey} {after : Database}
    (h : db.change session schema.name key none = .ok after) : Effect db (.delete session schema key) after

theorem Effect.nothing {call : RelationalCall} : Effect db call db := .eased rfl fun _ => .inl rfl

theorem eases_connect (db : Database) (s : Nat) : Eases db db.connect.2 s := by
  cases hconnect : db.connect.1 with
  | ok new => exact eases_of_ite (.inl rfl) (staged?_connect_ok db new s hconnect)
  | error e => exact .inl (staged?_connect_error db s hconnect)

theorem effect_perform (db : Database) (call : RelationalCall) : Effect db call (db.perform call).2 := by
  cases call with
  | connect => exact .eased (tables_connect db) (eases_connect db)
  | begin session =>
    cases hstaged : db.staged? session with
    | none =>
      rw [perform_begin hstaged]
      exact .eased rfl fun s => eases_of_ite (.inr rfl) (staged?_setStaged db session s _)
    | some changes =>
      simp only [perform, begin, hstaged]
      exact .nothing
  | commit session =>
    cases hcommit : (db.commit session).1 with
    | ok => exact .committed hcommit
    | error e =>
      exact .eased (tables_commit_of_error hcommit) fun s => eases_of_ite (.inl rfl) (staged?_commit s)
  | rollback session => exact .eased rfl fun s => eases_of_ite (.inl rfl) (staged?_setStaged db session s _)
  | createTable session schema =>
    by_cases hmem : schema.name ∈ db.tables
    · simp only [perform, createTable, if_pos hmem]
      exact .nothing
    · simp only [perform, createTable, if_neg hmem]
      exact .created session schema
  | dropTable session name =>
    by_cases hmem : name ∈ db.tables
    · simp only [perform, dropTable, if_pos hmem]
      exact .dropped session name
    · simp only [perform, dropTable, if_neg hmem]
      exact .nothing
  | upsert session schema row =>
    cases hkey : schema.keyOf row with
    | error e =>
      rw [perform_upsert_of_error hkey]
      exact .nothing
    | ok key =>
      rw [perform_upsert hkey]
      cases hchange : db.change session schema.name key (some row) with
      | error e => exact .nothing
      | ok after => exact .upserted hkey hchange
  | delete session schema key =>
    simp only [perform]
    cases hchange : db.change session schema.name key none with
    | error e => exact .nothing
    | ok after => exact .deleted hchange
  | tableExists | read | scan => exact .nothing

/-! ### Rows -/

/-- Whether a database has a row under a key, committed or among the changes that a connection keeps aside. -/
def Holds (db : Database) (table : String) (key : RowKey) (row : Row) : Prop :=
  (∃ rows, db.tables[table]? = some rows ∧ rows[key]? = some row) ∨
    ∃ session, (db.stagedFor session table)[key]? = some (some row)

theorem Holds.of_seen {seen : Rows} (h : db.seen session table = .ok seen) (hrow : seen[key]? = some row) :
    db.Holds table key row := by
  cases hrows : db.tables[table]? with
  | none =>
    rw [seen_of_not_mem (by simpa using hrows)] at h
    cases h
  | some rows =>
    obtain ⟨seen', hseen', hcells⟩ : ∃ seen', db.seen session table = .ok seen' ∧ _ := getElem?_seen hrows
    cases hseen'.symm.trans h
    rw [hcells] at hrow
    cases hstaged : (db.stagedFor session table)[key]? with
    | none =>
      rw [hstaged] at hrow
      exact .inl ⟨rows, hrows, hrow⟩
    | some cell =>
      rw [hstaged] at hrow
      cases hrow
      exact .inr ⟨session, hstaged⟩

theorem Holds.of_eased (h : after.Holds table key row) (htables : after.tables = db.tables)
    (heases : ∀ s, Eases db after s) : db.Holds table key row := by
  rcases h with ⟨rows, hrows, hrow⟩ | ⟨s, hrow⟩
  · exact .inl ⟨rows, htables ▸ hrows, hrow⟩
  · rcases (heases s).stagedFor table with heq | heq
    · exact .inr ⟨s, heq ▸ hrow⟩
    · rw [heq] at hrow
      simp at hrow

theorem Holds.of_close (h : (db.close session).Holds table key row) : db.Holds table key row :=
  h.of_eased rfl fun s => eases_of_ite (.inl rfl) (staged?_close db session s)

/-- A change of one row adds no other. -/
theorem Holds.of_change {name : String} {key' : RowKey} {cell : Option Row}
    (h : db.change session name key' cell = .ok after) (hrow : after.Holds table key row) :
    db.Holds table key row ∨ (name = table ∧ key' = key ∧ cell = some row) := by
  cases hrows : db.tables[name]? with
  | none =>
    rw [change_of_not_mem (by simpa using hrows)] at h
    cases h
  | some rows =>
    cases hstaged : db.staged? session with
    -- Outside a transaction the change takes effect at once; within one it is kept aside.
    | none =>
      rw [change_of_none hstaged hrows] at h
      cases h
      rcases hrow with ⟨rows', hrows', hrow⟩ | hrow
      · rw [Std.ExtTreeMap.getElem?_insert] at hrows'
        split at hrows'
        · rename_i heq
          obtain rfl := Std.compare_eq_iff_eq.1 heq
          cases hrows'
          rw [Rows.getElem?_change] at hrow
          split at hrow
          · rename_i heq
            exact .inr ⟨rfl, heq, hrow⟩
          · exact .inl (.inl ⟨rows, hrows, hrow⟩)
        · exact .inl (.inl ⟨rows', hrows', hrow⟩)
      · exact .inl (.inr hrow)
    | some changes =>
      have hmem : name ∈ db.tables := Std.ExtTreeMap.mem_iff_isSome_getElem?.2 (by simp [hrows])
      rw [change_of_some hstaged hmem] at h
      cases h
      rcases hrow with hrow | ⟨s, hrow⟩
      · exact .inl (.inl hrow)
      · by_cases hs : session = s
        · subst hs
          rw [stagedFor_of_some (staged?_setStaged_self _ _ _), Std.ExtTreeMap.getD_insert] at hrow
          split at hrow
          · rename_i heq
            obtain rfl := Std.compare_eq_iff_eq.1 heq
            rw [Std.ExtTreeMap.getElem?_insert] at hrow
            split at hrow
            · rename_i heq
              cases hrow
              exact .inr ⟨rfl, Std.compare_eq_iff_eq.1 heq, rfl⟩
            · exact .inl (.inr ⟨session, (stagedFor_of_some hstaged).symm ▸ hrow⟩)
          · exact .inl (.inr ⟨session, (stagedFor_of_some hstaged).symm ▸ hrow⟩)
        · have hstaged' : (db.setStaged session (some (changes.insert name
              ((changes.getD name ∅).insert key' cell)))).staged? s = db.staged? s := by simp [hs]
          exact .inl (.inr ⟨s, stagedFor_congr hstaged' ▸ hrow⟩)

/-- What is committed was kept aside. -/
theorem Holds.of_commit (hcommit : (db.commit session).1 = .ok ())
    (h : (db.commit session).2.Holds table key row) : db.Holds table key row := by
  rcases h with ⟨rows, hrows, hrow⟩ | ⟨s, hrow⟩
  · rw [getElem?_tables_commit hcommit] at hrows
    obtain ⟨rows', hrows', rfl⟩ := Option.map_eq_some_iff.1 hrows
    rw [Changes.getElem?_applyTo] at hrow
    cases hstaged : (db.stagedFor session table)[key]? with
    | none =>
      rw [hstaged] at hrow
      exact .inl ⟨rows', hrows', hrow⟩
    | some cell =>
      rw [hstaged] at hrow
      cases hrow
      exact .inr ⟨session, hstaged⟩
  · have heases : Eases db (db.commit session).2 s := eases_of_ite (.inl rfl) (staged?_commit s)
    rcases heases.stagedFor table with heq | heq
    · exact .inr ⟨s, heq ▸ hrow⟩
    · rw [heq] at hrow
      simp at hrow

/-- After a call a database has no row that it did not have before and that was not upserted. -/
theorem holds_perform {call : RelationalCall} (h : (db.perform call).2.Holds table key row) :
    db.Holds table key row ∨ ∃ session schema, call = .upsert session schema row ∧ schema.name = table ∧
      schema.keyOf row = .ok key := by
  generalize hafter : (db.perform call).2 = after at h
  have heffect := effect_perform db call
  rw [hafter] at heffect
  cases heffect with
  | eased htables heases => exact .inl (h.of_eased htables heases)
  | committed hcommit => exact .inl (h.of_commit hcommit)
  | created session schema =>
    rcases h with ⟨rows, hrows, hrow⟩ | h
    · rw [Std.ExtTreeMap.getElem?_insert] at hrows
      split at hrows
      · cases hrows
        simp at hrow
      · exact .inl (.inl ⟨rows, hrows, hrow⟩)
    · exact .inl (.inr h)
  | dropped session name =>
    rcases h with ⟨rows, hrows, hrow⟩ | h
    · rw [Std.ExtTreeMap.getElem?_erase] at hrows
      split at hrows
      · cases hrows
      · exact .inl (.inl ⟨rows, hrows, hrow⟩)
    · exact .inl (.inr h)
  | @upserted session schema update key' _ hkey hchange =>
    rcases Holds.of_change hchange h with hrow | ⟨hname, rfl, hrow⟩
    · exact .inl hrow
    · cases hrow
      exact .inr ⟨session, schema, rfl, hname, hkey⟩
  | deleted hchange =>
    rcases Holds.of_change hchange h with hrow | ⟨-, -, hrow⟩
    · exact .inl hrow
    · cases hrow

/-! ### A table that is left alone -/

/-- Whether a table is as it was before, and no connection keeps changes of it aside. -/
def Spared (db after : Database) (table : String) : Prop :=
  after.tables[table]? = db.tables[table]? ∧ ∀ s, after.stagedFor s table = ∅

theorem Spared.of_change {name : String} {cell : Option Row} (hcalm : ∀ s, db.stagedFor s table = ∅)
    (h : db.change session name key cell = .ok after) (hne : name ≠ table) : Spared db after table := by
  cases hrows : db.tables[name]? with
  | none =>
    rw [change_of_not_mem (by simpa using hrows)] at h
    cases h
  | some rows =>
    cases hstaged : db.staged? session with
    | none =>
      rw [change_of_none hstaged hrows] at h
      cases h
      exact ⟨by simp [Std.ExtTreeMap.getElem?_insert, hne], hcalm⟩
    | some changes =>
      have hmem : name ∈ db.tables := Std.ExtTreeMap.mem_iff_isSome_getElem?.2 (by simp [hrows])
      rw [change_of_some hstaged hmem] at h
      cases h
      refine ⟨rfl, fun s => ?_⟩
      have hcalm := hcalm s
      by_cases hs : session = s
      · subst hs
        rw [stagedFor_of_some hstaged] at hcalm
        rw [stagedFor_of_some (staged?_setStaged_self _ _ _)]
        simpa [Std.ExtTreeMap.getD_insert, hne] using hcalm
      · rw [← hcalm]
        exact stagedFor_congr (by simp [hs])

/-- A call that spares a table leaves it alone. -/
theorem spared_perform (hcalm : ∀ s, db.stagedFor s table = ∅) {call : RelationalCall}
    (hcall : call.Spares table) : Spared db (db.perform call).2 table := by
  have hkept : ∀ {after}, (∀ s, Eases db after s) → ∀ s, after.stagedFor s table = ∅ := fun heases s =>
    ((heases s).stagedFor table).elim (·.trans (hcalm s)) id
  generalize (db.perform call).2 = after, effect_perform db call = heffect
  cases heffect with
  | eased htables heases => exact ⟨by rw [htables], hkept heases⟩
  | committed hcommit =>
    refine ⟨?_, hkept fun s => eases_of_ite (.inl rfl) (staged?_commit s)⟩
    rw [getElem?_tables_commit hcommit, hcalm]
    cases db.tables[table]? <;> simp
  | created session schema =>
    have hne : schema.name ≠ table := hcall
    exact ⟨by simp [Std.ExtTreeMap.getElem?_insert, hne], hcalm⟩
  | dropped session name =>
    have hne : name ≠ table := hcall
    exact ⟨by simp [Std.ExtTreeMap.getElem?_erase, hne], hcalm⟩
  | upserted hkey hchange => exact .of_change hcalm hchange hcall
  | deleted hchange => exact .of_change hcalm hchange hcall

end Database

end Tabular
