import Tabular.Proofs.Runner.Held
import Tabular.Relational.Basic

/-!
# Tabular.Proofs.Relational.Steps — what the calls to a relational database change

One lemma per call and field, read off the definitions once: which tables there are, which changes a
connection keeps aside, and what an answer depends on.  Main statements: `getElem?_seen`, a connection
sees the committed rows with its own changes laid over them, and `commit_eq`, when a commit succeeds and
what it makes of the tables.
-/

namespace Tabular.Database

variable (db : Database) (session other : Nat) (staged : Option Staged)

/-! ### Fields -/

@[simp] theorem tables_setStaged : (db.setStaged session staged).tables = db.tables := rfl

@[simp] theorem failCommits_setStaged : (db.setStaged session staged).failCommits = db.failCommits := rfl

@[simp] theorem sessions_setStaged : (db.setStaged session staged).sessions = db.sessions := rfl

@[simp] theorem nextSession_setStaged : (db.setStaged session staged).nextSession = db.nextSession := rfl

@[simp] theorem staged?_setStaged :
    (db.setStaged session staged).staged? other = if session = other then staged else db.staged? other := by
  simp [staged?, setStaged, Std.ExtTreeMap.getD_insert]

@[simp] theorem staged?_setStaged_self : (db.setStaged session staged).staged? session = staged := by
  simp

@[simp] theorem tables_close : (db.close session).tables = db.tables := rfl

@[simp] theorem staged?_close :
    (db.close session).staged? other = if session = other then none else db.staged? other := by
  simp [staged?, close, Std.ExtTreeMap.getD_erase]

@[simp] theorem tables_connect : db.connect.2.tables = db.tables := by
  unfold connect
  split <;> rfl

@[simp] theorem failCommits_connect : db.connect.2.failCommits = db.failCommits := by
  unfold connect
  split <;> rfl

/-- A new connection has no open transaction, and the others keep theirs. -/
theorem staged?_connect_ok (h : db.connect.1 = .ok session) :
    db.connect.2.staged? other = if session = other then none else db.staged? other := by
  unfold connect at h ⊢
  split at h <;> cases h <;> exact staged?_setStaged _ _ _ _

theorem staged?_connect_error {e : StoreError} (h : db.connect.1 = .error e) :
    db.connect.2.staged? other = db.staged? other := by
  unfold connect at h ⊢
  split at h <;> cases h
  rfl

/-! ### Rows -/

variable {db session} {table : String} {rows : Rows} {key : RowKey} {cell : Option Row}

theorem rows_of_getElem? (h : db.tables[table]? = some rows) : db.rows table = .ok rows := by
  rw [Database.rows, h]

theorem rows_of_not_mem (h : table ∉ db.tables) : db.rows table = .error (.tableNotFound table) := by
  rw [Database.rows, Std.ExtTreeMap.getElem?_eq_none h]

/-- A connection sees the committed rows with its own changes laid over them. -/
theorem getElem?_seen (h : db.tables[table]? = some rows) :
    ∃ seen, db.seen session table = .ok seen ∧
      ∀ key : RowKey, seen[key]? = (db.stagedFor session table)[key]?.getD rows[key]? := by
  refine ⟨(db.stagedFor session table).applyTo rows, ?_, Changes.getElem?_applyTo _ _⟩
  rw [seen, rows_of_getElem? h]
  rfl

theorem seen_of_not_mem (h : table ∉ db.tables) :
    db.seen session table = .error (.tableNotFound table) := by
  rw [seen, rows_of_not_mem h]
  rfl

theorem stagedFor_of_none (h : db.staged? session = none) : db.stagedFor session table = ∅ := by
  rw [stagedFor, h]

theorem stagedFor_of_some {changes : Staged} (h : db.staged? session = some changes) :
    db.stagedFor session table = changes.getD table ∅ := by
  rw [stagedFor, h]

theorem change_of_not_mem (h : table ∉ db.tables) :
    db.change session table key cell = .error (.tableNotFound table) := by
  rw [change, rows_of_not_mem h]
  rfl

/-- In a transaction a change is kept aside. -/
theorem change_of_some {changes : Staged} (h : db.staged? session = some changes)
    (htable : table ∈ db.tables) :
    db.change session table key cell = .ok (db.setStaged session
      (some (changes.insert table ((changes.getD table ∅).insert key cell)))) := by
  obtain ⟨rows, hrows⟩ := Option.isSome_iff_exists.1 (Std.ExtTreeMap.mem_iff_isSome_getElem?.1 htable)
  rw [change, rows_of_getElem? hrows, h]
  rfl

/-- Outside a transaction a change takes effect at once. -/
theorem change_of_none (h : db.staged? session = none) (hrows : db.tables[table]? = some rows) :
    db.change session table key cell =
      .ok { db with tables := db.tables.insert table (rows.change key cell) } := by
  rw [change, rows_of_getElem? hrows, h]
  rfl

/-- An upsert changes the row of the key that the row has. -/
theorem perform_upsert {schema : TableSchema} {row : Row} (h : schema.keyOf row = .ok key) :
    db.perform (.upsert session schema row) =
      db.answered (((), ·) <$> db.change session schema.name key (some row)) := by
  simp only [perform, h]
  exact congrArg db.answered (bind_pure_comp _ (db.change session schema.name key (some row)))

/-- A row without a key is refused. -/
theorem perform_upsert_of_error {schema : TableSchema} {row : Row} {e : StoreError}
    (h : schema.keyOf row = .error e) : db.perform (.upsert session schema row) = (.error e, db) := by
  simp only [perform, h]
  rfl

/-! ### Transactions -/

/-- A transaction begins where none is open. -/
theorem perform_begin (h : db.staged? session = none) :
    db.perform (.begin session) = (.ok (), db.setStaged session (some ∅)) := by
  simp only [perform, begin, h]
  rfl

theorem missingTable?_eq_none_iff {changes : Staged} :
    db.missingTable? changes = none ↔ ∀ table ∈ changes, table ∈ db.tables := by
  simp [missingTable?, Std.ExtTreeMap.mem_keys]

theorem getElem?_applied {changes : Staged} (table : String) :
    (db.applied changes)[table]? = db.tables[table]?.map (changes.getD table ∅).applyTo := by
  simp [applied, Std.ExtTreeMap.getElem?_map]

theorem commit_of_none (h : db.staged? session = none) :
    ∃ e, db.commit session = (.error e, db) := by
  rw [commit, h]
  exact ⟨_, rfl⟩

/-- A commit succeeds if no failure is due and all changed tables are still there. -/
theorem commit_of_some {changes : Staged} (h : db.staged? session = some changes)
    (hfail : db.failCommits = false) (hthere : ∀ table ∈ changes, table ∈ db.tables) :
    db.commit session = (.ok (), { db.setStaged session none with tables := db.applied changes }) := by
  rw [commit, h]
  simp only [hfail, missingTable?_eq_none_iff.2 hthere]
  rfl

/-- Otherwise the transaction is forgotten. -/
theorem commit_of_not {changes : Staged} (h : db.staged? session = some changes)
    (hnot : ¬ (db.failCommits = false ∧ ∀ table ∈ changes, table ∈ db.tables)) :
    ∃ e, db.commit session = (.error e, db.setStaged session none) := by
  rw [commit, h]
  cases hfail : db.failCommits with
  | true => exact ⟨_, rfl⟩
  | false =>
    cases hmissing : db.missingTable? changes with
    | some table =>
      simp only [hmissing]
      exact ⟨_, rfl⟩
    | none => exact absurd ⟨hfail, missingTable?_eq_none_iff.1 hmissing⟩ hnot

/-- A commit ends the transaction, whether or not it succeeds. -/
theorem staged?_commit :
    (db.commit session).2.staged? other = if session = other then none else db.staged? other := by
  cases hstaged : db.staged? session with
  | none =>
    obtain ⟨e, he⟩ := commit_of_none hstaged
    rw [he]
    split
    · rename_i heq
      rw [← heq, hstaged]
    · rfl
  | some changes =>
    by_cases hok : db.failCommits = false ∧ ∀ table ∈ changes, table ∈ db.tables
    · rw [commit_of_some hstaged hok.1 hok.2]
      exact staged?_setStaged db session other none
    · obtain ⟨e, he⟩ := commit_of_not hstaged hok
      rw [he]
      exact staged?_setStaged db session other none

/-- When a commit succeeds. -/
theorem commit_eq_ok_iff :
    (db.commit session).1 = .ok () ↔ ∃ changes, db.staged? session = some changes ∧
      db.failCommits = false ∧ ∀ table ∈ changes, table ∈ db.tables := by
  cases hstaged : db.staged? session with
  | none =>
    obtain ⟨e, he⟩ := commit_of_none hstaged
    simp [he]
  | some changes =>
    by_cases hok : db.failCommits = false ∧ ∀ table ∈ changes, table ∈ db.tables
    · simp [commit_of_some hstaged hok.1 hok.2, hok.1]
      exact hok.2
    · obtain ⟨e, he⟩ := commit_of_not hstaged hok
      simp only [he, reduceCtorEq, Option.some.injEq, false_iff]
      rintro ⟨_, rfl, hok'⟩
      exact hok hok'

/-- A commit that fails leaves the tables alone. -/
theorem tables_commit_of_error {e : StoreError} (h : (db.commit session).1 = .error e) :
    (db.commit session).2.tables = db.tables := by
  cases hstaged : db.staged? session with
  | none =>
    obtain ⟨e, he⟩ := commit_of_none hstaged
    rw [he]
  | some changes =>
    by_cases hok : db.failCommits = false ∧ ∀ table ∈ changes, table ∈ db.tables
    · rw [commit_of_some hstaged hok.1 hok.2] at h
      cases h
    · obtain ⟨e, he⟩ := commit_of_not hstaged hok
      rw [he]
      rfl

/-- A commit that succeeds changes each table to what the connection saw. -/
theorem getElem?_tables_commit (h : (db.commit session).1 = .ok ()) (table : String) :
    (db.commit session).2.tables[table]? =
      db.tables[table]?.map (db.stagedFor session table).applyTo := by
  obtain ⟨changes, hstaged, hfail, hthere⟩ := commit_eq_ok_iff.1 h
  rw [commit_of_some hstaged hfail hthere, stagedFor_of_some hstaged]
  exact getElem?_applied table

end Tabular.Database
