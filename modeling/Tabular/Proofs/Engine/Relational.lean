import Tabular.Proofs.Engine.Staged

/-!
# Tabular.Proofs.Engine.Relational — engines over a relational database

Each step of an engine over a relational database is work on a connection of its own.  Main statement:
`relationalBackend_carries`, a database does what any engine needs of its storage.
-/

namespace Tabular.Bench

open Execution (Performs)

/-- What lasts between the steps of an engine over a relational database. -/
structure Tabled (listed : Schemas) (tables : Stored) (c : Scene) : Prop where
  unused : c.database.Uses 0
  kept : Keeps listed tables c.database.tables

variable {α : Type} {i : Option Nat} {k : Nat} {c : Scene} {listed : Schemas} {tables tables' : Stored}
  {table : String} {s : Reference}

/-! ### Storage -/

/-- Work on a connection of its own that changes nothing but the database. -/
theorem Tabled.withConnection {use : Nat → Attempt SiteM Unit} (h : Tabled listed tables c)
    (huse : ∀ session db, db.Uses 1 → db.tables = c.database.tables →
      Yields i (use session).run { c with database := db } fun r c' => r = .ok () ∧
        ∃ db', c' = { c with database := db' } ∧ db'.Uses 1 ∧ Keeps listed tables' db'.tables) :
    Yields i (Site.database.withConnection use).run c (Done (Tabled listed tables') c) := by
  refine Yields.withConnection h.unused fun session db huses htables _ => ?_
  refine (huse session db huses htables).mono ?_
  rintro _ _ ⟨rfl, db', rfl, huses', hkeeps⟩
  exact ⟨rfl, ⟨huses'.close, hkeeps⟩, rfl⟩

theorem Tabled.create (h : Tabled listed tables c) (schema : TableSchema)
    (hname : schema.name ≠ Catalog.catalogTable) (hnone : tables schema.name = none) :
    Yields i (Site.database.withConnection fun session =>
        Site.database.perform (.createTable session schema)).run c
      (Done (Tabled listed (Function.update tables schema.name (some ∅))) c) := by
  refine h.withConnection fun session db huses htables => ?_
  have hmem : schema.name ∉ db.tables := by
    rw [htables, Std.ExtTreeMap.mem_iff_isSome_getElem?, h.kept.rows _ hname, hnone]
    exact Bool.false_ne_true
  refine Yields.database (r := .ok ()) (d := { db with tables := db.tables.insert schema.name ∅ }) ?_
    ⟨rfl, _, rfl, ⟨huses.sessions, huses.sound⟩, ?_⟩
  · rw [Database.perform, Database.createTable, if_neg hmem]
    rfl
  · rw [htables]
    exact h.kept.create hname

theorem Tabled.drop (h : Tabled listed tables c) (hsome : (tables table).isSome) :
    Yields i (Site.database.withConnection fun session =>
        Site.database.perform (.dropTable session table)).run c
      (Done (Tabled listed (Function.update tables table none)) c) := by
  have hname := h.kept.ne_of_isSome hsome
  refine h.withConnection fun session db huses htables => ?_
  have hmem : table ∈ db.tables := by
    rw [htables]
    exact h.kept.mem_tables hsome
  refine Yields.database (r := .ok ()) (d := { db with tables := db.tables.erase table }) ?_
    ⟨rfl, _, rfl, ⟨huses.sessions, huses.sound⟩, ?_⟩
  · rw [Database.perform, Database.dropTable, if_pos hmem]
    rfl
  · rw [htables]
    exact h.kept.drop hname

/-! ### The registry -/

theorem Tabled.find (h : Tabled listed tables c) (hnone : listed table = none) :
    Yields i ((Catalog.tabled Site.database).find table).run c fun r c' =>
      r = .error (.tableNotFound table) ∧ Tabled listed tables c' ∧ c'.cache = c.cache := by
  obtain ⟨rows, hrows, hregistry⟩ := h.kept.registry
  have hrow := eq_none_of_isSome_eq (hregistry table) hnone
  refine Yields.withConnection h.unused fun session db huses htables hstaged => ?_
  have hseen : db.seen session Catalog.catalogTable = .ok rows :=
    Database.seen_of_none hstaged (by rw [htables, hrows])
  refine (Yields.findOn (c := { c with database := db }) hseen hrow).mono ?_
  rintro _ _ ⟨rfl, rfl⟩
  refine ⟨rfl, ⟨huses.close, ?_⟩, rfl⟩
  rw [Database.tables_close, htables]
  exact h.kept

theorem keyOf_catalogRow (schema : TableSchema) :
    Catalog.catalogSchema.keyOf (Catalog.catalogRow schema) = .ok (Catalog.rowKey schema.name) := by
  have hname : (Catalog.catalogRow schema)[Catalog.nameColumn]? = some (.string schema.name) := by
    rw [Catalog.catalogRow, Row.ofCells, List.foldl_cons, List.foldl_cons, List.foldl_nil,
      Std.ExtTreeMap.getElem?_insert, if_neg (by simp [Catalog.nameColumn, Catalog.documentColumn]),
      Std.ExtTreeMap.getElem?_insert_self]
  have hpart : Catalog.catalogSchema.keyPartOf (Catalog.catalogRow schema) Catalog.nameColumn =
      .ok (.string schema.name) := by
    rw [TableSchema.keyPartOf, hname]
    rfl
  have hkey : [Catalog.nameColumn].mapM (Catalog.catalogSchema.keyPartOf (Catalog.catalogRow schema)) =
      .ok [.string schema.name] := by
    rw [List.mapM_cons, hpart]
    rfl
  rw [TableSchema.keyOf]
  exact congrArg (fun parts => Catalog.catalogSchema.reportRow (RowKey.mk <$> parts)) hkey

/-- A change of one row of the registry, within a transaction that has changed nothing else. -/
theorem change_registry {db : Database} {session : Nat} {rows : Rows} (key : RowKey) (cell : Option Row)
    (hstaged : db.staged? session = some ∅) (hseen : db.seen session Catalog.catalogTable = .ok rows) :
    db.change session Catalog.catalogTable key cell =
      .ok (db.setStaged session (some (relisted key cell))) := by
  have hmem : Catalog.catalogTable ∈ db.tables := by
    by_contra hmem
    rw [Database.seen_of_not_mem hmem] at hseen
    cases hseen
  rw [Database.change_of_some hstaged hmem]
  simp [relisted]

/-- What a change of the registry in a transaction of its own makes of it. -/
theorem Tabled.relist (h : Tabled listed tables c) {listed' : Schemas} (cell : Option Row)
    {change : Nat → Attempt SiteM Unit} (hcell : cell.isSome = (listed' table).isSome)
    (hlisted : ∀ other, other ≠ table → listed' other = listed other)
    (hchange : ∀ session db rows, db.tables = c.database.tables → db.staged? session = some ∅ →
      db.seen session Catalog.catalogTable = .ok rows →
      (rows[Catalog.rowKey table]?).isSome = (listed table).isSome →
      Yields i (change session).run { c with database := db } fun r c' => r = .ok () ∧
        c' = { c with database := db.setStaged session (some (relisted (Catalog.rowKey table) cell)) }) :
    Yields i (Catalog.transact Site.database change).run c (Done (Tabled listed' tables) c) := by
  obtain ⟨rows, hrows, hregistry⟩ := h.kept.registry
  have hseen : ∀ session (db : Database), db.tables = c.database.tables → db.staged? session = some ∅ →
      db.seen session Catalog.catalogTable = .ok rows := by
    intro session db htables hstaged
    refine (Database.seen_of_some hstaged (by rw [htables, hrows])).trans ?_
    simp
  refine (Yields.transact h.unused hrows fun session db htables hstaged =>
    hchange session db rows htables hstaged (hseen session db htables hstaged) (hregistry table)).mono ?_
  · rintro _ _ ⟨rfl, db, rfl, huses, hrows', hothers⟩
    exact ⟨rfl, ⟨huses, h.kept.relist hrows hrows' hothers hcell hlisted⟩, rfl⟩

theorem Tabled.register (h : Tabled listed tables c) (schema : TableSchema)
    (hnone : listed schema.name = none) :
    Yields i ((Catalog.tabled Site.database).register schema).run c
      (Done (Tabled (Function.update listed schema.name (some ⟨schema, rfl⟩)) tables) c) := by
  refine h.relist (some (Catalog.catalogRow schema)) (by simp)
    (fun other hother => Function.update_of_ne hother _ _) fun session db rows htables hstaged hseen hrow => ?_
  have hrow := eq_none_of_isSome_eq hrow hnone
  refine Yields.andThen ((Yields.rowOn (c := { c with database := db }) hseen).mono ?_)
  rintro _ _ ⟨rfl, rfl⟩
  rw [hrow]
  refine Yields.restated (Yields.database (r := .ok ()) ?_ ⟨rfl, rfl⟩)
  rw [Database.perform_upsert (keyOf_catalogRow schema)]
  exact congrArg (fun x => db.answered (((), ·) <$> x)) (change_registry _ _ hstaged hseen)

theorem Tabled.remove (h : Tabled listed tables c) (hsome : (listed table).isSome) :
    Yields i ((Catalog.tabled Site.database).remove table).run c
      (Done (Tabled (Function.update listed table none) tables) c) := by
  refine h.relist none (by simp) (fun other hother => Function.update_of_ne hother _ _)
    fun session db rows htables hstaged hseen hrow => ?_
  obtain ⟨row, hrow⟩ := Option.isSome_iff_exists.1 (hrow.trans hsome)
  refine Yields.andThen ((Yields.rowOn (c := { c with database := db }) hseen).mono ?_)
  rintro _ _ ⟨rfl, rfl⟩
  rw [hrow]
  refine Yields.restated (Yields.database (r := .ok ()) ?_ ⟨rfl, rfl⟩)
  exact congrArg (fun x => db.answered (((), ·) <$> x)) (change_registry _ _ hstaged hseen)

/-! ### Running a unit of work -/

variable {start : Scene} {session : Nat} {staged : Staged} {opened : OpenedSchemas} {shelf : Shelf}

/-- A connection that has begun a transaction. -/
theorem Staging.begin (db : Database) (hagrees : c.cache.Agrees s.schemas) :
    Staging s { c with database := db } session ∅ ∅ s.shelf
      { c with database := db.setStaged session (some ∅) } where
  scene := ⟨c.cache, rfl⟩
  agrees := hagrees
  opened table schema h := by simp at h
  there table h := by simp at h
  rows table _ := by simp

/-- What a commit makes of the tables. -/
theorem Staging.kept (h : Staging s start session staged opened shelf c)
    (hkeeps : Keeps s.schemas (stored s) start.database.tables) :
    Keeps s.schemas (stored { s with shelf }) (start.database.applied staged) := by
  obtain ⟨rows, hrows, hregistry⟩ := hkeeps.registry
  have hunreserved : s.schemas Catalog.catalogTable = none := schemas_catalogTable hkeeps
  refine ⟨eq_none_of_isSome_eq (isSome_stored { s with shelf } _) hunreserved, fun table hname => ?_, rows,
    ?_, hregistry⟩
  · rw [Database.getElem?_applied, hkeeps.rows table hname, stored, stored]
    cases hschema : s.schemas table with
    | none => rfl
    | some schema => exact congrArg some (h.rows table (by rw [hschema]; rfl)).symm
  · rw [Database.getElem?_applied, hrows, staged_catalogTable hkeeps h.there]
    exact congrArg some (Changes.applyTo_empty rows)

/-- The end of a unit of work that ended well. -/
theorem Yields.commitNative (h : Staging s start session staged opened shelf c)
    (hkeeps : Keeps s.schemas (stored s) start.database.tables) (huses : start.database.Uses 1) :
    Yields i ((nativeOf k).commit session) c fun r c' => r = .ok () ∧
      ∃ db, c' = { c with database := db } ∧ db.Uses 1 ∧
        Keeps s.schemas (stored { s with shelf }) db.tables := by
  obtain ⟨cache, rfl⟩ := h.scene
  have hthere : ∀ table ∈ staged, table ∈ start.database.tables := fun table hmem =>
    hkeeps.mem_tables ((isSome_stored s table).trans (h.there table hmem))
  refine bind (database (Database.commit_of_some (Database.staged?_setStaged_self _ _ _) huses.sound hthere) ?_)
  exact pure ⟨rfl, _, rfl, ⟨huses.sessions, huses.sound⟩, h.kept hkeeps⟩

/-- A unit of work between two moments of rest. -/
theorem Yields.runNative (work : Work Id α) (h : Serves Tabled s c) :
    Yields (some k) ((nativeOf k).execution.run work.hoist).run c fun r c' =>
      r = (s.run work).1 ∧ Serves Tabled (s.run work).2 c' := by
  obtain ⟨hunused, hkeeps⟩ := h.holds
  obtain ⟨session, db, hconnect, huses, htables, hstaged⟩ := hunused.connect
  rw [← htables] at hkeeps
  have hbegin : db.perform (.begin session) = (.ok (), db.setStaged session (some ∅)) := by
    simp only [Database.perform, Database.begin, hstaged]
    rfl
  refine YieldsAround.run (Performs.lift (Yields.database hconnect (Performs.bind ?_)))
  refine Performs.lift (Yields.database hbegin (Performs.bind (Performs.invoke ?_)))
  have hstart : Staging s { c with database := db } session ∅ ∅ s.shelf _ := Staging.begin db h.agrees
  refine ((mimics_staged hkeeps).perform work ⟨∅, hstart⟩).mono ?_
  rintro ⟨r, opened⟩ c' ⟨hr, staged, hstaging⟩
  generalize hended : (work.perform (Shelf.tables s.schemas)).run s.shelf = ended at hr hstaging
  obtain ⟨ended, shelf⟩ := ended
  cases hr
  cases r with
  | ok a =>
    rw [Reference.run_of_ok hended]
    refine Performs.lifted ((Yields.commitNative hstaging hkeeps huses).mono ?_)
    rintro _ _ ⟨rfl, db', rfl, huses', hkeeps'⟩
    refine Performs.lift (Yields.close (Performs.pure ⟨rfl, ⟨huses'.close, hkeeps'⟩, hstaging.agrees⟩))
  | error failure =>
    rw [Reference.run_of_error hended]
    obtain ⟨cache, rfl⟩ := hstaging.scene
    refine Performs.lift (Yields.bind (Yields.database rfl (Yields.pure (Performs.pure ?_))))
    refine Performs.lift (Yields.close (Performs.pure ⟨rfl, ⟨?_, hkeeps⟩, hstaging.agrees⟩))
    exact Database.Uses.close ⟨huses.sessions, huses.sound⟩

/-! ### The backend -/

/-- The engine over the relational database of its process. -/
def relationalEngine (k : Nat) : Engine SiteM where
  kind := .relational
  runner := (nativeOf k).runner
  definition := Definition.relational Site.database (nativeOf k).catalog
  catalog := (nativeOf k).catalog

/-- The relational database of a process. -/
def relationalBackend : Backend where
  registry := Catalog.tabled Site.database
  createStorage schema := Site.database.withConnection fun session =>
    Site.database.perform (.createTable session schema)
  dropStorage table := Site.database.withConnection fun session =>
    Site.database.perform (.dropTable session table)
  Holds := Tabled

/-- A relational database does what an engine over it needs. -/
theorem relationalBackend_carries (k : Nat) : relationalBackend.Carries k (relationalEngine k) where
  schemaOf_eq := rfl
  createTable_eq _ hname := if_neg hname
  dropTable_eq := rfl
  holds_cache h := ⟨h.unused, h.kept⟩
  holds_thread h := ⟨h.unused, h.kept⟩
  find _ h hnone := h.find hnone
  register schema h hnone := h.register schema hnone
  remove _ h hsome := h.remove hsome
  create schema hname h hnone := h.create schema hname hnone
  drop _ h hsome := h.drop hsome
  run work _ _ h := Yields.runNative work h

/-- Preparing a new database leaves it with an empty registry. -/
theorem Yields.prepare {url : String} {limit waitMs : Nat} (hlimit : 0 < limit)
    (hnew : c.database = Database.empty url limit waitMs) :
    Yields i (Catalog.prepare Site.database).run c
      (Done (Tabled (fun _ => none) fun _ => none) c) := by
  have hunused : c.database.Uses 0 := by
    rw [hnew]
    exact ⟨⟨rfl, hlimit⟩, rfl⟩
  refine withConnection hunused fun session db huses htables _ => ?_
  have hempty : db.tables = ∅ := by rw [htables, hnew]; rfl
  have hmem : Catalog.catalogTable ∉ db.tables := by simp [hempty]
  refine andThen (database (r := .ok false) (d := db) ?_ ?_)
  · rw [Database.perform, decide_eq_false hmem]
  refine outcome (database (r := .ok ()) (d := { db with tables := db.tables.insert Catalog.catalogTable ∅ })
    ?_ (reported ⟨rfl, ⟨Database.Uses.close ⟨huses.sessions, huses.sound⟩, ?_⟩, rfl⟩))
  · rw [Database.perform, Database.createTable, if_neg (show Catalog.catalogSchema.name ∉ db.tables from hmem)]
    rfl
  · refine ⟨rfl, fun table hname => ?_, ∅, ?_, fun table => by simp⟩
    · rw [Database.tables_close, hempty, Std.ExtTreeMap.getElem?_insert, if_neg (by simpa using hname.symm)]
      simp
    · rw [Database.tables_close]
      exact Std.ExtTreeMap.getElem?_insert_self

end Tabular.Bench
