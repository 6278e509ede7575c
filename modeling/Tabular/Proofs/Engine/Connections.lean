import Tabular.Proofs.Engine.Backend
import Tabular.Proofs.Engine.Sessions
import Tabular.Proofs.Relational.Steps

/-!
# Tabular.Proofs.Engine.Connections — one connection at a time

Where an engine does one thing after another, a database has no connection in use between two of them and
one during each.  `Keeps listed stored tables` says that the committed tables are those `stored` and that of
the registry, with a row for each table `listed`.  Main statements: the rules for work on a connection of its
own, and for a change of the registry.
-/

namespace Tabular

/-- Changing a key last is laying the change over the rows. -/
theorem Changes.applyTo_insert (changes : Changes) (rows : Rows) (key : RowKey) (cell : Option Row) :
    Changes.applyTo (changes.insert key cell) rows = (changes.applyTo rows).change key cell := by
  refine Std.ExtTreeMap.ext_getElem? fun other => ?_
  rw [getElem?_applyTo, Rows.getElem?_change, getElem?_applyTo, Std.ExtTreeMap.getElem?_insert]
  by_cases h : key = other <;> simp [h]

@[simp] theorem Changes.applyTo_empty (rows : Rows) : Changes.applyTo ∅ rows = rows := by
  refine Std.ExtTreeMap.ext_getElem? fun key => ?_
  simp [getElem?_applyTo]

namespace Database

variable {db : Database} {session n : Nat} {table : String} {rows : Rows} {staged staged' : Option Staged}

/-- Whether a number of connections is in use, and no commit is bound to fail. -/
structure Uses (n : Nat) (db : Database) : Prop where
  sessions : db.sessions.Uses n
  sound : db.failCommits = false

theorem setStaged_setStaged : (db.setStaged session staged).setStaged session staged' =
    db.setStaged session staged' := by
  have hconnections : (db.connections.insert session staged).insert session staged' =
      db.connections.insert session staged' := by
    refine Std.ExtTreeMap.ext_getElem? fun other => ?_
    simp only [Std.ExtTreeMap.getElem?_insert]
    split <;> rfl
  simp only [Database.setStaged, hconnections]

/-- A connection can be had where none is in use. -/
theorem Uses.connect (h : Uses 0 db) : ∃ session db', db.perform .connect = (.ok session, db') ∧
    Uses 1 db' ∧ db'.tables = db.tables ∧ db'.staged? session = none := by
  obtain ⟨huses, hslot | ⟨session, hitem⟩⟩ := h.sessions.take
  · refine ⟨db.nextSession, db.connect.2, ?_, ?_, tables_connect db, ?_⟩
    · rw [perform, Database.connect, hslot]
    · rw [Database.connect, hslot]
      exact ⟨⟨huses.outstanding, huses.room⟩, h.sound⟩
    · rw [Database.connect, hslot]
      exact staged?_setStaged_self _ _ _
  · refine ⟨session, db.connect.2, ?_, ?_, tables_connect db, ?_⟩
    · rw [perform, Database.connect, hitem]
    · rw [Database.connect, hitem]
      exact ⟨huses, h.sound⟩
    · rw [Database.connect, hitem]
      exact staged?_setStaged_self _ _ _

theorem Uses.close (h : Uses 1 db) : Uses 0 (db.close session) := ⟨h.sessions.put session true, h.sound⟩

theorem seen_of_some {changes : Staged} (h : db.staged? session = some changes)
    (hrows : db.tables[table]? = some rows) :
    db.seen session table = .ok ((changes.getD table ∅).applyTo rows) := by
  rw [seen, stagedFor_of_some h, rows_of_getElem? hrows]
  rfl

theorem seen_of_none (h : db.staged? session = none) (hrows : db.tables[table]? = some rows) :
    db.seen session table = .ok rows := by
  rw [seen, stagedFor_of_none h, rows_of_getElem? hrows]
  exact congrArg Except.ok (Changes.applyTo_empty rows)

/-- What a connection reads of a table. -/
theorem perform_read (schema : TableSchema) (key : RowKey) (h : db.seen session schema.name = .ok rows) :
    db.perform (.read session schema key) = (.ok rows[key]?, db) := by
  rw [perform, h]
  rfl

end Database

namespace Bench

/-! ### The committed tables -/

/-- Whether committed tables are those of an engine, and that of the registry. -/
structure Keeps (listed : Schemas) (stored : Stored) (tables : Std.ExtTreeMap String Rows) : Prop where
  unreserved : stored Catalog.catalogTable = none
  rows : ∀ table, table ≠ Catalog.catalogTable → tables[table]? = stored table
  registry : ∃ rows, tables[Catalog.catalogTable]? = some rows ∧
    ∀ table, (rows[Catalog.rowKey table]?).isSome = (listed table).isSome

namespace Keeps

variable {listed : Schemas} {stored : Stored} {tables : Std.ExtTreeMap String Rows} {table : String}

theorem ne_of_isSome (h : Keeps listed stored tables) (hsome : (stored table).isSome) :
    table ≠ Catalog.catalogTable := by
  rintro rfl
  simp [h.unreserved] at hsome

theorem mem_tables (h : Keeps listed stored tables) (hsome : (stored table).isSome) : table ∈ tables := by
  rw [Std.ExtTreeMap.mem_iff_isSome_getElem?, h.rows table (h.ne_of_isSome hsome), hsome]

/-- One table is created without rows, or dropped. -/
theorem restock (h : Keeps listed stored tables) (hname : table ≠ Catalog.catalogTable)
    {tables' : Std.ExtTreeMap String Rows}
    (hothers : ∀ other, other ≠ table → tables'[other]? = tables[other]?) :
    Keeps listed (Function.update stored table tables'[table]?) tables' := by
  obtain ⟨rows, hrows, hregistry⟩ := h.registry
  refine ⟨by rw [Function.update_of_ne hname.symm, h.unreserved], fun other hother => ?_, rows, ?_, hregistry⟩
  · by_cases heq : other = table
    · rw [heq, Function.update_self]
    · rw [Function.update_of_ne heq, hothers other heq, h.rows other hother]
  · rw [hothers _ hname.symm, hrows]

theorem create (h : Keeps listed stored tables) (hname : table ≠ Catalog.catalogTable) :
    Keeps listed (Function.update stored table (some ∅)) (tables.insert table ∅) := by
  have hothers : ∀ other, other ≠ table → (tables.insert table ∅)[other]? = tables[other]? := by
    intro other hother
    rw [Std.ExtTreeMap.getElem?_insert, if_neg (by simpa using hother.symm)]
  rw [← Std.ExtTreeMap.getElem?_insert_self (t := tables) (k := table)]
  exact h.restock hname hothers

theorem drop (h : Keeps listed stored tables) (hname : table ≠ Catalog.catalogTable) :
    Keeps listed (Function.update stored table none) (tables.erase table) := by
  have hothers : ∀ other, other ≠ table → (tables.erase table)[other]? = tables[other]? := by
    intro other hother
    rw [Std.ExtTreeMap.getElem?_erase, if_neg (by simpa using hother.symm)]
  rw [← Std.ExtTreeMap.getElem?_erase_self (t := tables) (k := table)]
  exact h.restock hname hothers

/-- One row of the registry is added or removed. -/
theorem relist (h : Keeps listed stored tables) {listed' : Schemas} {tables' : Std.ExtTreeMap String Rows}
    {rows : Rows} {cell : Option Row} (hrows : tables[Catalog.catalogTable]? = some rows)
    (hrows' : tables'[Catalog.catalogTable]? = some (rows.change (Catalog.rowKey table) cell))
    (hothers : ∀ other, other ≠ Catalog.catalogTable → tables'[other]? = tables[other]?)
    (hcell : cell.isSome = (listed' table).isSome)
    (hlisted : ∀ other, other ≠ table → listed' other = listed other) : Keeps listed' stored tables' := by
  obtain ⟨rows₀, hrows₀, hregistry⟩ := h.registry
  cases hrows.symm.trans hrows₀
  refine ⟨h.unreserved, fun other hother => (hothers other hother).trans (h.rows other hother), _, hrows',
    fun other => ?_⟩
  rw [Rows.getElem?_change]
  by_cases heq : other = table
  · rw [if_pos (by rw [heq]), hcell, heq]
  · have hne : Catalog.rowKey table ≠ Catalog.rowKey other := by
      intro hkey
      exact heq (KeyPart.string.inj (List.head_eq_of_cons_eq (congrArg RowKey.parts hkey))).symm
    rw [if_neg hne, hregistry, hlisted other heq]

end Keeps

/-! ### Work on a connection -/

variable {β : Type} {i : Option Nat} {c : Scene} {db : Database} {session : Nat}

/-- Work on a connection of its own. -/
theorem Yields.withConnection {use : Nat → Attempt SiteM β} {post : Except StoreError β → Scene → Prop}
    (h : c.database.Uses 0)
    (huse : ∀ session db, db.Uses 1 → db.tables = c.database.tables → db.staged? session = none →
      Yields i (use session).run { c with database := db } fun r c' =>
        post r { c' with database := c'.database.close session }) :
    Yields i (Site.database.withConnection use).run c post := by
  obtain ⟨session, db, hconnect, huses, htables, hstaged⟩ := h.connect
  refine andThen (database hconnect ?_)
  exact outcome ((huse session db huses htables hstaged).mono fun r c' hpost => action (close (of hpost)))

/-- The change of one row of the registry, as it is kept aside. -/
def relisted (key : RowKey) (cell : Option Row) : Staged :=
  Std.ExtTreeMap.insert ∅ Catalog.catalogTable (Std.ExtTreeMap.insert ∅ key cell)

/-- A change of one row of the registry, in a transaction of its own. -/
theorem Yields.transact {change : Nat → Attempt SiteM Unit} {key : RowKey} {cell : Option Row} {rows : Rows}
    (h : c.database.Uses 0) (hrows : c.database.tables[Catalog.catalogTable]? = some rows)
    (hchange : ∀ session db, db.tables = c.database.tables → db.staged? session = some ∅ →
      Yields i (change session).run { c with database := db } fun r c' => r = .ok () ∧
        c' = { c with database := db.setStaged session (some (relisted key cell)) }) :
    Yields i (Catalog.transact Site.database change).run c fun r c' => r = .ok () ∧
      ∃ db, c' = { c with database := db } ∧ db.Uses 0 ∧
        db.tables[Catalog.catalogTable]? = some (rows.change key cell) ∧
        ∀ other, other ≠ Catalog.catalogTable → db.tables[other]? = c.database.tables[other]? := by
  refine withConnection h fun session db huses htables hstaged => ?_
  have hbegin : db.perform (.begin session) = (.ok (), db.setStaged session (some ∅)) := by
    simp only [Database.perform, Database.begin, hstaged]
    rfl
  refine andThen (database hbegin ?_)
  refine outcome ((hchange session (db.setStaged session (some ∅)) htables (by simp)).mono ?_)
  rintro _ _ ⟨rfl, rfl⟩
  have hstaged' : ((db.setStaged session (some ∅)).setStaged session (some (relisted key cell))).staged?
      session = some (relisted key cell) := by simp
  have hthere : ∀ table ∈ relisted key cell, table ∈ db.tables := by
    intro table htable
    have heq : Catalog.catalogTable = table := by simpa [relisted] using htable
    rw [← heq, Std.ExtTreeMap.mem_iff_isSome_getElem?, htables, hrows]
    rfl
  refine Yields.database (Database.commit_of_some hstaged' huses.sound hthere) ⟨rfl, _, rfl, ?_, ?_, ?_⟩
  · exact Database.Uses.close ⟨huses.sessions, huses.sound⟩
  · rw [Database.tables_close]
    show (db.applied (relisted key cell))[Catalog.catalogTable]? = _
    rw [Database.getElem?_applied, htables, hrows]
    simp [relisted, Changes.applyTo_insert]
  · intro other hother
    rw [Database.tables_close]
    show (db.applied (relisted key cell))[other]? = _
    have hnone : (relisted key cell).getD other ∅ = ∅ := by
      simp [relisted, Std.ExtTreeMap.getD_insert, hother.symm]
    rw [Database.getElem?_applied, htables, hnone]
    cases c.database.tables[other]? with
    | none => rfl
    | some rows => exact congrArg some (Changes.applyTo_empty rows)

end Bench

end Tabular
