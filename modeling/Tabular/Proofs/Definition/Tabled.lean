import Tabular.Proofs.Definition.Backends
import Tabular.Proofs.Engine.Relational

/-!
# Tabular.Proofs.Definition.Tabled — a relational database, step by step

Main statements: what may come of each step of a definition over a relational database, each on a connection
of its own: a look into the table of the catalog, the change of one row of it in a transaction, and the
creation and dropping of a table.
-/

namespace Tabular.Definition

open Sharing

variable {α : Type} {w w' : BackendPlace} {b b' : Backends} {session : Nat} {table : String}
  {schema : TableSchema} {rows : Rows}

/-! ### What does not concern the tables -/

theorem standing_of_tables (h : b'.database.tables = b.database.tables) :
    b'.standing .relational = b.standing .relational := by
  unfold Backends.standing
  rw [h]

theorem prepared_of_tables (h : b'.database.tables = b.database.tables) (hready : b.Prepared .relational) :
    b'.Prepared .relational := by
  unfold Backends.Prepared
  rw [standing_of_tables h, h]
  exact hready

theorem outage_of_connect {db : Database} {e : StoreError} (h : db.connect.1 = .error e) : Outage e := by
  unfold Database.connect at h
  split at h <;> cases h
  trivial

theorem outage_of_commit {db : Database} {e : StoreError} (h : (db.commit session).1 = .error e) :
    Outage e := by
  unfold Database.commit at h
  split at h
  · cases h
    trivial
  · dsimp only at h
    split at h
    · cases h
      trivial
    · split at h <;> cases h
      trivial

/-- What a new connection is. -/
theorem ends_connect {r : Except StoreError Nat}
    (hends : Ends Backends.Answers (askedDatabase.perform .connect).run w r w') :
    w'.content = w.content ∧ w'.outside.database.tables = w.outside.database.tables ∧
      ∀ session, r = .ok session → w'.outside.database.staged? session = none := by
  obtain ⟨b, ⟨e, he, rfl, rfl⟩ | ⟨rfl, rfl⟩, rfl⟩ := ends_perform.1 hends
  · exact ⟨rfl, rfl, nofun⟩
  · exact ⟨rfl, Database.tables_connect _, fun session hok =>
      (Database.staged?_connect_ok _ _ _ hok).trans (if_pos rfl)⟩

theorem ends_connect_error {e : StoreError}
    (hends : Ends Backends.Answers (askedDatabase.perform .connect).run w (.error e) w') : Outage e := by
  obtain ⟨b, ⟨e', he, heq, rfl⟩ | ⟨heq, rfl⟩, rfl⟩ := ends_perform.1 hends
  · cases heq
    exact he
  · exact outage_of_connect heq.symm

/-- What is done on a connection of its own. -/
theorem comes_withConnection {use : Nat → Attempt BackendProgram α}
    {Q : Standing Rows Row → Except StoreError α → Standing Rows Row → Prop}
    (hfail : ∀ s e, Outage e → Q s (.error e) s)
    (huse : ∀ session w r w', w.outside.database.staged? session = none → w.outside.Prepared .relational →
      Ends Backends.Answers (use session).run w r w' →
      w'.content = w.content ∧ w'.outside.Prepared .relational ∧
        Q (w.outside.standing .relational) r (w'.outside.standing .relational)) :
    BackendComes .relational (askedDatabase.withConnection use) Q := by
  intro w r w' hready hends
  rcases ends_andThen.1 hends with ⟨session, w₁, hconnect, hrest⟩ | ⟨e, hconnect, rfl⟩
  · obtain ⟨hcontent, htables, hstaged⟩ := ends_connect hconnect
    obtain ⟨q, w₂, hq, hrest⟩ := ends_outcome.1 hrest
    obtain ⟨hcontent', hready', hQ⟩ :=
      huse session w₁ q w₂ (hstaged session rfl) (prepared_of_tables htables hready) hq
    obtain ⟨_, w₃, hclose, hrest⟩ := ends_lift.1 hrest
    obtain ⟨b, rfl, rfl⟩ := ends_call.1 hclose
    obtain ⟨rfl, rfl⟩ := ends_of.1 hrest
    refine ⟨hcontent'.trans hcontent, prepared_of_tables rfl hready', ?_⟩
    rw [standing_of_tables htables] at hQ
    exact hQ
  · obtain ⟨hcontent, htables, -⟩ := ends_connect hconnect
    refine ⟨hcontent, prepared_of_tables htables hready, ?_⟩
    show Q (w.outside.standing .relational) _ (w'.outside.standing .relational)
    rw [standing_of_tables htables]
    exact hfail _ e (ends_connect_error hconnect)

/-! ### The table of the catalog -/

theorem Outage.restateMissing {e : StoreError} (h : Outage e) : Catalog.restateMissing e = e := by
  cases e with
  | tableNotFound => exact h.elim
  | _ => rfl

/-- What is read of the table of the catalog. -/
theorem ends_rowOn {r : Except StoreError (Option Row)}
    (hseen : w.outside.database.seen session Catalog.catalogTable = .ok rows)
    (hends : Ends Backends.Answers (Catalog.rowOn askedDatabase session table).run w r w') :
    w' = w ∧ (r = .ok rows[Catalog.rowKey table]? ∨ ∃ e, Outage e ∧ r = .error e) := by
  obtain ⟨q, hq, rfl⟩ := ends_mapError.1 hends
  obtain ⟨b, ⟨e, he, rfl, rfl⟩ | ⟨rfl, rfl⟩, rfl⟩ := ends_perform.1 hq
  · exact ⟨rfl, .inr ⟨e, he, congrArg Except.error he.restateMissing⟩⟩
  · have hread := Database.perform_read Catalog.catalogSchema (Catalog.rowKey table) hseen
    rw [hread]
    exact ⟨rfl, .inl rfl⟩

theorem stored_catalogTable (b : Backends) : (b.standing .relational).stored Catalog.catalogTable = none := by
  simp [Backends.standing]

theorem stored_of_ne (h : table ≠ Catalog.catalogTable) :
    (b.standing .relational).stored table = b.database.tables[table]? := if_neg h

theorem entries_of_rows (hrows : b.database.tables[Catalog.catalogTable]? = some rows) (table : String) :
    (b.standing .relational).entries table = rows[Catalog.rowKey table]? :=
  congrArg (Option.bind · (·[Catalog.rowKey table]?)) hrows

theorem exists_rows (hready : b.Prepared .relational) :
    ∃ rows, b.database.tables[Catalog.catalogTable]? = some rows :=
  Option.isSome_iff_exists.1 (Std.ExtTreeMap.mem_iff_isSome_getElem?.1 hready.1)

theorem rowKey_inj {table other : String} : Catalog.rowKey table = Catalog.rowKey other ↔ table = other := by
  simp [Catalog.rowKey]

theorem schemaOfRow_error {row : Row} {e : StoreError} (h : Catalog.schemaOfRow table row = .error e) :
    (∀ name, e ≠ .tableNotFound name) ∧ e.isConsistency = false := by
  unfold Catalog.schemaOfRow at h
  split at h
  · exact TableSchema.ofDocumentChecked_error h
  · cases h
    exact ⟨nofun, rfl⟩

theorem tabled_find :
    BackendComes .relational ((Catalog.tabled askedDatabase).find table) (·.Found table) := by
  refine comes_withConnection (fun s e he => .failed he.ne_tableNotFound he.not_consistency) ?_
  intro session w r w' hstaged hready hends
  obtain ⟨rows, hrows⟩ := exists_rows hready
  have hentries := entries_of_rows hrows
  have hseen := Database.seen_of_none hstaged hrows
  rcases ends_andThen.1 hends with ⟨row, w₁, hrow, hrest⟩ | ⟨e, hrow, rfl⟩
  · obtain ⟨rfl, heq | ⟨e, -, heq⟩⟩ := ends_rowOn hseen hrow
    · cases heq
      cases hentry : rows[Catalog.rowKey table]? with
      | some row =>
        rw [hentry] at hrest
        obtain ⟨rfl, rfl⟩ := ends_of.1 hrest
        refine ⟨rfl, hready, ?_⟩
        cases hschema : Catalog.schemaOfRow table row with
        | ok schema => exact .found schema (by rw [hentries, hentry]; rfl)
        | error e =>
          obtain ⟨he, hnot⟩ := schemaOfRow_error hschema
          exact .failed he hnot
      | none =>
        rw [hentry] at hrest
        obtain ⟨rfl, rfl⟩ := ends_throw.1 hrest
        exact ⟨rfl, hready, .missing table ((hentries table).trans hentry)⟩
    · cases heq
  · obtain ⟨rfl, heq | ⟨e, he, heq⟩⟩ := ends_rowOn hseen hrow
    · cases heq
    · cases heq
      exact ⟨rfl, hready, .failed he.ne_tableNotFound he.not_consistency⟩

/-! ### Storage -/

/-- The storage of one table is added or removed. -/
theorem restocked {content : Option Rows} {Conflict : StoreError → Prop} (hready : b.Prepared .relational)
    (hname : table ≠ Catalog.catalogTable) (hdue : (b.database.tables[table]?).isSome ≠ content.isSome)
    (hself : b'.database.tables[table]? = content)
    (hothers : ∀ other, table ≠ other → b'.database.tables[other]? = b.database.tables[other]?) :
    b'.Prepared .relational ∧
      (b.standing .relational).Stocked table content Conflict (.ok ()) (b'.standing .relational) := by
  obtain ⟨rows, hrows⟩ := exists_rows hready
  have hrows' : b'.database.tables[Catalog.catalogTable]? = some rows := (hothers _ hname).trans hrows
  have hentries : (b'.standing .relational).entries = (b.standing .relational).entries := by
    funext other
    rw [entries_of_rows hrows, entries_of_rows hrows']
  have hstored : (b'.standing .relational).stored =
      Function.update (b.standing .relational).stored table content := by
    funext other
    by_cases htable : other = table
    · rw [htable, Function.update_self, stored_of_ne hname, hself]
    · rw [Function.update_of_ne htable]
      by_cases hother : other = Catalog.catalogTable
      · rw [hother, stored_catalogTable, stored_catalogTable]
      · rw [stored_of_ne hother, stored_of_ne hother, hothers _ (Ne.symm htable)]
  refine ⟨⟨?_, (congrFun hentries _).trans hready.2⟩, .made_of (Standing.ext hstored hentries) ?_⟩
  · rw [Std.ExtTreeMap.mem_iff_isSome_getElem?, hrows']
    rfl
  · rw [stored_of_ne hname]
    exact hdue

theorem database_createTable (hname : schema.name ≠ Catalog.catalogTable) :
    BackendComes .relational
      (askedDatabase.withConnection fun session => askedDatabase.perform (.createTable session schema))
      (·.Stocked schema.name (some ∅) fun e => ∃ name, e = .tableAlreadyExists name) := by
  refine comes_withConnection (fun s e he => .failed he) ?_
  intro session w r w' hstaged hready hends
  obtain ⟨b, ⟨e, he, rfl, rfl⟩ | ⟨rfl, rfl⟩, rfl⟩ := ends_perform.1 hends
  · exact ⟨rfl, hready, .failed he⟩
  · by_cases hmem : schema.name ∈ w.outside.database.tables
    · have hperform : w.outside.database.perform (.createTable session schema) =
          (.error (.tableAlreadyExists schema.name), w.outside.database) := by
        rw [Database.perform, Database.createTable, if_pos hmem]
        rfl
      rw [hperform]
      refine ⟨rfl, hready, .refused ?_ ⟨_, rfl⟩⟩
      simp [Backends.standing, hname, Std.ExtTreeMap.mem_iff_isSome_getElem?.1 hmem]
    · have hperform : w.outside.database.perform (.createTable session schema) =
          (.ok (), { w.outside.database with tables := w.outside.database.tables.insert schema.name ∅ }) := by
        rw [Database.perform, Database.createTable, if_neg hmem]
        rfl
      rw [hperform]
      refine ⟨rfl, restocked hready hname ?_ ?_ fun other hother => ?_⟩
      · simp [Std.ExtTreeMap.getElem?_eq_none hmem]
      · simp
      · simp [Std.ExtTreeMap.getElem?_insert, hother]

theorem database_dropTable (hname : table ≠ Catalog.catalogTable) :
    BackendComes .relational
      (askedDatabase.withConnection fun session => askedDatabase.perform (.dropTable session table))
      (·.Stocked table none fun e => ∃ name, e = .tableNotFound name) := by
  refine comes_withConnection (fun s e he => .failed he) ?_
  intro session w r w' hstaged hready hends
  obtain ⟨b, ⟨e, he, rfl, rfl⟩ | ⟨rfl, rfl⟩, rfl⟩ := ends_perform.1 hends
  · exact ⟨rfl, hready, .failed he⟩
  · by_cases hmem : table ∈ w.outside.database.tables
    · have hperform : w.outside.database.perform (.dropTable session table) =
          (.ok (), { w.outside.database with tables := w.outside.database.tables.erase table }) := by
        rw [Database.perform, Database.dropTable, if_pos hmem]
        rfl
      rw [hperform]
      refine ⟨rfl, restocked hready hname ?_ ?_ fun other hother => ?_⟩
      · simpa using Std.ExtTreeMap.mem_iff_isSome_getElem?.1 hmem
      · simp
      · simp [Std.ExtTreeMap.getElem?_erase, hother]
    · have hperform : w.outside.database.perform (.dropTable session table) =
          (.error (.tableNotFound table), w.outside.database) := by
        rw [Database.perform, Database.dropTable, if_neg hmem]
        rfl
      rw [hperform]
      refine ⟨rfl, hready, .refused ?_ ⟨_, rfl⟩⟩
      simp [Backends.standing, hname, Std.ExtTreeMap.getElem?_eq_none hmem]

/-! ### Changing one row of the table of the catalog -/

/-- One row of the catalog is added or removed. -/
theorem relisted {cell : Option Row} (hname : table ≠ Catalog.catalogTable) (hready : b.Prepared .relational)
    (hrows : b.database.tables[Catalog.catalogTable]? = some rows)
    (hself : b'.database.tables[Catalog.catalogTable]? = some (rows.change (Catalog.rowKey table) cell))
    (hothers : ∀ other, other ≠ Catalog.catalogTable →
      b'.database.tables[other]? = b.database.tables[other]?) :
    b'.Prepared .relational ∧
      b'.standing .relational = (b.standing .relational).withEntry table cell := by
  have hstored : (b'.standing .relational).stored = (b.standing .relational).stored := by
    funext other
    by_cases hother : other = Catalog.catalogTable
    · rw [hother, stored_catalogTable, stored_catalogTable]
    · rw [stored_of_ne hother, stored_of_ne hother, hothers _ hother]
  have hentries : (b'.standing .relational).entries =
      Function.update (b.standing .relational).entries table cell := by
    funext other
    rw [entries_of_rows hself, Rows.getElem?_change]
    by_cases hother : other = table
    · rw [hother, if_pos rfl, Function.update_self]
    · rw [if_neg fun heq => hother (rowKey_inj.1 heq).symm, Function.update_of_ne hother,
        entries_of_rows hrows]
  refine ⟨⟨?_, ?_⟩, Standing.ext hstored hentries⟩
  · rw [Std.ExtTreeMap.mem_iff_isSome_getElem?, hself]
    rfl
  · rw [hentries, Function.update_of_ne (Ne.symm hname)]
    exact hready.2

/-- A change of one row that fails leaves the catalog as it is. -/
theorem unlisted {cell : Option Row} {e : StoreError} (hready : b.Prepared .relational)
    (hrows : b.database.tables[Catalog.catalogTable]? = some rows)
    (htables : b'.database.tables = b.database.tables)
    (he : Outage e ∨ (rows[Catalog.rowKey table]?).isSome = cell.isSome) :
    b'.Prepared .relational ∧
      (b.standing .relational).Listed table cell (.error e) (b'.standing .relational) := by
  refine ⟨prepared_of_tables htables hready, ?_⟩
  rw [standing_of_tables htables]
  rcases he with he | heq
  · exact .failed he
  · rw [← entries_of_rows hrows] at heq
    exact .refused heq

/-- What a commit makes of the catalog, in a transaction that has changed one row of it. -/
theorem relisted_of_commit {db : Database} {cell : Option Row} (hname : table ≠ Catalog.catalogTable)
    (hready : b.Prepared .relational) (htables : db.tables = b.database.tables)
    (hrows : b.database.tables[Catalog.catalogTable]? = some rows)
    (hstaged : db.staged? session = some (Bench.relisted (Catalog.rowKey table) cell))
    (hcommit : (db.commit session).1 = .ok ()) (hb' : b'.database.tables = (db.commit session).2.tables) :
    b'.Prepared .relational ∧
      b'.standing .relational = (b.standing .relational).withEntry table cell := by
  have hcommitted : ∀ other, b'.database.tables[other]? = b.database.tables[other]?.map
      ((Bench.relisted (Catalog.rowKey table) cell).getD other ∅).applyTo := by
    intro other
    rw [hb', Database.getElem?_tables_commit hcommit, htables, Database.stagedFor_of_some hstaged]
  have hself : b'.database.tables[Catalog.catalogTable]? =
      some (rows.change (Catalog.rowKey table) cell) := by
    simp [hcommitted, hrows, Bench.relisted, Changes.applyTo_insert]
  have hothers : ∀ other, other ≠ Catalog.catalogTable →
      b'.database.tables[other]? = b.database.tables[other]? := by
    intro other hother
    rw [hcommitted]
    cases b.database.tables[other]? with
    | none => rfl
    | some rows => simp [Bench.relisted, Std.ExtTreeMap.getD_insert, Ne.symm hother]
  exact relisted hname hready hrows hself hothers

/-- What a transaction makes of the catalog that has changed one row of it and then commits. -/
theorem listed_of_commit {db : Database} {cell : Option Row} {r : Except StoreError Unit}
    (hname : table ≠ Catalog.catalogTable) (hready : b.Prepared .relational)
    (htables : db.tables = b.database.tables)
    (hrows : b.database.tables[Catalog.catalogTable]? = some rows)
    (hstaged : db.staged? session = some (Bench.relisted (Catalog.rowKey table) cell))
    (hdue : (rows[Catalog.rowKey table]?).isSome ≠ cell.isSome) (hcommit : (db.commit session).1 = r)
    (hb' : b'.database.tables = (db.commit session).2.tables) :
    b'.Prepared .relational ∧ (b.standing .relational).Listed table cell r (b'.standing .relational) := by
  cases r with
  | ok =>
    obtain ⟨hready', hs⟩ := relisted_of_commit hname hready htables hrows hstaged hcommit hb'
    refine ⟨hready', .made_of hs ?_⟩
    rw [entries_of_rows hrows]
    exact hdue
  | error e =>
    have hsame := (Database.tables_commit_of_error hcommit).trans htables
    exact unlisted hready hrows (hb'.trans hsame) (.inl (outage_of_commit hcommit))

/-- Whether work in a transaction that has changed nothing yet changes one row of the catalog, unless that
fails or the row is as wanted. -/
def Edits (table : String) (cell : Option Row) (work : Nat → Attempt BackendProgram Unit) : Prop :=
  ∀ session w r w' rows, w.outside.database.staged? session = some ∅ →
    w.outside.database.tables[Catalog.catalogTable]? = some rows →
    Ends Backends.Answers (work session).run w r w' → w'.content = w.content ∧
      ((r = .ok () ∧ (rows[Catalog.rowKey table]?).isSome ≠ cell.isSome ∧ w'.outside.database =
          w.outside.database.setStaged session (some (Bench.relisted (Catalog.rowKey table) cell))) ∨
        ∃ e, r = .error e ∧ w'.outside.database = w.outside.database ∧
          (Outage e ∨ (rows[Catalog.rowKey table]?).isSome = cell.isSome))

/-- What is left of a transaction that is given up. -/
theorem ends_rolledBack {e : StoreError} {r : Except StoreError Unit}
    (hends : Ends Backends.Answers (do
        if let .error failure ← (askedDatabase.perform (.rollback session)).outcome then
          report (.warn s!"Registry rollback failed: {failure}")
        throw e : Attempt BackendProgram Unit).run w r w') :
    r = .error e ∧ w'.content = w.content ∧ w'.outside.database.tables = w.outside.database.tables := by
  obtain ⟨q, w₁, hq, hends⟩ := ends_outcome.1 hends
  obtain ⟨b, hanswer, rfl⟩ := ends_perform.1 hq
  have hrest : r = .error e ∧ w' = { w with outside := b } := by
    cases q with
    | ok => exact ends_throw.1 hends
    | error e' => exact ends_throw.1 hends
  obtain ⟨rfl, rfl⟩ := hrest
  obtain ⟨_, -, -, rfl⟩ | ⟨-, rfl⟩ := hanswer
  · exact ⟨rfl, rfl, rfl⟩
  · exact ⟨rfl, rfl, rfl⟩

/-- What the start of a transaction comes to. -/
theorem ends_begin {r : Except StoreError Unit} (hstaged : w.outside.database.staged? session = none)
    (hends : Ends Backends.Answers (askedDatabase.perform (.begin session)).run w r w') :
    w'.content = w.content ∧
      ((r = .ok () ∧ w'.outside.database = w.outside.database.setStaged session (some ∅)) ∨
        ∃ e, Outage e ∧ r = .error e ∧ w'.outside.database = w.outside.database) := by
  have hbegin : w.outside.database.perform (.begin session) =
      (.ok (), w.outside.database.setStaged session (some ∅)) := by
    simp only [Database.perform, Database.begin, hstaged]
    rfl
  obtain ⟨b, ⟨e, he, rfl, rfl⟩ | ⟨rfl, rfl⟩, rfl⟩ := ends_perform.1 hends
  · exact ⟨rfl, .inr ⟨e, he, rfl, rfl⟩⟩
  · rw [hbegin]
    exact ⟨rfl, .inl ⟨rfl, rfl⟩⟩

/-- What comes of changing one row of the catalog in a transaction of its own. -/
theorem comes_transact {work : Nat → Attempt BackendProgram Unit} {cell : Option Row}
    (hname : table ≠ Catalog.catalogTable) (hwork : Edits table cell work) :
    BackendComes .relational (Catalog.transact askedDatabase work) (·.Listed table cell) := by
  refine comes_withConnection (fun s e he => .failed he) ?_
  intro session w r w' hstaged hready hends
  obtain ⟨rows, hrows⟩ := exists_rows hready
  rcases ends_andThen.1 hends with ⟨_, w₁, hbegin, hends⟩ | ⟨e, hbegin, rfl⟩
  · obtain ⟨hcontent₁, ⟨-, hbegun⟩ | ⟨_, -, heq, -⟩⟩ := ends_begin hstaged hbegin
    · obtain ⟨q, w₂, hq, hends⟩ := ends_outcome.1 hends
      have hstaged₁ : w₁.outside.database.staged? session = some ∅ := by simp [hbegun]
      have hrows₁ : w₁.outside.database.tables[Catalog.catalogTable]? = some rows := by simp [hbegun, hrows]
      obtain ⟨hcontent₂, hedited⟩ := hwork session w₁ q w₂ rows hstaged₁ hrows₁ hq
      rcases hedited with ⟨rfl, hdue, hedited⟩ | ⟨e, rfl, hedited, he⟩
      · have htables₂ : w₂.outside.database.tables = w.outside.database.tables := by simp [hedited, hbegun]
        obtain ⟨b, ⟨e, he, rfl, rfl⟩ | ⟨hr, rfl⟩, rfl⟩ := ends_perform.1 hends
        · exact ⟨hcontent₂.trans hcontent₁, unlisted hready hrows htables₂ (.inl he)⟩
        · refine ⟨hcontent₂.trans hcontent₁, ?_⟩
          exact listed_of_commit hname hready htables₂ hrows (by simp [hedited]) hdue hr.symm rfl
      · obtain ⟨rfl, hcontent, htables⟩ := ends_rolledBack hends
        rw [hedited, hbegun] at htables
        exact ⟨hcontent.trans (hcontent₂.trans hcontent₁), unlisted hready hrows htables he⟩
    · cases heq
  · obtain ⟨hcontent, ⟨heq, -⟩ | ⟨_, he, heq, hsame⟩⟩ := ends_begin hstaged hbegin
    · cases heq
    · cases heq
      exact ⟨hcontent, unlisted hready hrows (congrArg Database.tables hsame) (.inl he)⟩

/-- What a change of one row of the catalog does, in a transaction that has changed nothing yet. -/
theorem perform_change {db : Database} (key : RowKey) (cell : Option Row)
    (hstaged : db.staged? session = some ∅) (hrows : db.tables[Catalog.catalogTable]? = some rows) :
    db.answered (((), ·) <$> db.change session Catalog.catalogTable key cell) =
      (.ok (), db.setStaged session (some (Bench.relisted key cell))) :=
  congrArg (fun x => db.answered (((), ·) <$> x))
    (Bench.change_registry key cell hstaged (Database.seen_of_some hstaged hrows))

/-- What is read of the table of the catalog in a transaction that has changed nothing yet. -/
theorem ends_rowOn_of_empty {r : Except StoreError (Option Row)}
    (hstaged : w.outside.database.staged? session = some ∅)
    (hrows : w.outside.database.tables[Catalog.catalogTable]? = some rows)
    (hends : Ends Backends.Answers (Catalog.rowOn askedDatabase session table).run w r w') :
    w' = w ∧ (r = .ok rows[Catalog.rowKey table]? ∨ ∃ e, Outage e ∧ r = .error e) := by
  refine ends_rowOn ?_ hends
  rw [Database.seen_of_some hstaged hrows]
  simp

/-- Whether a call makes the change of one row of the catalog, or fails without effect. -/
def Writes (table : String) (cell : Option Row) (call : Nat → Attempt BackendProgram Unit) : Prop :=
  ∀ session w r w' rows, w.outside.database.staged? session = some ∅ →
    w.outside.database.tables[Catalog.catalogTable]? = some rows →
    Ends Backends.Answers (call session).run w r w' → w'.content = w.content ∧
      ((r = .ok () ∧ w'.outside.database =
          w.outside.database.setStaged session (some (Bench.relisted (Catalog.rowKey table) cell))) ∨
        ∃ e, Outage e ∧ r = .error e ∧ w'.outside.database = w.outside.database)

theorem writes_upsert : Writes schema.name (some (Catalog.catalogRow schema)) fun session =>
    askedDatabase.perform (.upsert session Catalog.catalogSchema (Catalog.catalogRow schema)) := by
  intro session w r w' rows hstaged hrows hends
  have hperform : w.outside.database.perform
      (.upsert session Catalog.catalogSchema (Catalog.catalogRow schema)) = _ :=
    (Database.perform_upsert (Bench.keyOf_catalogRow schema)).trans (perform_change _ _ hstaged hrows)
  obtain ⟨b, ⟨e, he, rfl, rfl⟩ | ⟨rfl, rfl⟩, rfl⟩ := ends_perform.1 hends
  · exact ⟨rfl, .inr ⟨e, he, rfl, rfl⟩⟩
  · rw [hperform]
    exact ⟨rfl, .inl ⟨rfl, rfl⟩⟩

theorem writes_delete : Writes table none fun session =>
    askedDatabase.perform (.delete session Catalog.catalogSchema (Catalog.rowKey table)) := by
  intro session w r w' rows hstaged hrows hends
  have hperform : w.outside.database.perform
      (.delete session Catalog.catalogSchema (Catalog.rowKey table)) = _ :=
    perform_change _ _ hstaged hrows
  obtain ⟨b, ⟨e, he, rfl, rfl⟩ | ⟨rfl, rfl⟩, rfl⟩ := ends_perform.1 hends
  · exact ⟨rfl, .inr ⟨e, he, rfl, rfl⟩⟩
  · rw [hperform]
    exact ⟨rfl, .inl ⟨rfl, rfl⟩⟩

/-- The change of one row of the catalog, unless the row is found to be as wanted. -/
theorem Writes.edits {cell : Option Row} {call : Nat → Attempt BackendProgram Unit}
    (h : Writes table cell call) (refuses : Option Row → Bool) {refusal : StoreError}
    (hrefuses : ∀ row, refuses row = true ↔ row.isSome = cell.isSome) :
    Edits table cell (fun session => do
      if refuses (← Catalog.rowOn askedDatabase session table) then throw refusal
      Attempt.mapError Catalog.restateMissing (call session)) := by
  intro session w r w' rows hstaged hrows hends
  rcases ends_andThen.1 hends with ⟨row, w₁, hrow, hends⟩ | ⟨e, hrow, rfl⟩
  · obtain ⟨rfl, heq | ⟨_, -, heq⟩⟩ := ends_rowOn_of_empty hstaged hrows hrow
    · cases heq
      by_cases hrefused : refuses rows[Catalog.rowKey table]? = true
      · rw [if_pos hrefused] at hends
        obtain ⟨rfl, rfl⟩ := ends_throw.1 hends
        exact ⟨rfl, .inr ⟨_, rfl, rfl, .inr ((hrefuses _).1 hrefused)⟩⟩
      · rw [if_neg hrefused] at hends
        obtain ⟨q, hq, rfl⟩ := ends_mapError.1 hends
        obtain ⟨hcontent, ⟨rfl, hchanged⟩ | ⟨e, he, rfl, hsame⟩⟩ := h session w₁ q w' rows hstaged hrows hq
        · exact ⟨hcontent, .inl ⟨rfl, mt (hrefuses _).2 hrefused, hchanged⟩⟩
        · exact ⟨hcontent, .inr ⟨e, congrArg Except.error he.restateMissing, hsame, .inl he⟩⟩
    · cases heq
  · obtain ⟨rfl, heq | ⟨e, he, heq⟩⟩ := ends_rowOn_of_empty hstaged hrows hrow
    · cases heq
    · cases heq
      exact ⟨rfl, .inr ⟨e, rfl, rfl, .inl he⟩⟩

theorem tabled_register (hname : schema.name ≠ Catalog.catalogTable) :
    BackendComes .relational ((Catalog.tabled askedDatabase).register schema)
      (·.Listed schema.name (some (Catalog.catalogRow schema))) :=
  comes_transact hname (writes_upsert.edits Option.isSome (by simp))

theorem tabled_remove (hname : table ≠ Catalog.catalogTable) :
    BackendComes .relational ((Catalog.tabled askedDatabase).remove table) (·.Listed table none) :=
  comes_transact hname (writes_delete.edits Option.isNone (by simp))

end Tabular.Definition
