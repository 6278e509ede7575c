import Tabular.Proofs.Catalog.Listing
import Tabular.Proofs.Definition.Tabled
import Tabular.Proofs.Engine.Stock
import Tabular.Proofs.Schema.Documents

/-!
# Tabular.Proofs.Catalog.Registries — two families, one registry

A catalog `Stands` for a listing if it answers each request as the listing does.  The metadata of a versioned
store does, and so does a table of a relational database.  Main statement: `registries_agree`, requests one
after another are answered alike by both, and as by a plain map from names to schemas.
-/

namespace Tabular

namespace Database

variable {db : Database} {session : Nat}

/-- Whether a connection can be had, and no commit is bound to fail. -/
structure Ready (db : Database) : Prop where
  free : db.sessions.taken ≠ .nothing
  sound : db.failCommits = false

theorem Ready.connect (h : db.Ready) : ∃ session db', db.perform .connect = (.ok session, db') ∧
    db'.failCommits = false ∧ db'.tables = db.tables ∧ db'.staged? session = none := by
  have hconnect : ∃ session, db.connect.1 = .ok session := by
    unfold Database.connect
    cases htaken : db.sessions.taken with
    | item session => exact ⟨session, rfl⟩
    | slot => exact ⟨_, rfl⟩
    | nothing => exact absurd htaken h.free
  obtain ⟨session, hsession⟩ := hconnect
  refine ⟨session, db.connect.2, Prod.ext hsession rfl, ?_, tables_connect db, ?_⟩
  · rw [failCommits_connect, h.sound]
  · rw [staged?_connect_ok db session session hsession, if_pos rfl]

theorem ready_close (h : db.failCommits = false) : (db.close session).Ready :=
  ⟨by simp [close, Pool.put, Pool.taken], h⟩

end Database

namespace Catalog

open Bench

/-- Whether a catalog answers each request as the listing that a scene stands for, and leaves the memory of
lookups alone. -/
def Stands (catalog : Catalog SiteM) (Holds : Listing → Scene → Prop) : Prop :=
  ∀ (i : Option Nat) (listing : Listing) (c : Scene) (request : Request), Holds listing c →
    Yields i (catalog.answer request).run c fun r c' =>
      r = (listing.answer request).1 ∧ Holds (listing.answer request).2 c' ∧ c'.cache = c.cache

/-- What holds of each request holds of requests one after another. -/
theorem Stands.answers {catalog : Catalog SiteM} {Holds : Listing → Scene → Prop}
    (hstands : Stands catalog Holds) (requests : List Request) {listing : Listing} {c : Scene}
    (h : Holds listing c) :
    Yields none (catalog.answers requests) c fun r _ => r = listing.answers requests := by
  induction requests generalizing listing c with
  | nil => exact Yields.pure rfl
  | cons request rest ih =>
    refine Yields.bind ((hstands none listing c request h).mono ?_)
    rintro _ c' ⟨rfl, hholds, -⟩
    refine Yields.bind ((ih hholds).mono ?_)
    rintro _ _ rfl
    exact Yields.pure rfl

variable {listing : Listing} {c : Scene} {table : String}

/-! ### In the metadata of a versioned store -/

theorem lt_of_entryKey_lt {other : String} (h : entryKey table < entryKey other) : table < other := by
  rcases lt_trichotomy table other with hlt | rfl | hgt
  · exact hlt
  · exact absurd h (lt_irrefl _)
  · rw [String.lt_iff_toList_lt, entryKey, entryKey, String.toList_append, String.toList_append] at h
    exact absurd (List.append_left_lt (String.lt_iff_toList_lt.1 hgt)) (lt_asymm h)

theorem isPrefixOf_entryKey (table : String) : entryStart.isPrefixOf (entryKey table) = true := by
  rw [isPrefixOf_iff, entryKey, String.toList_append]
  exact List.prefix_append _ _

theorem tableOfKey?_eq_some_iff {key : String} : tableOfKey? key = some table ↔ key = entryKey table := by
  constructor
  · intro h
    rw [tableOfKey?] at h
    split at h
    · rename_i hstart
      obtain ⟨rest, hrest⟩ := isPrefixOf_iff.1 hstart
      rw [← hrest, ← String.length_toList, List.drop_left, Option.some.injEq] at h
      rw [entryKey, ← h, ← String.toList_inj, String.toList_append, String.toList_ofList, hrest]
    · cases h
  · rintro rfl
    rw [tableOfKey?, if_pos (isPrefixOf_entryKey table), entryKey, String.toList_append,
      ← String.length_toList, List.drop_left, String.ofList_toList]

/-- Whether the metadata of a store has the documents of a listing. -/
def InMetadata (listing : Listing) (c : Scene) : Prop :=
  ∀ table, c.store.metadata[entryKey table]? = (listing[table]?).map TableSchema.document

namespace InMetadata

theorem mem_metadata (h : InMetadata listing c) : entryKey table ∈ c.store.metadata ↔ table ∈ listing := by
  rw [Std.ExtTreeMap.mem_iff_isSome_getElem?, h table, Option.isSome_map,
    ← Std.ExtTreeMap.mem_iff_isSome_getElem?]

theorem insert (h : InMetadata listing c) (schema : TableSchema) :
    InMetadata (listing.insert schema.name schema) { c with store := { c.store with
      metadata := c.store.metadata.insert (entryKey schema.name) schema.document } } := by
  intro table
  simp only [Std.ExtTreeMap.getElem?_insert, Std.compare_eq_iff_eq, Stocked.entryKey_inj, h table]
  split <;> rfl

theorem erase (h : InMetadata listing c) (table : String) :
    InMetadata (listing.erase table) { c with store := { c.store with
      metadata := c.store.metadata.erase (entryKey table) } } := by
  intro other
  simp only [Std.ExtTreeMap.getElem?_erase, Std.compare_eq_iff_eq, Stocked.entryKey_inj, h other]
  split <;> rfl

theorem tableNames (h : InMetadata listing c) :
    (c.store.metadataKeys entryStart).filterMap tableOfKey? = listing.keys := by
  rw [VersionedStore.metadataKeys,
    dropWhile_takeWhile_eq_filter (c.store.metadata.ordered_keys.imp compare_lt_iff_lt.1)]
  refine Listing.eq_keys (List.pairwise_filterMap.2 ?_) fun name => ?_
  · refine List.Pairwise.filter _ (c.store.metadata.ordered_keys.imp ?_)
    intro key key' hlt name hname name' hname'
    rw [tableOfKey?_eq_some_iff.1 hname, tableOfKey?_eq_some_iff.1 hname', compare_lt_iff_lt] at hlt
    exact lt_of_entryKey_lt hlt
  · simp only [List.mem_filterMap, List.mem_filter, Std.ExtTreeMap.mem_keys, tableOfKey?_eq_some_iff]
    constructor
    · rintro ⟨_, ⟨hkey, -⟩, rfl⟩
      exact h.mem_metadata.1 hkey
    · intro hname
      exact ⟨_, ⟨h.mem_metadata.2 hname, isPrefixOf_entryKey name⟩, rfl⟩

end InMetadata

/-- The metadata of a versioned store is a registry. -/
theorem keyed_stands : Stands (keyed Site.store) InMetadata := by
  intro i listing c request h
  cases request with
  | register schema =>
    rw [Listing.answer]
    by_cases hmem : schema.name ∈ listing
    · have hadd : c.store.perform (.metadataAdd (entryKey schema.name) schema.document) =
          .ok (false, c.store) := by
        rw [VersionedStore.perform, if_pos (h.mem_metadata.2 hmem)]
      rw [if_pos hmem]
      exact Yields.mapped (Yields.andThen (Yields.store hadd (Yields.pure ⟨rfl, h, rfl⟩)))
    · have hadd : c.store.perform (.metadataAdd (entryKey schema.name) schema.document) =
          .ok (true, { c.store with
            metadata := c.store.metadata.insert (entryKey schema.name) schema.document }) := by
        rw [VersionedStore.perform, if_neg (mt h.mem_metadata.1 hmem)]
      rw [if_neg hmem]
      exact Yields.mapped (Yields.andThen (Yields.store hadd (Yields.pure ⟨rfl, h.insert schema, rfl⟩)))
  | find table =>
    have hget : c.store.perform (.metadataGet (entryKey table)) =
        .ok ((listing[table]?).map TableSchema.document, c.store) := by
      rw [VersionedStore.perform, h table]
    refine Yields.mapped (Yields.andThen (Yields.store hget ?_))
    rw [Listing.answer, Listing.find]
    cases listing[table]? with
    | none => exact Yields.pure ⟨rfl, h, rfl⟩
    | some schema =>
      exact Yields.of ⟨congrArg (Response.schema <$> ·) schema.ofDocumentChecked_document, h, rfl⟩
  | remove table =>
    have hdelete : c.store.perform (.metadataDelete (entryKey table)) = .ok (decide (table ∈ listing),
        { c.store with metadata := c.store.metadata.erase (entryKey table) }) := by
      rw [VersionedStore.perform, decide_eq_decide.2 h.mem_metadata]
    have herase := h.erase table
    refine Yields.mapped (Yields.andThen (Yields.store hdelete ?_))
    rw [Listing.answer]
    by_cases hmem : table ∈ listing
    · rw [if_pos hmem, decide_eq_true hmem]
      exact Yields.pure ⟨rfl, herase, rfl⟩
    · rw [if_neg hmem, decide_eq_false hmem]
      rw [Listing.erase_of_not_mem hmem] at herase
      exact Yields.pure ⟨rfl, herase, rfl⟩
  | tableNames =>
    refine Yields.mapped (Yields.andThen (Yields.store (t := c.store) rfl (Yields.pure ⟨?_, h, rfl⟩)))
    exact congrArg (fun names => Except.ok (Response.names names)) h.tableNames

/-! ### In a table of a relational database -/

variable {i : Option Nat} {rows : Rows}

/-- Whether the rows of a table are those of a listing. -/
structure Rowed (listing : Listing) (rows : Rows) : Prop where
  named : listing.Named
  entries : ∀ table, rows[rowKey table]? = (listing[table]?).map catalogRow
  keys : ∀ key ∈ rows, ∃ table, key = rowKey table

theorem compare_rowKey (table other : String) : compare (rowKey table) (rowKey other) = compare table other := by
  have hpart : compare (KeyPart.string table) (KeyPart.string other) = compare table other := rfl
  show compare [KeyPart.string table] [KeyPart.string other] = _
  rw [List.compare_eq_compareLex, List.compareLex_cons_cons, hpart, List.compareLex_nil_nil, Ordering.then_eq]

theorem nameColumn_catalogRow (schema : TableSchema) :
    (catalogRow schema)[nameColumn]?.bind Value.toString? = some schema.name := by
  have hcell : (catalogRow schema)[nameColumn]? = some (.string schema.name) := by
    rw [catalogRow, Row.ofCells, List.foldl_cons, List.foldl_cons, List.foldl_nil,
      Std.ExtTreeMap.getElem?_insert, if_neg (by simp [nameColumn, documentColumn]),
      Std.ExtTreeMap.getElem?_insert_self]
  rw [hcell]
  rfl

theorem schemaOfRow_catalogRow (table : String) (schema : TableSchema) :
    schemaOfRow table (catalogRow schema) = (fun _ => schema) <$> schema.validate := by
  have hcell : (catalogRow schema)[documentColumn]? = some (.string schema.document) := by
    rw [catalogRow, Row.ofCells, List.foldl_cons, List.foldl_cons, List.foldl_nil,
      Std.ExtTreeMap.getElem?_insert_self]
  rw [schemaOfRow, hcell]
  exact TableSchema.ofDocumentChecked_document schema

namespace Rowed

theorem keys_change (h : Rowed listing rows) (table : String) (cell : Option Row) :
    ∀ key ∈ rows.change (rowKey table) cell, ∃ table, key = rowKey table := by
  intro key hkey
  by_cases heq : rowKey table = key
  · exact ⟨table, heq.symm⟩
  · rw [Std.ExtTreeMap.mem_iff_isSome_getElem?, Rows.getElem?_change, if_neg heq,
      ← Std.ExtTreeMap.mem_iff_isSome_getElem?] at hkey
    exact h.keys key hkey

theorem insert (h : Rowed listing rows) (schema : TableSchema) :
    Rowed (listing.insert schema.name schema) (rows.change (rowKey schema.name) (some (catalogRow schema))) where
  named := h.named.insert schema
  entries table := by
    simp only [Rows.getElem?_change, Std.ExtTreeMap.getElem?_insert, Std.compare_eq_iff_eq,
      Definition.rowKey_inj, h.entries]
    split <;> rfl
  keys := h.keys_change _ _

theorem erase (h : Rowed listing rows) (table : String) :
    Rowed (listing.erase table) (rows.change (rowKey table) none) where
  named := h.named.erase table
  entries other := by
    simp only [Rows.getElem?_change, Std.ExtTreeMap.getElem?_erase, Std.compare_eq_iff_eq,
      Definition.rowKey_inj, h.entries]
    split <;> rfl
  keys := h.keys_change _ _

/-- What an entry of the table says. -/
theorem of_mem_toList (h : Rowed listing rows) {key : RowKey} {row : Row} (hmem : (key, row) ∈ rows.toList) :
    ∃ schema, listing[schema.name]? = some schema ∧ key = rowKey schema.name ∧ row = catalogRow schema := by
  rw [Std.ExtTreeMap.mem_toList_iff_getElem?_eq_some] at hmem
  obtain ⟨table, rfl⟩ := h.keys key (Std.ExtTreeMap.mem_iff_isSome_getElem?.2 (by rw [hmem]; rfl))
  rw [h.entries, Option.map_eq_some_iff] at hmem
  obtain ⟨schema, hschema, rfl⟩ := hmem
  obtain rfl := h.named table schema hschema
  exact ⟨schema, hschema, rfl, rfl⟩

theorem tableNames (h : Rowed listing rows) :
    (rows.values.filterMap fun row => row[nameColumn]?.bind Value.toString?) = listing.keys := by
  rw [values_eq_map_toList, List.filterMap_map]
  refine Listing.eq_keys (List.pairwise_filterMap.2 ?_) fun name => ?_
  · refine rows.ordered_keys_toList.imp_of_mem ?_
    rintro ⟨key, row⟩ ⟨key', row'⟩ hmem hmem' hlt name hname name' hname'
    obtain ⟨schema, -, rfl, rfl⟩ := h.of_mem_toList hmem
    obtain ⟨schema', -, rfl, rfl⟩ := h.of_mem_toList hmem'
    rw [compare_rowKey, compare_lt_iff_lt] at hlt
    rw [Function.comp_apply, nameColumn_catalogRow, Option.some.injEq] at hname hname'
    rwa [← hname, ← hname']
  · rw [List.mem_filterMap]
    constructor
    · rintro ⟨⟨key, row⟩, hmem, hname⟩
      obtain ⟨schema, hschema, rfl, rfl⟩ := h.of_mem_toList hmem
      rw [Function.comp_apply, nameColumn_catalogRow, Option.some.injEq] at hname
      rw [← hname, Std.ExtTreeMap.mem_iff_isSome_getElem?, hschema]
      rfl
    · intro hname
      obtain ⟨schema, hschema⟩ := Option.isSome_iff_exists.1 (Std.ExtTreeMap.mem_iff_isSome_getElem?.1 hname)
      refine ⟨(rowKey name, catalogRow schema), ?_, ?_⟩
      · rw [Std.ExtTreeMap.mem_toList_iff_getElem?_eq_some, h.entries, hschema]
        rfl
      · rw [Function.comp_apply, nameColumn_catalogRow, h.named name schema hschema]

end Rowed

/-- Whether the table of a registry has the rows of a listing, and can be used. -/
def InTable (listing : Listing) (c : Scene) : Prop :=
  c.database.Ready ∧ ∃ rows, c.database.tables[catalogTable]? = some rows ∧ Rowed listing rows

/-- Work on a connection of its own, where one can be had. -/
theorem yields_onConnection {β : Type} {use : Nat → Attempt SiteM β}
    {post : Except StoreError β → Scene → Prop} (h : c.database.Ready)
    (huse : ∀ session db, db.failCommits = false → db.tables = c.database.tables → db.staged? session = none →
      Yields i (use session).run { c with database := db } fun r c' =>
        post r { c' with database := c'.database.close session }) :
    Yields i (Site.database.withConnection use).run c post := by
  obtain ⟨session, db, hconnect, hsound, htables, hstaged⟩ := h.connect
  refine Yields.andThen (Yields.database hconnect ?_)
  refine Yields.outcome ((huse session db hsound htables hstaged).mono fun r c' hpost => ?_)
  exact Yields.action (Yields.close (Yields.of hpost))

/-- A look at the table of a registry on a connection of its own. -/
theorem InTable.look {β : Type} {use : Nat → Attempt SiteM β} {r : Except StoreError β} (h : InTable listing c)
    (huse : ∀ session db rows, db.seen session catalogTable = .ok rows → Rowed listing rows →
      Yields i (use session).run { c with database := db } fun r' c' => r' = r ∧ c' = { c with database := db }) :
    Yields i (Site.database.withConnection use).run c fun r' c' =>
      r' = r ∧ InTable listing c' ∧ c'.cache = c.cache := by
  obtain ⟨hready, rows, hrows, hrowed⟩ := h
  refine yields_onConnection hready fun session db hsound htables hstaged => ?_
  have hseen : db.seen session catalogTable = .ok rows :=
    Database.seen_of_none hstaged (by rw [htables, hrows])
  refine (huse session db rows hseen hrowed).mono ?_
  rintro _ _ ⟨rfl, rfl⟩
  refine ⟨rfl, ⟨Database.ready_close hsound, rows, ?_, hrowed⟩, rfl⟩
  rw [Database.tables_close, htables, hrows]

theorem seen_of_begun {db : Database} {session : Nat} (hstaged : db.staged? session = some ∅)
    (hrows : db.tables[catalogTable]? = some rows) : db.seen session catalogTable = .ok rows := by
  rw [Database.seen_of_some hstaged hrows, Std.ExtTreeMap.getD_empty, Changes.applyTo_empty]

/-- A change of the table of a registry that is refused leaves it alone. -/
theorem InTable.refuse {change : Nat → Attempt SiteM Unit} {e : StoreError} (h : InTable listing c)
    (hchange : ∀ session db rows, db.seen session catalogTable = .ok rows → Rowed listing rows →
      Yields i (change session).run { c with database := db } fun r c' =>
        r = .error e ∧ c' = { c with database := db }) :
    Yields i (transact Site.database change).run c fun r c' =>
      r = .error e ∧ InTable listing c' ∧ c'.cache = c.cache := by
  obtain ⟨hready, rows, hrows, hrowed⟩ := h
  refine yields_onConnection hready fun session db hsound htables hstaged => ?_
  rw [← htables] at hrows
  refine Yields.andThen (Yields.database (Database.perform_begin hstaged) ?_)
  have hseen := seen_of_begun (Database.staged?_setStaged_self db session (some ∅)) hrows
  refine Yields.outcome ((hchange session _ rows hseen hrowed).mono ?_)
  rintro _ _ ⟨rfl, rfl⟩
  exact Yields.outcome (Yields.database rfl
    (Yields.pure ⟨rfl, ⟨Database.ready_close hsound, rows, hrows, hrowed⟩, rfl⟩))

theorem getElem?_applied_relisted {db : Database} (key : RowKey) (cell : Option Row)
    (hrows : db.tables[catalogTable]? = some rows) :
    (db.applied (relisted key cell))[catalogTable]? = some (rows.change key cell) := by
  rw [Database.getElem?_applied, hrows]
  simp [relisted, Changes.applyTo_insert]

/-- A change of one row of the table of a registry is committed. -/
theorem InTable.relist {change : Nat → Attempt SiteM Unit} {table : String} {cell : Option Row}
    {listing' : Listing} (h : InTable listing c)
    (hlisting : ∀ rows, Rowed listing rows → Rowed listing' (rows.change (rowKey table) cell))
    (hchange : ∀ session db rows, db.staged? session = some ∅ → db.seen session catalogTable = .ok rows →
      Rowed listing rows → Yields i (change session).run { c with database := db } fun r c' => r = .ok () ∧
        c' = { c with database := db.setStaged session (some (relisted (rowKey table) cell)) }) :
    Yields i (transact Site.database change).run c fun r c' =>
      r = .ok () ∧ InTable listing' c' ∧ c'.cache = c.cache := by
  obtain ⟨hready, rows, hrows, hrowed⟩ := h
  refine yields_onConnection hready fun session db hsound htables hstaged => ?_
  rw [← htables] at hrows
  refine Yields.andThen (Yields.database (Database.perform_begin hstaged) ?_)
  have hbegun := Database.staged?_setStaged_self db session (some ∅)
  refine Yields.outcome ((hchange session _ rows hbegun (seen_of_begun hbegun hrows) hrowed).mono ?_)
  rintro _ _ ⟨rfl, rfl⟩
  have hthere : ∀ table' ∈ relisted (rowKey table) cell, table' ∈ db.tables := by
    intro table' hmem
    have heq : catalogTable = table' := by simpa [relisted] using hmem
    rw [← heq, Std.ExtTreeMap.mem_iff_isSome_getElem?, hrows]
    rfl
  refine Yields.database (Database.commit_of_some (Database.staged?_setStaged_self _ _ _) hsound hthere) ?_
  exact ⟨rfl, ⟨Database.ready_close hsound, _, getElem?_applied_relisted _ _ hrows, hlisting rows hrowed⟩, rfl⟩

/-- The row of a table, on a connection. -/
theorem Rowed.rowOn {db : Database} {session : Nat} (h : Rowed listing rows)
    (hseen : db.seen session catalogTable = .ok rows) (table : String) :
    Yields i (rowOn Site.database session table).run { c with database := db } fun r c' =>
      r = .ok ((listing[table]?).map catalogRow) ∧ c' = { c with database := db } := by
  rw [← h.entries]
  exact Yields.rowOn (c := { c with database := db }) hseen

/-- A table of a relational database is a registry. -/
theorem tabled_stands : Stands (tabled Site.database) InTable := by
  intro i listing c request h
  cases request with
  | register schema =>
    rw [Listing.answer]
    by_cases hmem : schema.name ∈ listing
    · rw [if_pos hmem]
      refine Yields.mapped ((h.refuse (e := .tableAlreadyExists schema.name) ?_).mono ?_)
      · intro session db rows hseen hrowed
        refine Yields.andThen ((hrowed.rowOn hseen schema.name).mono ?_)
        rintro _ _ ⟨rfl, rfl⟩
        rw [Std.ExtTreeMap.getElem?_eq_some_getElem hmem]
        exact Yields.pure ⟨rfl, rfl⟩
      · rintro _ c' ⟨rfl, hc'⟩
        exact ⟨rfl, hc'⟩
    · rw [if_neg hmem]
      refine Yields.mapped ((h.relist (fun rows hrowed => hrowed.insert schema) ?_).mono ?_)
      · intro session db rows hstaged hseen hrowed
        refine Yields.andThen ((hrowed.rowOn hseen schema.name).mono ?_)
        rintro _ _ ⟨rfl, rfl⟩
        rw [Std.ExtTreeMap.getElem?_eq_none hmem]
        refine Yields.restated (Yields.database (r := .ok ()) ?_ ⟨rfl, rfl⟩)
        rw [Database.perform_upsert (keyOf_catalogRow schema)]
        exact congrArg (fun x => db.answered (((), ·) <$> x)) (change_registry _ _ hstaged hseen)
      · rintro _ c' ⟨rfl, hc'⟩
        exact ⟨rfl, hc'⟩
  | find table =>
    have hlook : Yields i ((tabled Site.database).find table).run c fun r c' =>
        r = listing.find table ∧ InTable listing c' ∧ c'.cache = c.cache := by
      refine h.look fun session db rows hseen hrowed => ?_
      refine Yields.andThen ((hrowed.rowOn hseen table).mono ?_)
      rintro _ _ ⟨rfl, rfl⟩
      rw [Listing.find]
      cases listing[table]? with
      | none => exact Yields.pure ⟨rfl, rfl⟩
      | some schema => exact Yields.of ⟨schemaOfRow_catalogRow table schema, rfl⟩
    refine Yields.mapped (hlook.mono ?_)
    rintro _ c' ⟨rfl, hc'⟩
    exact ⟨rfl, hc'⟩
  | remove table =>
    rw [Listing.answer]
    by_cases hmem : table ∈ listing
    · rw [if_pos hmem]
      refine Yields.mapped ((h.relist (fun rows hrowed => hrowed.erase table) ?_).mono ?_)
      · intro session db rows hstaged hseen hrowed
        refine Yields.andThen ((hrowed.rowOn hseen table).mono ?_)
        rintro _ _ ⟨rfl, rfl⟩
        rw [Std.ExtTreeMap.getElem?_eq_some_getElem hmem]
        refine Yields.restated (Yields.database (r := .ok ()) ?_ ⟨rfl, rfl⟩)
        exact congrArg (fun x => db.answered (((), ·) <$> x)) (change_registry _ _ hstaged hseen)
      · rintro _ c' ⟨rfl, hc'⟩
        exact ⟨rfl, hc'⟩
    · rw [if_neg hmem]
      refine Yields.mapped ((h.refuse (e := .tableNotFound table) ?_).mono ?_)
      · intro session db rows hseen hrowed
        refine Yields.andThen ((hrowed.rowOn hseen table).mono ?_)
        rintro _ _ ⟨rfl, rfl⟩
        rw [Std.ExtTreeMap.getElem?_eq_none hmem]
        exact Yields.pure ⟨rfl, rfl⟩
      · rintro _ c' ⟨rfl, hc'⟩
        exact ⟨rfl, hc'⟩
  | tableNames =>
    have hlook : Yields i (tabled Site.database).tableNames.run c fun r c' =>
        r = .ok listing.keys ∧ InTable listing c' ∧ c'.cache = c.cache := by
      refine h.look fun session db rows hseen hrowed => ?_
      have hscan : db.perform (.scan session catalogSchema) = (.ok rows.values, db) := by
        rw [Database.perform]
        exact congrArg (fun x => (Std.ExtTreeMap.values <$> x, db)) hseen
      refine Yields.andThen (Yields.restated (Yields.database (c := { c with database := db }) hscan ?_))
      exact Yields.pure ⟨congrArg Except.ok hrowed.tableNames, rfl⟩
    refine Yields.mapped (hlook.mono ?_)
    rintro _ c' ⟨rfl, hc'⟩
    exact ⟨rfl, hc'⟩

/-! ### The agreement -/

theorem inMetadata_empty (h : ∀ key ∈ c.store.metadata, entryStart.isPrefixOf key = false) :
    InMetadata ∅ c := by
  intro table
  have hnot : entryKey table ∉ c.store.metadata := by
    intro hmem
    have hstart := h _ hmem
    rw [isPrefixOf_entryKey] at hstart
    cases hstart
  rw [Std.ExtTreeMap.getElem?_eq_none hnot]
  simp

/-- Where there is no table of that name a registry without tables can be prepared. -/
theorem yields_prepare_of_not_mem (hready : c.database.Ready) (hnot : catalogTable ∉ c.database.tables) :
    Yields i (prepare Site.database).run c fun r c' => r = .ok () ∧ InTable ∅ c' ∧ c'.cache = c.cache := by
  refine yields_onConnection hready fun session db hsound htables _ => ?_
  have hmem : catalogTable ∉ db.tables := by rwa [htables]
  have hexists : db.perform (.tableExists session catalogTable) = (.ok false, db) := by
    rw [Database.perform, decide_eq_false hmem]
  have hcreate : db.perform (.createTable session catalogSchema) =
      (.ok (), { db with tables := db.tables.insert catalogTable ∅ }) := by
    rw [Database.perform, Database.createTable, if_neg (show catalogSchema.name ∉ db.tables from hmem)]
    rfl
  refine Yields.andThen (Yields.database hexists (Yields.outcome (Yields.database hcreate (Yields.reported ?_))))
  refine ⟨rfl, ⟨Database.ready_close hsound, ∅, Std.ExtTreeMap.getElem?_insert_self, ?_⟩, rfl⟩
  exact ⟨Listing.named_empty, fun table => by simp, fun key hkey => by simp at hkey⟩

theorem yields_prepare (hready : c.database.Ready) (htables : c.database.tables = ∅) :
    Yields none (prepare Site.database).run c fun r c' => r = .ok () ∧ InTable ∅ c' :=
  (yields_prepare_of_not_mem hready (by simp [htables])).mono fun _ _ h => ⟨h.1, h.2.1⟩

/-- The answers of a registry kept in a table that is prepared first. -/
def answersPrepared (db : RelationalAccess SiteM) (requests : List Request) :
    SiteM (Except StoreError Unit × List (Except StoreError Response)) := do
  let ready ← (prepare db).run
  return (ready, ← (tabled db).answers requests)

/-- **The two registries are the same registry.**  Whatever is asked of them one after another, the one in the
metadata of a store, which may have keys of its own, and the one in a table of a database without others answer
alike, and as a plain map from names to schemas, whose names are listed in the order of their bytes. -/
theorem registries_agree (site : Site) (requests : List Request)
    (hmetadata : ∀ key ∈ site.embedded.store.metadata, entryStart.isPrefixOf key = false)
    (htables : site.embedded.database.tables = ∅) (hfree : site.embedded.database.sessions.taken ≠ .nothing)
    (hcommits : site.embedded.database.failCommits = false) :
    ((keyed Site.store).answers requests site).1 = Listing.answers ∅ requests ∧
      (answersPrepared Site.database requests site).1 = (.ok (), Listing.answers ∅ requests) ∧
      ∀ listing : Listing, (∀ name, name ∈ listing.keys ↔ name ∈ listing) ∧
        listing.keys.Pairwise fun a b => utf8 a < utf8 b := by
  have hready : site.embedded.database.Ready := ⟨hfree, hcommits⟩
  obtain ⟨c, hsite, hstore, hdatabase⟩ : ∃ c : Scene, site.Shows none c ∧
      c.store = site.embedded.store ∧ c.database = site.embedded.database :=
    ⟨⟨site.embedded.coordinator, site.embedded.store, site.embedded.database, ∅, [], { maxSize := 0 }, { },
      site.thread⟩, ⟨rfl, nofun, rfl⟩, rfl, rfl⟩
  rw [← hstore] at hmetadata
  rw [← hdatabase] at hready htables
  have hprepared : Yields none (answersPrepared Site.database requests) c fun r _ =>
      r = (.ok (), Listing.answers ∅ requests) := by
    refine Yields.bind ((yields_prepare hready htables).mono ?_)
    rintro _ c' ⟨rfl, hempty⟩
    refine Yields.bind ((tabled_stands.answers requests hempty).mono ?_)
    rintro _ _ rfl
    exact Yields.pure rfl
  obtain ⟨-, -, hkeyed⟩ := keyed_stands.answers requests (inMetadata_empty hmetadata) site hsite
  obtain ⟨-, -, htabled⟩ := hprepared site hsite
  exact ⟨hkeyed, htabled, fun listing => ⟨fun name => Std.ExtTreeMap.mem_keys, listing.pairwise_utf8_keys⟩⟩

/-- A table that cannot be used, as nothing is declared. -/
def nameless : TableSchema := ⟨"", [], [], []⟩

/-- Such a table is registered all the same, and told to be invalid whenever it is found. -/
def registeringNameless : List Request :=
  [.register nameless, .find "", .register nameless, .tableNames, .remove "", .find "", .remove ""]

/-- What is answered meanwhile. -/
def namelessRegistered : List (Except StoreError Response) :=
  [.ok .done, .error (.invalidSchema "" "table name is empty"), .error (.tableAlreadyExists ""), .ok (.names [""]),
    .ok .done, .error (.tableNotFound ""), .error (.tableNotFound "")]

/-- A process whose store keeps something else in its metadata. -/
def annotatedSite : Site where
  embedded := ⟨.permissive { }, { metadata := Std.ExtTreeMap.insert ∅ "unrelated" "x" }, .empty "memory" 1 100⟩

theorem answers_registeringNameless : Listing.answers ∅ registeringNameless = namelessRegistered := by rfl

/-- Both registries tell that the table is invalid, and forget it. -/
theorem registries_agree_nameless :
    ((keyed Site.store).answers registeringNameless annotatedSite).1 = namelessRegistered ∧
      (answersPrepared Site.database registeringNameless annotatedSite).1 = (.ok (), namelessRegistered) := by
  have hmetadata : ∀ key ∈ annotatedSite.embedded.store.metadata, entryStart.isPrefixOf key = false := by
    intro key hkey
    obtain rfl : "unrelated" = key := by simpa [annotatedSite] using hkey
    rw [String.isPrefixOf, String.startsWith_string_eq_false_iff]
    decide
  rw [← answers_registeringNameless]
  obtain ⟨hkeyed, htabled, -⟩ :=
    registries_agree annotatedSite registeringNameless hmetadata rfl (by decide) rfl
  exact ⟨hkeyed, htabled⟩

end Catalog

end Tabular
