import Tabular.Proofs.Engine.Connections
import Tabular.Proofs.Engine.Execution
import Tabular.Proofs.Schema.Merge

/-!
# Tabular.Proofs.Engine.Staged — a unit of work on a connection

While a unit of work runs on a connection nothing changes but what the connection keeps aside and what is
remembered of the registry.  `Staging` says so, and that the shelf next to it is the committed tables with
the changes laid over them.  Main statement: `mimics_staged`, the tables on a connection mimic plain ones.
-/

namespace Tabular.Bench

/-- The runner of the engine of index `k` over the relational database of its process. -/
def nativeOf (k : Nat) : Native SiteM where
  db := Site.database
  catalog := (Catalog.tabled Site.database).cached (EngineCells.ofCell (Site.engineCell k)).cache

/-- How the opened schemas, a shelf and a scene are related while a unit of work runs on a connection, which
keeps `staged` aside. -/
structure Staging (s : Reference) (start : Scene) (session : Nat) (staged : Staged) (opened : OpenedSchemas)
    (shelf : Shelf) (c : Scene) : Prop where
  scene : ∃ cache, c = { start with cache, database := start.database.setStaged session (some staged) }
  agrees : c.cache.Agrees s.schemas
  opened : ∀ (table : String) (schema : TableSchema), opened[table]? = some schema →
    ∃ h : schema.name = table, s.schemas table = some ⟨schema, h⟩
  there : ∀ table ∈ staged, (s.schemas table).isSome
  rows : ∀ table, (s.schemas table).isSome → shelf table = (staged.getD table ∅).applyTo (s.shelf table)

variable {i : Option Nat} {k session : Nat} {s : Reference} {start c : Scene} {staged : Staged}
  {opened : OpenedSchemas} {shelf : Shelf} {table : String} {schema : TableSchema}

/-! ### Reading -/

/-- The row of the registry for a table, on a connection. -/
theorem Yields.rowOn {rows : Rows} (hseen : c.database.seen session Catalog.catalogTable = .ok rows) :
    Yields i (Catalog.rowOn Site.database session table).run c fun r c' =>
      r = .ok rows[Catalog.rowKey table]? ∧ c' = c :=
  restated (database (Database.perform_read Catalog.catalogSchema _ hseen) ⟨rfl, rfl⟩)

/-- A table that is not registered is not found on a connection. -/
theorem Yields.findOn {rows : Rows} (hseen : c.database.seen session Catalog.catalogTable = .ok rows)
    (hnone : rows[Catalog.rowKey table]? = none) :
    Yields i (Catalog.findOn Site.database session table).run c fun r c' =>
      r = .error (.tableNotFound table) ∧ c' = c := by
  refine andThen ((rowOn hseen).mono ?_)
  rintro _ _ ⟨rfl, rfl⟩
  rw [hnone]
  exact pure ⟨rfl, rfl⟩

section Tables

variable (hkeeps : Keeps s.schemas (stored s) start.database.tables)

include hkeeps

theorem Staging.seen (h : Staging s start session staged opened shelf c) (hsome : (s.schemas table).isSome) :
    c.database.seen session table = .ok (shelf table) := by
  obtain ⟨schema, hschema⟩ := Option.isSome_iff_exists.1 hsome
  have hstored := stored_of_schema hschema
  have hrows := hkeeps.rows table (hkeeps.ne_of_isSome (by rw [hstored]; rfl))
  obtain ⟨cache, rfl⟩ := h.scene
  rw [h.rows table hsome]
  exact Database.seen_of_some (Database.staged?_setStaged_self _ _ _) (hrows.trans hstored)

/-- The registry is not a table of the reference store. -/
theorem schemas_catalogTable : s.schemas Catalog.catalogTable = none :=
  eq_none_of_isSome_eq (isSome_stored s _).symm hkeeps.unreserved

/-- A unit of work keeps no change of the registry aside. -/
theorem staged_catalogTable (hthere : ∀ table ∈ staged, (s.schemas table).isSome) :
    staged.getD Catalog.catalogTable ∅ = ∅ := by
  refine Std.ExtTreeMap.getD_eq_fallback fun hmem => ?_
  have hsome := hthere _ hmem
  rw [schemas_catalogTable hkeeps] at hsome
  cases hsome

/-- The registry on the connection of a unit of work. -/
theorem seen_registry (hthere : ∀ table ∈ staged, (s.schemas table).isSome) :
    ∃ rows, (start.database.setStaged session (some staged)).seen session Catalog.catalogTable = .ok rows ∧
      ∀ table, (rows[Catalog.rowKey table]?).isSome = (s.schemas table).isSome := by
  obtain ⟨rows, hrows, hregistry⟩ := hkeeps.registry
  refine ⟨rows, ?_, hregistry⟩
  refine (Database.seen_of_some (Database.staged?_setStaged_self _ _ _) hrows).trans ?_
  rw [staged_catalogTable hkeeps hthere, Changes.applyTo_empty]

/-- Opening a table answers its schema. -/
theorem matches_schemaOf (table : String) (h : Staging s start session staged opened shelf c) :
    Matches (fun opened shelf c => ∃ staged, Staging s start session staged opened shelf c) (some k)
      ((nativeOf k).schemaOf session table) opened c (Attempt.of (Shelf.schema s.schemas table)) shelf
      fun schema schema' opened' shelf' c' => schema = schema' ∧ schema.name = table ∧
        (s.schemas table).isSome ∧ Staging s start session staged opened' shelf' c' := by
  refine Matches.get ?_
  cases hopened : opened[table]? with
  | some schema =>
    obtain ⟨hname, hschema⟩ := h.opened table schema hopened
    rw [Shelf.schema_eq hschema]
    exact Matches.pure ⟨rfl, hname, by rw [hschema]; rfl, h⟩
  | none =>
    have hload : s.schemas table = none → ∀ c,
        (∃ cache, c = { start with cache, database := start.database.setStaged session (some staged) }) →
        Yields (some k) (Catalog.findOn Site.database session table).run c fun r c' =>
          r = .error (.tableNotFound table) ∧
            (∃ cache, c' = { start with cache, database := start.database.setStaged session (some staged) }) ∧
            c'.cache = c.cache := by
      rintro hnone _ ⟨cache, rfl⟩
      obtain ⟨rows, hseen, hregistry⟩ := seen_registry hkeeps h.there
      refine (Yields.findOn hseen (eq_none_of_isSome_eq (hregistry table) hnone)).mono ?_
      rintro r _ ⟨hr, rfl⟩
      exact ⟨hr, ⟨cache, rfl⟩, rfl⟩
    refine Matches.lifted ((Yields.lookup (fun _ cache => ?_) hload h.scene h.agrees).mono ?_)
    · rintro ⟨_, rfl⟩
      exact ⟨cache, rfl⟩
    rintro _ c' ⟨rfl, hscene, hagrees⟩
    have h' : Staging s start session staged opened shelf c' :=
      ⟨hscene, hagrees, h.opened, h.there, h.rows⟩
    cases hschema : s.schemas table with
    | none =>
      rw [Shelf.schema_of_none hschema]
      exact Yields.pure ⟨rfl, staged, h'⟩
    | some schema =>
      rw [Shelf.schema_eq hschema]
      refine Matches.ok (Yields.pure ⟨rfl, schema.2, rfl, hscene, hagrees, fun other schema' hother => ?_,
        h.there, h.rows⟩)
      rw [Std.ExtTreeMap.getElem?_insert] at hother
      split at hother
      · rename_i heq
        cases Std.compare_eq_iff_eq.1 heq
        cases hother
        exact ⟨schema.2, hschema⟩
      · exact h.opened other schema' hother

/-- What a connection reads of an opened table. -/
theorem Staging.yields_read (h : Staging s start session staged opened shelf c) (hname : schema.name = table)
    (hsome : (s.schemas table).isSome) (key : RowKey) :
    Yields i (Site.database.perform (.read session schema key)).run c fun r c' =>
      r = .ok (shelf.row? ⟨table, key⟩) ∧ c' = c :=
  Yields.database (Database.perform_read schema key (by rw [hname]; exact h.seen hkeeps hsome)) ⟨rfl, rfl⟩

/-- A change that is kept aside. -/
theorem Staging.change (h : Staging s start session staged opened shelf c) (hsome : (s.schemas table).isSome)
    (key : RowKey) (cell : Option Row) :
    ∃ db staged', c.database.change session table key cell = .ok db ∧
      Staging s start session staged' opened (shelf.change ⟨table, key⟩ cell) { c with database := db } := by
  obtain ⟨cache, rfl⟩ := h.scene
  have hmem : table ∈ start.database.tables := hkeeps.mem_tables ((isSome_stored s table).trans hsome)
  refine ⟨_, staged.insert table ((staged.getD table ∅).insert key cell),
    Database.change_of_some (Database.staged?_setStaged_self _ _ _) hmem, ⟨cache, ?_⟩, h.agrees, h.opened,
    fun other hother => ?_, fun other hother => ?_⟩
  · rw [Database.setStaged_setStaged]
  · rcases Std.ExtTreeMap.mem_insert.1 hother with heq | hother
    · rwa [← Std.compare_eq_iff_eq.1 heq]
    · exact h.there other hother
  · by_cases heq : other = table
    · subst heq
      rw [Shelf.change, if_pos rfl, Std.ExtTreeMap.getD_insert_self, Changes.applyTo_insert, ← h.rows other hother]
    · rw [Shelf.change, if_neg heq, Std.ExtTreeMap.getD_insert, if_neg (by simpa using Ne.symm heq),
        h.rows other hother]

/-- The tables on a connection mimic plain ones. -/
theorem mimics_staged :
    Mimics (fun opened shelf c => ∃ staged, Staging s start session staged opened shelf c) (some k) s.schemas
      ((nativeOf k).attempt session) := by
  rintro call opened shelf c ⟨staged, h⟩
  have hopen := fun table => matches_schemaOf (k := k) hkeeps table h
  cases call with
  | visit table =>
    refine Matches.bind ((hopen table).mono ?_)
    rintro schema _ opened' shelf' c' ⟨-, -, -, h'⟩
    exact Matches.pure ⟨rfl, staged, h'⟩
  | schema table =>
    refine (hopen table).mono ?_
    rintro schema _ opened' shelf' c' ⟨rfl, -, -, h'⟩
    exact ⟨rfl, staged, h'⟩
  | upsert table row =>
    refine Matches.bind ((hopen table).mono ?_)
    rintro schema _ opened' shelf' c' ⟨rfl, hname, hsome, h'⟩
    refine Matches.bind (Matches.of (fun key hkey => ?_) ⟨staged, h'⟩)
    refine Matches.shelved (Matches.lifted ((h'.yields_read hkeeps hname hsome key).mono ?_))
    rintro _ _ ⟨rfl, rfl⟩
    refine Matches.ok (Matches.bind (Matches.of (fun merged hmerged => ?_) ⟨staged, h'⟩))
    obtain ⟨db, staged', hchange, hafter⟩ := h'.change hkeeps hsome key (some merged)
    refine Matches.ending (Yields.database (r := .ok ()) (d := db) ?_ (Yields.pure ⟨rfl, staged', hafter⟩))
    rw [Database.perform_upsert (TableSchema.keyOf_mergeRow hmerged hkey), hname, hchange]
    rfl
  | read table values =>
    refine Matches.bind ((hopen table).mono ?_)
    rintro schema _ opened' shelf' c' ⟨rfl, hname, hsome, h'⟩
    refine Matches.bind (Matches.of (fun key _ => ?_) ⟨staged, h'⟩)
    refine Matches.shelved (Matches.ending ((h'.yields_read hkeeps hname hsome key).mono ?_))
    rintro _ _ ⟨rfl, rfl⟩
    exact Matches.pure ⟨rfl, staged, h'⟩
  | delete table values =>
    refine Matches.bind ((hopen table).mono ?_)
    rintro schema _ opened' shelf' c' ⟨rfl, hname, hsome, h'⟩
    refine Matches.bind (Matches.of (fun key _ => ?_) ⟨staged, h'⟩)
    obtain ⟨db, staged', hchange, hafter⟩ := h'.change hkeeps hsome key none
    refine Matches.ending (Yields.database (r := .ok ()) (d := db) ?_ (Yields.pure ⟨rfl, staged', hafter⟩))
    rw [Database.perform, hname, hchange]
    rfl
  | scan table =>
    refine Matches.bind ((hopen table).mono ?_)
    rintro schema _ opened' shelf' c' ⟨rfl, hname, hsome, h'⟩
    refine Matches.shelved (Matches.ending (Yields.database (r := .ok (shelf' table).values)
      (d := c'.database) ?_ (Matches.pure ⟨rfl, staged, h'⟩)))
    rw [Database.perform, hname, h'.seen hkeeps hsome]
    rfl

end Tables

end Tabular.Bench
