import Tabular.Proofs.Engine.Lookups
import Tabular.Proofs.Engine.Reference

/-!
# Tabular.Proofs.Engine.Backend — what any family of storage has to offer

A `Backend` is the storage and the registry below the engine of a process, with what lasts between their
steps: `Holds listed stored c`, while the registry lists some schemas and the storage has the rows of some
tables.  `Carries` says what an engine needs of each step.  Main statement: `Carries.answer`, an engine over
any backend that carries it answers what the reference store answers.
-/

namespace Tabular.Bench

/-- The rows of each table that there is. -/
abbrev Stored := String → Option Rows

/-- The tables of a reference store. -/
def stored (s : Reference) : Stored := fun table => (s.schemas table).map fun _ => s.shelf table

theorem stored_of_schema {s : Reference} {table : String}
    {schema : { schema : TableSchema // schema.name = table }} (h : s.schemas table = some schema) :
    stored s table = some (s.shelf table) := by
  rw [stored, h]
  rfl

theorem isSome_stored (s : Reference) (table : String) :
    (stored s table).isSome = (s.schemas table).isSome := Option.isSome_map

theorem stored_withTable (s : Reference) (schema : TableSchema) :
    stored (s.withTable schema) = Function.update (stored s) schema.name (some ∅) := by
  funext table
  by_cases h : table = schema.name
  · subst h
    simp [stored, Reference.withTable]
  · simp [stored, Reference.withTable, h]

theorem stored_withoutTable (s : Reference) (table : String) :
    stored (s.withoutTable table) = Function.update (stored s) table none := by
  funext other
  by_cases h : other = table
  · subst h
    simp [stored, Reference.withoutTable]
  · simp [stored, Reference.withoutTable, h]

/-- Whether an engine whose storage and registry satisfy `Holds` serves a reference store. -/
structure Serves (Holds : Schemas → Stored → Scene → Prop) (s : Reference) (c : Scene) : Prop where
  holds : Holds s.schemas (stored s) c
  /-- What the engine remembers of the registry is right. -/
  agrees : c.cache.Agrees s.schemas

/-- What holds after a step that ends well and leaves the cache alone. -/
def Done (Q : Scene → Prop) (c : Scene) (r : Except StoreError Unit) (c' : Scene) : Prop :=
  r = .ok () ∧ Q c' ∧ c'.cache = c.cache

/-- The storage and the registry of an engine. -/
structure Backend where
  registry : Catalog SiteM
  createStorage : TableSchema → Attempt SiteM Unit
  dropStorage : String → Attempt SiteM Unit
  /-- What holds between two steps, given what is registered and what is stored. -/
  Holds : Schemas → Stored → Scene → Prop

namespace Backend

/-- Whether the engine of index `k` is one over a backend, each step of which does what it should. -/
structure Carries (b : Backend) (k : Nat) (engine : Engine SiteM) : Prop where
  schemaOf_eq : engine.definition.schemaOf =
    (b.registry.cached (EngineCells.ofCell (Site.engineCell k)).cache).find
  createTable_eq : ∀ schema : TableSchema, schema.name ≠ Catalog.catalogTable →
    engine.definition.createTable schema =
      Definition.create (b.registry.cached (EngineCells.ofCell (Site.engineCell k)).cache) b.createStorage schema
  dropTable_eq : engine.definition.dropTable =
    Definition.drop (b.registry.cached (EngineCells.ofCell (Site.engineCell k)).cache) b.dropStorage
  holds_cache : ∀ {listed stored c cache}, b.Holds listed stored c → b.Holds listed stored { c with cache }
  holds_thread : ∀ {listed stored c thread}, b.Holds listed stored c → b.Holds listed stored { c with thread }
  find : ∀ {listed stored c} table, b.Holds listed stored c → listed table = none →
    Yields (some k) (b.registry.find table).run c fun r c' =>
      r = .error (.tableNotFound table) ∧ b.Holds listed stored c' ∧ c'.cache = c.cache
  register : ∀ {listed stored c} (schema : TableSchema), b.Holds listed stored c → listed schema.name = none →
    Yields (some k) (b.registry.register schema).run c
      (Done (b.Holds (Function.update listed schema.name (some ⟨schema, rfl⟩)) stored) c)
  remove : ∀ {listed stored c} table, b.Holds listed stored c → (listed table).isSome →
    Yields (some k) (b.registry.remove table).run c (Done (b.Holds (Function.update listed table none) stored) c)
  create : ∀ {listed stored c} (schema : TableSchema), schema.name ≠ Catalog.catalogTable →
    b.Holds listed stored c → stored schema.name = none →
      Yields (some k) (b.createStorage schema).run c
        (Done (b.Holds listed (Function.update stored schema.name (some ∅))) c)
  drop : ∀ {listed stored c} table, b.Holds listed stored c → (stored table).isSome →
    Yields (some k) (b.dropStorage table).run c (Done (b.Holds listed (Function.update stored table none)) c)
  run : ∀ {α : Type} (work : Work Id α) (s : Reference) c, Serves b.Holds s c →
    Yields (some k) (engine.runner.execution.run work.hoist).run c fun r c' =>
      r = (s.run work).1 ∧ Serves b.Holds (s.run work).2 c'

namespace Carries

variable {b : Backend} {k : Nat} {engine : Engine SiteM} (hb : b.Carries k engine) {s : Reference} {c : Scene}

include hb

/-- The catalog of the engine finds what is registered. -/
theorem find_yields (table : String) (h : Serves b.Holds s c) :
    Yields (some k) (engine.definition.schemaOf table).run c fun r c' =>
      r = Shelf.schema s.schemas table ∧ Serves b.Holds s c' := by
  rw [hb.schemaOf_eq]
  refine (Yields.lookup (P := b.Holds s.schemas (stored s)) (fun _ _ => hb.holds_cache)
    (fun hnone c hc => hb.find table hc hnone) h.holds h.agrees).mono ?_
  rintro r c' ⟨hr, hholds, hagrees⟩
  exact ⟨hr, hholds, hagrees⟩

theorem isDefined_yields (table : String) (h : Serves b.Holds s c) :
    Yields (some k) (engine.definition.isDefined table).run c fun r c' =>
      r = .ok (s.schemas table).isSome ∧ Serves b.Holds s c' := by
  refine Yields.outcome ((hb.find_yields table h).mono ?_)
  rintro _ c' ⟨rfl, hc'⟩
  cases htable : s.schemas table with
  | some schema =>
    rw [Shelf.schema_eq htable]
    exact Yields.pure ⟨rfl, hc'⟩
  | none =>
    rw [Shelf.schema_of_none htable]
    exact Yields.pure ⟨rfl, hc'⟩

theorem createTable_yields (schema : TableSchema) (hname : schema.name ≠ Catalog.catalogTable)
    (h : Serves b.Holds s c) :
    Yields (some k) (engine.definition.createTable schema).run c fun r c' =>
      r = (s.createTable schema).1 ∧ Serves b.Holds (s.createTable schema).2 c' := by
  have hfind := hb.find_yields schema.name h
  rw [hb.schemaOf_eq] at hfind
  rw [hb.createTable_eq schema hname, Definition.create, Reference.createTable]
  cases schema.validate with
  | error e => exact Yields.andThen (Yields.of ⟨rfl, h⟩)
  | ok u =>
    refine Yields.andThen (Yields.of ?_)
    refine Yields.outcome (hfind.mono ?_)
    rintro _ c₁ ⟨rfl, h₁⟩
    cases htable : s.schemas schema.name with
    | some registered =>
      rw [Shelf.schema_eq htable]
      exact Yields.pure ⟨rfl, h₁⟩
    | none =>
      rw [Shelf.schema_of_none htable]
      have hstored : stored s schema.name = none := eq_none_of_isSome_eq (isSome_stored s _) htable
      refine Yields.outcome ((hb.create schema hname h₁.holds hstored).mono ?_)
      rintro _ c₂ ⟨rfl, hholds₂, hcache₂⟩
      refine Yields.outcome ((Yields.change (fun _ _ => hb.holds_cache)
        (fun c hc => hb.register schema hc htable) (fun _ _ => hb.holds_cache) hholds₂).mono ?_)
      rintro _ c₃ ⟨rfl, hholds₃, hcache₃⟩
      refine Yields.reported ⟨rfl, ?_, ?_⟩
      · show b.Holds _ (stored (s.withTable schema)) c₃
        rw [stored_withTable]
        exact hholds₃
      · rw [hcache₃, hcache₂]
        exact h₁.agrees.withSlot.register schema

theorem dropTable_yields (table : String) (h : Serves b.Holds s c) :
    Yields (some k) (engine.definition.dropTable table).run c fun r c' =>
      r = (s.dropTable table).1 ∧ Serves b.Holds (s.dropTable table).2 c' := by
  have hfind := hb.find_yields table h
  rw [hb.schemaOf_eq] at hfind
  rw [hb.dropTable_eq, Definition.drop, Reference.dropTable]
  refine Yields.andThen (hfind.mono ?_)
  rintro _ c₁ ⟨rfl, h₁⟩
  cases htable : s.schemas table with
  | none =>
    rw [Shelf.schema_of_none htable]
    exact ⟨rfl, h₁⟩
  | some registered =>
    have hsome : (s.schemas table).isSome := by rw [htable]; rfl
    rw [Shelf.schema_eq htable]
    refine Yields.outcome ((hb.drop table h₁.holds ((isSome_stored s table).trans hsome)).mono ?_)
    rintro _ c₂ ⟨rfl, hholds₂, hcache₂⟩
    refine Yields.outcome ((Yields.change (fun _ _ => hb.holds_cache)
      (fun c hc => hb.remove table hc hsome) (fun _ _ => hb.holds_cache) hholds₂).mono ?_)
    rintro _ c₃ ⟨rfl, hholds₃, hcache₃⟩
    refine Yields.reported ⟨rfl, ?_, ?_⟩
    · show b.Holds _ (stored (s.withoutTable table)) c₃
      rw [stored_withoutTable]
      exact hholds₃
    · rw [hcache₃, hcache₂]
      exact h₁.agrees.withSlot.remove table

/-- An engine over any backend answers what the reference store answers, and goes on serving it. -/
theorem answer {α : Type} (request : Engine.Request α) (hname : request.Unreserved)
    (h : Serves b.Holds s c) :
    Yields (some k) (engine.answer request).run c fun r c' =>
      r = (s.answer request).1 ∧ Serves b.Holds (s.answer request).2 c' := by
  have hmap : ∀ {β : Type} {f : β → Engine.Answer α} {x : Attempt SiteM β} {r : Except StoreError β}
      {after : Reference}, (Yields (some k) x.run c fun r' c' => r' = r ∧ Serves b.Holds after c') →
        Yields (some k) (f <$> x).run c fun r' c' => r' = f <$> r ∧ Serves b.Holds after c' :=
    fun h => Yields.mapped (h.mono fun r' c' hr => ⟨congrArg _ hr.1, hr.2⟩)
  cases request with
  | createTable schema => exact hmap (hb.createTable_yields schema hname h)
  | dropTable table => exact hmap (hb.dropTable_yields table h)
  | schemaOf table => exact hmap (hb.find_yields table h)
  | isDefined table => exact hmap (hb.isDefined_yields table h)
  | run work => exact hmap (hb.run work s c h)

end Carries

end Backend

end Tabular.Bench
