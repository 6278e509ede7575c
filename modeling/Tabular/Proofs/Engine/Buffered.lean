import Tabular.Proofs.Engine.Execution
import Tabular.Proofs.Engine.Sessions
import Tabular.Proofs.Engine.Stock
import Tabular.Proofs.Interleaving.Steps

/-!
# Tabular.Proofs.Engine.Buffered — a unit of work over a versioned store

While a unit of work runs nothing changes but what its participants hold back and what the engine remembers
of the registry.  `Holding` says so, and that the shelf next to it is the snapshot with the changes laid over
it.  Main statement: `mimics_buffered`, the tables of the transaction mimic plain ones.
-/

namespace Tabular.Bench

open Interleaving (Typed)

/-- The runner of the engine of index `k` over the versioned store of its process. -/
def coordinatedOf (k : Nat) (strategy : SessionStrategy) (waitMs : Nat) : Coordinated SiteM where
  sessions := sessionsOf k strategy waitMs
  coordinator := Site.coordinator
  store := Site.store
  catalog := (Catalog.keyed Site.store).cached (EngineCells.ofCell (Site.engineCell k)).cache
  unfinished := (EngineCells.ofCell (Site.engineCell k)).unfinished

/-- How participants, a shelf and a scene are related while a unit of work runs that began at `start`. -/
structure Holding (s : Reference) (start : Scene) (participants : Participants) (shelf : Shelf)
    (c : Scene) : Prop where
  scene : c = { start with cache := c.cache }
  agrees : c.cache.Agrees s.schemas
  typed : Typed s.schemas participants
  fresh : Fresh participants
  rows : shelf.row? = s.shelf.row?.overlaid (Cells.held participants)

variable {k waitMs : Nat} {strategy : SessionStrategy} {s : Reference} {tx : Transaction} {start c : Scene}
  {participants : Participants} {shelf : Shelf} {table : String} {p : Participant} {key : RowKey}

theorem Holding.begin (h : start.cache.Agrees s.schemas) : Holding s start ∅ s.shelf start where
  scene := rfl
  agrees := h
  typed := .empty
  fresh := .empty
  rows := by
    rw [Cells.held_empty]
    rfl

/-- A row next to a transaction is the change that is held back, or else that of the snapshot. -/
theorem Holding.row?_eq (h : Holding s start participants shelf c) (hp : participants[table]? = some p)
    (key : RowKey) : shelf.row? ⟨table, key⟩ = (p.writes[key]?).getD (s.shelf.row? ⟨table, key⟩) := by
  rw [h.rows, Contents.overlaid, Cells.held, hp]
  rfl

/-- A change that is held back. -/
theorem Holding.hold (h : Holding s start participants shelf c) (hp : participants[table]? = some p)
    (cell : Option Row) : Holding s start (participants.insert table (p.withWrite key cell))
      (shelf.change ⟨table, key⟩ cell) c where
  scene := h.scene
  agrees := h.agrees
  typed := h.typed.insert (h.typed table p hp)
  fresh := h.fresh.insert (h.fresh table p hp).1 (h.fresh table p hp).2
  rows := by
    rw [Shelf.row?_change, h.rows, Cells.held_insert_withWrite hp, Contents.overlaid_update]

/-- A table of which nothing is changed yet. -/
theorem Holding.join {schema : { schema : TableSchema // schema.name = table }}
    (h : Holding s start participants shelf c) (hnone : participants[table]? = none)
    (hschema : s.schemas table = some schema) :
    Holding s start (participants.insert table { schema := schema.1 }) shelf c where
  scene := h.scene
  agrees := h.agrees
  typed := h.typed.insert ⟨schema.2, hschema⟩
  fresh := h.fresh.insert schema.2 rfl
  rows := by rw [Cells.held_insert_of_writes_eq hnone rfl, h.rows]

/-- What the registry of a versioned store answers of a table that is not registered. -/
theorem Yields.find_keyed {i : Option Nat} {listed : Schemas} {tables : Stored} {limit : Nat}
    (h : Stocked listed tables limit c.store) (hnone : listed table = none) :
    Yields i ((Catalog.keyed Site.store).find table).run c fun r c' =>
      r = .error (.tableNotFound table) ∧ c' = c := by
  have hentry : c.store.metadata[Catalog.entryKey table]? = none :=
    eq_none_of_isSome_eq (h.registered table) hnone
  refine andThen (x := Site.store (.metadataGet (Catalog.entryKey table))) (store rfl ?_)
  rw [hentry]
  exact pure ⟨rfl, rfl⟩

section Tables

variable (hstock : Stocked s.schemas (stored s) tx.writePointer start.store)
  (hvisible : ∀ q < tx.writePointer, tx.isVisible q = true)

include hstock

/-- Opening a table answers the participant with its schema. -/
theorem matches_join (table : String) (h : Holding s start participants shelf c) :
    Matches (Holding s start) (some k) ((coordinatedOf k strategy waitMs).join tx table) participants c
      (Attempt.of (Shelf.schema s.schemas table)) shelf fun p schema participants' shelf' c' =>
        p.schema = schema ∧ participants'[table]? = some p ∧ Holding s start participants' shelf' c' := by
  refine Matches.get ?_
  cases hp : participants[table]? with
  | some p =>
    obtain ⟨hname, hschema⟩ := h.typed table p hp
    rw [Shelf.schema_eq hschema]
    exact Matches.pure ⟨rfl, hp, h⟩
  | none =>
    have hload : s.schemas table = none → ∀ c, (c = { start with cache := c.cache }) →
        Yields (some k) ((Catalog.keyed Site.store).find table).run c fun r c' =>
          r = .error (.tableNotFound table) ∧ c' = { start with cache := c'.cache } ∧
            c'.cache = c.cache := by
      intro hnone c hc
      have hstore : Stocked s.schemas (stored s) tx.writePointer c.store := by
        rw [hc]
        exact hstock
      refine (Yields.find_keyed hstore hnone).mono ?_
      rintro r _ ⟨hr, rfl⟩
      exact ⟨hr, hc, rfl⟩
    have hcache : ∀ (c : Scene) (cache : LookupCache), c = { start with cache := c.cache } →
        { c with cache } = { start with cache } := by
      intro c cache hc
      rw [hc]
    refine Matches.lifted ((Yields.lookup hcache hload h.scene h.agrees).mono ?_)
    rintro _ c' ⟨rfl, hscene, hagrees⟩
    have h' : Holding s start participants shelf c' := ⟨hscene, hagrees, h.typed, h.fresh, h.rows⟩
    cases hschema : s.schemas table with
    | none =>
      rw [Shelf.schema_of_none hschema]
      exact Yields.pure ⟨rfl, h'⟩
    | some schema =>
      rw [Shelf.schema_eq hschema]
      refine Matches.ok (Matches.reporting ?_)
      exact Yields.pure ⟨rfl, by simp, h'.join hp hschema⟩

include hvisible

/-- A row is looked up among the changes first, and in the store if it is not changed. -/
theorem yields_lookup (hp : participants[table]? = some p) (h : Holding s start participants shelf c)
    (key : RowKey) :
    Yields (some k) ((coordinatedOf k strategy waitMs).lookup tx p key).run c fun r c' =>
      r = .ok (shelf.row? ⟨table, key⟩) ∧ c' = c := by
  obtain ⟨hname, hschema⟩ := h.typed table p hp
  rw [h.row?_eq hp, Coordinated.lookup]
  cases p.writes[key]? with
  | some cell => exact Yields.pure ⟨rfl, rfl⟩
  | none =>
    have hstored := stored_of_schema hschema
    have hread : start.store.perform (.read table key tx) = _ := VersionedStore.perform_read_of_mem key
      ((hstock.mem_tables table).2 (by rw [hstored]; rfl))
    rw [hstock.rows hstored key tx hvisible] at hread
    rw [hname]
    refine Yields.store (t := c.store) ?_ ⟨rfl, rfl⟩
    rw [h.scene]
    exact hread

/-- A scan answers the rows of the snapshot with the changes laid over them. -/
theorem yields_scan (hp : participants[table]? = some p) (h : Holding s start participants shelf c) :
    Yields (some k) (Site.store (.scan p.schema.name tx)).run c fun r c' =>
      ∃ rows, r = .ok rows ∧ p.writes.applyTo (.ofList rows compare) = shelf table ∧ c' = c := by
  obtain ⟨hname, hschema⟩ := h.typed table p hp
  have hstored := stored_of_schema hschema
  obtain ⟨rows, hscan, hrows⟩ := VersionedStore.perform_scan_of_mem tx
    ((hstock.mem_tables table).2 (by rw [hstored]; rfl))
  rw [hname]
  refine Yields.store (t := c.store) (a := rows.toList) ?_ ⟨_, rfl, ?_, rfl⟩
  · rw [h.scene]
    exact hscan
  · rw [ofList_toList]
    refine Std.ExtTreeMap.ext_getElem? fun key => ?_
    rw [Changes.getElem?_applyTo, hrows, hstock.rows hstored key tx hvisible]
    exact (h.row?_eq hp key).symm

/-- The tables of a transaction mimic plain ones. -/
theorem mimics_buffered :
    Mimics (Holding s start) (some k) s.schemas ((coordinatedOf k strategy waitMs).attempt tx) := by
  intro call participants shelf c h
  have hjoin : ∀ table, Matches _ (some k) ((coordinatedOf k strategy waitMs).join tx table) participants c _
      shelf _ := fun table => matches_join hstock table h
  cases call with
  | visit table =>
    refine Matches.bind ((hjoin table).mono ?_)
    rintro p schema participants' shelf' c' ⟨-, -, h'⟩
    exact Matches.pure ⟨rfl, h'⟩
  | schema table =>
    rw [Shelf.attempt, ← bind_pure (Attempt.of (Shelf.schema s.schemas table))]
    refine Matches.bind ((hjoin table).mono ?_)
    rintro p _ participants' shelf' c' ⟨rfl, -, h'⟩
    exact Matches.pure ⟨rfl, h'⟩
  | upsert table row =>
    refine Matches.bind ((hjoin table).mono ?_)
    rintro p _ participants' shelf' c' ⟨rfl, hp, h'⟩
    refine Matches.bind (Matches.of (fun key _ => ?_) h')
    refine Matches.shelved (Matches.lifted ((yields_lookup hstock hvisible hp h' key).mono ?_))
    rintro _ _ ⟨rfl, rfl⟩
    refine Matches.ok (Matches.bind (Matches.of (fun merged _ => ?_) h'))
    exact Yields.pure ⟨rfl, h'.hold hp (some merged)⟩
  | read table values =>
    refine Matches.bind ((hjoin table).mono ?_)
    rintro p _ participants' shelf' c' ⟨rfl, hp, h'⟩
    refine Matches.bind (Matches.of (fun key _ => ?_) h')
    refine Matches.shelved (Matches.ending ((yields_lookup hstock hvisible hp h' key).mono ?_))
    rintro _ _ ⟨rfl, rfl⟩
    exact Matches.pure ⟨rfl, h'⟩
  | delete table values =>
    refine Matches.bind ((hjoin table).mono ?_)
    rintro p _ participants' shelf' c' ⟨rfl, hp, h'⟩
    refine Matches.bind (Matches.of (fun key _ => ?_) h')
    exact Yields.pure ⟨rfl, h'.hold hp none⟩
  | scan table =>
    refine Matches.bind ((hjoin table).mono ?_)
    rintro p schema participants' shelf' c' ⟨-, hp, h'⟩
    refine Matches.shelved (Matches.lifted ((yields_scan hstock hvisible hp h').mono ?_))
    rintro _ _ ⟨rows, rfl, hrows, rfl⟩
    refine Matches.ok (Matches.pure ⟨?_, h'⟩)
    rw [hrows]

end Tables

end Tabular.Bench
