import Tabular.Proofs.Engine.Buffered

/-!
# Tabular.Proofs.Engine.Versioned — engines over a versioned store

What the runner does around a unit of work: writing what is held back, committing, and undoing nothing when
the work fails.  Main statement: `versionedBackend_carries`, a versioned store does what any engine needs of
its storage, with either strategy for its sessions.
-/

namespace Tabular.Bench

variable {i : Option Nat} {k waitMs : Nat} {strategy : SessionStrategy} {tx : Transaction} {c : Scene}
  {participants : Participants}

/-! ### Writing -/

open Execution (Performs)
open VersionedStore (Writes)

/-- Cells that are held back can be written where their table is there. -/
theorem Yields.writeCells {table : String} (entries : List (RowKey × Option Row)) (done : List RowKey)
    (hheld : ∀ entry ∈ entries, Cells.held participants ⟨table, entry.1⟩ = some entry.2)
    (htable : table ∈ c.store.tables) :
    Yields i (Participant.writeCells Site.store table tx.writePointer entries done) c fun r c' =>
      r.1 = .ok () ∧ ∃ store, c' = { c with store } ∧ c.store.Writes participants tx.writePointer store
        fun row => ∃ entry ∈ entries, row = ⟨table, entry.1⟩ := by
  induction entries generalizing c done with
  | nil => exact pure ⟨rfl, c.store, rfl, Writes.nothing.mono fun _ => by simp⟩
  | cons entry rest ih =>
    obtain ⟨key, cell⟩ := entry
    obtain ⟨store, hwrite, hmetadata⟩ := VersionedStore.perform_write_of_mem key tx.writePointer cell
      htable
    have hone := Writes.one (hheld _ List.mem_cons_self) hwrite hmetadata
    refine bind (Yields.store hwrite ?_)
    refine (ih (c := { c with store }) (key :: done)
      (fun entry hentry => hheld entry (List.mem_cons_of_mem _ hentry))
      ((hone.mem_tables table).2 htable)).mono ?_
    rintro r c' ⟨hr, store', rfl, hrest⟩
    exact ⟨hr, store', rfl, (hone.trans hrest).mono fun row => by simp⟩

/-- Everything that participants hold back can be written where their tables are there. -/
theorem Yields.persistAll (hfresh : Fresh participants) (ps : List Participant)
    (hps : ∀ p ∈ ps, p ∈ participants.values) (htables : ∀ p ∈ ps, p.schema.name ∈ c.store.tables) :
    Yields i (Participant.persistAll Site.store tx ps) c fun r c' =>
      r.1 = .ok () ∧ ∃ store, c' = { c with store } ∧ c.store.Writes participants tx.writePointer store
        fun row => ∃ p ∈ ps, p.schema.name = row.table ∧ (p.writes[row.key]?).isSome := by
  induction ps generalizing c with
  | nil => exact pure ⟨rfl, c.store, rfl, Writes.nothing.mono fun _ => by simp⟩
  | cons p rest ih =>
    have hheld : ∀ entry ∈ p.writes.toList, Cells.held participants ⟨p.schema.name, entry.1⟩ = some entry.2 := by
      intro entry hentry
      rw [hfresh.held_eq (hps p List.mem_cons_self)]
      exact Std.ExtTreeMap.mem_toList_iff_getElem?_eq_some.1 hentry
    refine bind (bind ((Yields.writeCells _ _ hheld (htables p List.mem_cons_self)).mono ?_))
    rintro ⟨r, persisted⟩ c₁ ⟨hr, store, rfl, hwrites⟩
    cases hr
    refine pure (bind ((ih (fun p hp => hps p (List.mem_cons_of_mem _ hp))
      fun p hp => (hwrites.mem_tables _).2 (htables p (List.mem_cons_of_mem _ hp))).mono ?_))
    rintro ⟨r, persisted'⟩ c₂ ⟨hr, store', rfl, hrest⟩
    refine pure ⟨hr, store', rfl, (hwrites.trans hrest).mono fun row => ?_⟩
    simp only [List.mem_cons, exists_eq_or_imp]
    refine or_congr_left ?_
    constructor
    · rintro ⟨entry, hentry, rfl⟩
      exact ⟨rfl, by rw [Std.ExtTreeMap.mem_toList_iff_getElem?_eq_some.1 hentry]; rfl⟩
    · obtain ⟨table, key⟩ := row
      rintro ⟨rfl, hkey⟩
      obtain ⟨cell, hcell⟩ := Option.isSome_iff_exists.1 hkey
      exact ⟨(key, cell), Std.ExtTreeMap.mem_toList_iff_getElem?_eq_some.2 hcell, rfl⟩

/-- Where nothing is written there is nothing to undo. -/
theorem Yields.rollbackAll (ps : List Participant) (hps : ∀ p ∈ ps, p.persisted = []) :
    Yields i (Participant.rollbackAll Site.store tx ps) c fun r c' => r.1 = .ok () ∧ c' = c := by
  induction ps with
  | nil => exact pure ⟨rfl, rfl⟩
  | cons p rest ih =>
    rw [Participant.rollbackAll, Participant.rollback, hps p List.mem_cons_self]
    refine bind (pure (bind ((ih fun p hp => hps p (List.mem_cons_of_mem _ hp)).mono ?_)))
    rintro ⟨r, rest'⟩ c' ⟨hr, rfl⟩
    cases hr
    exact pure ⟨rfl, rfl⟩

/-! ### Ending a transaction -/

/-- What is left of a scene when a transaction has ended: nothing but the coordinator and the store are
changed. -/
def Ended (listed : Schemas) (tables : Stored) (c c' : Scene) : Prop :=
  ∃ coordinator store, c' = { c with coordinator, store } ∧ coordinator.Idle ∧
    Stocked listed tables coordinator.next store

variable {listed : Schemas} {tables tables' : Stored}

/-- A transaction that has written nothing is aborted. -/
theorem Yields.failWith (session : Nat) (e : StoreError) (ps : List Participant)
    (hps : ∀ p ∈ ps, p.persisted = []) (hbusy : c.coordinator.Busy tx)
    (hstock : Stocked listed tables c.coordinator.next c.store) :
    Yields i ((coordinatedOf k strategy waitMs).failWith session true tx ps e) c fun ending c' =>
      ending.result = .error e ∧ Ended listed tables c c' := by
  obtain ⟨coordinator, habort, hidle, hnext⟩ := hbusy.abort session
  refine bind (bind ((Yields.rollbackAll ps hps).mono ?_))
  rintro ⟨r, ps'⟩ _ ⟨hr, rfl⟩
  cases hr
  refine bind (andThen (Yields.coordinator habort (reported ?_)))
  exact pure (pure ⟨rfl, coordinator, _, rfl, hidle, hstock.mono hnext⟩)

/-- A transaction that alone was in progress commits. -/
theorem Yields.commit (session : Nat) {limit : Nat} (hfresh : Fresh participants)
    (hthere : ∀ p ∈ participants.values, p.schema.name ∈ c.store.tables) (hbusy : c.coordinator.Busy tx)
    (hstock : Stocked listed tables limit c.store) (hlimit : limit ≤ tx.writePointer)
    (hnext : tx.writePointer < c.coordinator.next)
    (hsome : ∀ table, (tables' table).isSome = (tables table).isSome)
    (hrows : ∀ {table rows rows'}, tables table = some rows → tables' table = some rows' → ∀ key : RowKey,
      rows'[key]? = (Cells.held participants ⟨table, key⟩).getD rows[key]?) :
    Yields i ((coordinatedOf k strategy waitMs).commit session tx participants.values) c fun ending c' =>
      ending.result = .ok () ∧ Ended listed tables' c c' := by
  obtain ⟨coordinator, hcan, hbusy', hnext'⟩ :=
    hbusy.canCommit session (Participant.changeSet participants.values)
  obtain ⟨coordinator', hcommit, hidle, hnext''⟩ := hbusy'.commit session
  refine bind (Yields.coordinator hcan ?_)
  refine bind ((Yields.persistAll (c := { c with coordinator }) hfresh _ (fun _ hp => hp) hthere).mono ?_)
  rintro ⟨r, ps⟩ _ ⟨hr, store, rfl, hwrites⟩
  cases hr
  refine bind (Yields.coordinator hcommit (bind (report ?_)))
  refine pure ⟨rfl, coordinator', store, rfl, hidle, ?_⟩
  exact hstock.commit hwrites (fun row => hfresh.exists_of_held) hlimit (by omega) hsome hrows

/-! ### Running a unit of work -/

/-- What lasts between the steps of an engine over a versioned store. -/
structure Rests (strategy : SessionStrategy) (listed : Schemas) (tables : Stored) (c : Scene) : Prop where
  stocked : Stocked listed tables c.coordinator.next c.store
  idle : c.coordinator.Idle
  free : Free strategy c
  /-- No transaction waits to be settled. -/
  settled : c.unfinished = []

variable {α : Type} {s : Reference}

/-- What a transaction makes of the rows that it started from. -/
theorem rows_of_holding {start : Scene} {shelf : Shelf} (h : Holding s start participants shelf c)
    {table : String} {rows rows' : Rows} (hrows : stored s table = some rows)
    (hrows' : stored { s with shelf } table = some rows') (key : RowKey) :
    rows'[key]? = (Cells.held participants ⟨table, key⟩).getD rows[key]? := by
  obtain ⟨schema, -, rfl⟩ := Option.map_eq_some_iff.1 hrows
  obtain ⟨schema', -, rfl⟩ := Option.map_eq_some_iff.1 hrows'
  exact congrFun h.rows ⟨table, key⟩

/-- The tables of participants are there, and nothing is written yet. -/
theorem unwritten_of_holding {start : Scene} {shelf : Shelf} {limit : Nat}
    (h : Holding s start participants shelf c) (hstock : Stocked s.schemas (stored s) limit start.store) :
    ∀ p ∈ participants.values, p.schema.name ∈ start.store.tables ∧ p.persisted = [] := by
  intro p hp
  obtain ⟨table, hp⟩ := mem_values_iff.1 hp
  obtain ⟨hname, hschema⟩ := h.typed table p hp
  refine ⟨?_, (h.fresh table p hp).2⟩
  rw [hname, hstock.mem_tables, isSome_stored, hschema]
  rfl

/-- A unit of work in a transaction of its own. -/
theorem YieldsAround.inTransaction (work : Work Id α) (session : Nat) (hagrees : c.cache.Agrees s.schemas)
    (hbusy : c.coordinator.Busy tx) (hstock : Stocked s.schemas (stored s) tx.writePointer c.store)
    (hvisible : ∀ q < tx.writePointer, tx.isVisible q = true)
    (hnext : tx.writePointer < c.coordinator.next) :
    YieldsAround (some k) work.hoist ((coordinatedOf k strategy waitMs).inTransaction session tx) { } c
      fun ending progress c' => Execution.conclude ending.result progress.value = (s.run work).1 ∧
        c'.cache.Agrees s.schemas ∧ Ended s.schemas (stored (s.run work).2) { c with cache := c'.cache } c' := by
  refine Performs.report (Performs.bind (Performs.invoke ?_))
  refine ((mimics_buffered hstock hvisible).perform work (Holding.begin hagrees)).mono ?_
  rintro ⟨r, participants⟩ c' ⟨hr, h⟩
  obtain ⟨cache, rfl⟩ : ∃ cache, c' = { c with cache } := ⟨_, h.scene⟩
  have hps := unwritten_of_holding h hstock
  generalize hended : (work.perform (Shelf.tables s.schemas)).run s.shelf = ended at hr h
  obtain ⟨ended, shelf⟩ := ended
  cases hr
  cases r with
  | ok a =>
    rw [Reference.run_of_ok hended]
    have hsome : ∀ table, (stored { s with shelf } table).isSome = (stored s table).isSome := by
      intro table
      rw [isSome_stored, isSome_stored]
    refine Performs.lifted ((Yields.commit (c := { c with cache }) session h.fresh (fun p hp => (hps p hp).1)
      hbusy hstock (Nat.le_refl _) hnext hsome (rows_of_holding h)).mono ?_)
    rintro ⟨_, reusable⟩ _ ⟨rfl, coordinator, store, rfl, hidle, hstock'⟩
    exact ⟨rfl, h.agrees, coordinator, store, rfl, hidle, hstock'⟩
  | error failure =>
    rw [Reference.run_of_error hended]
    refine Performs.report (Performs.lifted ((Yields.failWith (c := { c with cache }) session
      failure.reported _ (fun p hp => (hps p hp).2) hbusy (hstock.mono (Nat.le_of_lt hnext))).mono ?_))
    rintro ⟨_, reusable⟩ _ ⟨rfl, coordinator, store, rfl, hidle, hstock'⟩
    exact ⟨rfl, h.agrees, coordinator, store, rfl, hidle, hstock'⟩

/-- Where no transaction waits there is none to settle. -/
theorem Yields.settleUnfinished (session : Nat) (h : c.unfinished = []) :
    Yields (some k) ((coordinatedOf k strategy waitMs).settleUnfinished session).run c fun r c' =>
      r = .ok () ∧ c' = c := by
  refine action (unfinished ?_)
  rw [h]
  exact pure ⟨rfl, by rw [← h]⟩

/-- A unit of work between two moments of rest. -/
theorem Yields.runCoordinated (work : Work Id α) (h : Serves (Rests strategy) s c) :
    Yields (some k) ((coordinatedOf k strategy waitMs).execution.run work.hoist).run c fun r c' =>
      r = (s.run work).1 ∧ Serves (Rests strategy) (s.run work).2 c' := by
  obtain ⟨hstock, hidle, hfree, hsettled⟩ := h.holds
  refine YieldsAround.run (Performs.lift ((Yields.acquire hidle hfree).mono ?_))
  rintro _ _ ⟨session, coordinator, pool, threads, rfl, rfl, hlent, hidle, hnext⟩
  refine Performs.bind (Performs.lift ((Yields.settleUnfinished (c := { c with coordinator, pool, threads })
    session hsettled).mono ?_))
  rintro _ _ ⟨rfl, rfl⟩
  obtain ⟨tx, coordinator, hbegin, hbusy, hpointer, hafter, hvisible⟩ := hidle.begin session
  have hpointer : tx.writePointer = c.coordinator.next := hpointer.trans hnext
  refine Performs.lift (Yields.coordinator hbegin ?_)
  refine (YieldsAround.inTransaction (c := { c with coordinator, pool, threads }) work session h.agrees hbusy
    ?_ ?_ ?_).mono ?_
  · rw [hpointer]
    exact hstock
  · rw [hpointer, ← hnext]
    exact hvisible
  · show tx.writePointer < coordinator.next
    omega
  rintro c' ending progress ⟨hanswer, hagrees, coordinator, store, hscene, hidle, hstock'⟩
  have hlent : Lent strategy c' := by
    rw [hscene]
    exact hlent
  refine Performs.lift ((Yields.release hlent).mono ?_)
  rintro - _ ⟨pool', threads', rfl, hfree⟩
  refine Performs.pure ⟨hanswer, ⟨?_, ?_, hfree, ?_⟩, ?_⟩
  · rw [hscene, Reference.schemas_run]
    exact hstock'
  · rw [hscene]
    exact hidle
  · rw [hscene]
    exact hsettled
  · rw [Reference.schemas_run]
    exact hagrees

/-! ### The backend -/

variable (k waitMs strategy)

/-- The engine over the versioned store of its process. -/
def versionedEngine : Engine SiteM where
  kind := .versioned
  runner := (coordinatedOf k strategy waitMs).runner
  definition := Definition.versioned Site.store (coordinatedOf k strategy waitMs).catalog
  catalog := (coordinatedOf k strategy waitMs).catalog

/-- The versioned store of a process. -/
def versionedBackend : Backend where
  registry := Catalog.keyed Site.store
  createStorage schema := Site.store (.createTable schema.name)
  dropStorage table := Site.store (.dropTable table)
  Holds := Rests strategy

/-- A versioned store does what an engine over it needs. -/
theorem versionedBackend_carries :
    (versionedBackend strategy).Carries k (versionedEngine k waitMs strategy) where
  schemaOf_eq := rfl
  createTable_eq _ _ := rfl
  dropTable_eq := rfl
  holds_cache h := ⟨h.stocked, h.idle, h.free, h.settled⟩
  holds_thread h := ⟨h.stocked, h.idle, h.free, h.settled⟩
  find table h hnone := by
    refine (Yields.find_keyed h.stocked hnone).mono ?_
    rintro r _ ⟨hr, rfl⟩
    exact ⟨hr, h, rfl⟩
  register schema h hnone := by
    obtain ⟨metadata, hadd, hstock⟩ := h.stocked.register schema hnone schema.document
    exact Yields.andThen (Yields.store hadd (Yields.pure ⟨rfl, ⟨hstock, h.idle, h.free, h.settled⟩, rfl⟩))
  remove table h hsome := by
    obtain ⟨metadata, hdelete, hstock⟩ := h.stocked.remove hsome
    exact Yields.andThen (Yields.store hdelete (Yields.pure ⟨rfl, ⟨hstock, h.idle, h.free, h.settled⟩, rfl⟩))
  create schema _ h hnone := by
    obtain ⟨hcreate, hstock⟩ := h.stocked.create hnone
    exact Yields.store hcreate ⟨rfl, ⟨hstock, h.idle, h.free, h.settled⟩, rfl⟩
  drop table h hsome := by
    obtain ⟨hdrop, hstock⟩ := h.stocked.drop hsome
    exact Yields.store hdrop ⟨rfl, ⟨hstock, h.idle, h.free, h.settled⟩, rfl⟩
  run work s c h := Yields.runCoordinated work h

end Tabular.Bench
