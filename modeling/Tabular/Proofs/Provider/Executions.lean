import Tabular.Proofs.Provider.Work

/-!
# Tabular.Proofs.Provider.Executions — units of work from their beginning to their end

Main statements: `keeps_coordinated` and `keeps_native`, what a runner does around a unit of work is nothing
but moves, whatever becomes of the unit of work and of its transaction; and `keeps_task`, so is what an engine
does about every task that is not one for times when nobody else is at work.
-/

namespace Tabular.Provider

open Execution (Performs)
open Interaction (Follows)

variable {kind : StorageKind} {listed : Schemas} {held : Option Nat} {α β γ : Type}

/-- Whether a program makes nothing but moves and comes back to the connection it has. -/
abbrev Keeps (kind : StorageKind) (listed : Schemas) (held : Option Nat) (p : Program β) : Prop :=
  Behaves kind listed held (fun _ => True) p

/-- Whether a runner does so around a unit of work. -/
abbrev KeepsAround (kind : StorageKind) (listed : Schemas) (held : Option Nat) (work : Work Program α)
    (x : ExecutionM Program β) (progress : Progress α) : Prop :=
  Performs (Follows (Move listed) (Told kind listed)) work (fun held' _ _ => held' = held) held x progress

namespace Keeps

theorem pure {b : β} : Keeps kind listed held (pure b : Program β) := Behaves.pure trivial

theorem report (event : Event) : Keeps kind listed held (Tabular.report event : Program Unit) := pure

theorem bind {p : Program β} {f : β → Program γ} (h : Keeps kind listed held p)
    (hf : ∀ b, Keeps kind listed held (f b)) : Keeps kind listed held (p >>= f) :=
  Behaves.bind h fun b _ => hf b

section Attempts

variable {x : Attempt Program β}

theorem andThen {f : β → Attempt Program γ} (h : Keeps kind listed held x.run)
    (hf : ∀ b, Keeps kind listed held (f b).run) : Keeps kind listed held (x >>= f).run :=
  Behaves.andThen h (fun b _ => hf b) fun _ _ => trivial

theorem outcome {f : Except StoreError β → Attempt Program γ} (h : Keeps kind listed held x.run)
    (hf : ∀ r, Keeps kind listed held (f r).run) : Keeps kind listed held (x.outcome >>= f).run :=
  Behaves.outcome h fun r _ => hf r

theorem lift {y : Program β} {f : β → Attempt Program γ} (h : Keeps kind listed held y)
    (hf : ∀ b, Keeps kind listed held (f b).run) :
    Keeps kind listed held ((liftM y : Attempt Program β) >>= f).run :=
  Behaves.lift h fun b _ => hf b

end Attempts

/-! ### Calls that change no table -/

theorem coordinator (c : CoordinatorCall) : Keeps kind listed held (Provider.coordinator c).run :=
  Behaves.elsewhere fun _ => trivial

theorem unfinished (change : List Unfinished → List Unfinished) :
    Keeps kind listed held (cells.unfinished.update change) := Behaves.elsewhere fun _ => trivial

theorem pool (change : Pool Nat → Pool Nat) : Keeps kind listed held (cells.pool.update change) :=
  Behaves.elsewhere fun _ => trivial

theorem threads (change : ThreadSessions → ThreadSessions) :
    Keeps kind listed held (cells.threads.update change) := Behaves.elsewhere fun _ => trivial

theorem thread : Keeps kind listed held Provider.thread := Behaves.elsewhere fun _ => trivial

theorem store {c : VersionedCall} (hc : StoreProper listed c) :
    Keeps kind listed held (Provider.store c).run :=
  Follows.ask fun r _ => ⟨held, .store r hc, rfl, trivial⟩

/-- A cell that nobody looks at. -/
theorem modify {σ : Type} {cell : Cell Program σ} {change : σ → σ}
    (h : Keeps kind listed held (cell.update change)) : Keeps kind listed held (cell.modify change) :=
  bind h fun _ => pure

end Keeps

namespace KeepsAround

variable {work : Work Program α} {progress : Progress α}

theorem lift {y : Program β} {f : β → ExecutionM Program γ} (h : Keeps kind listed held y)
    (hf : ∀ b, KeepsAround kind listed held work (f b) progress) :
    KeepsAround kind listed held work (liftM y >>= f) progress := by
  refine Performs.lift (Follows.mono h ?_)
  rintro _ b ⟨rfl, -⟩
  exact hf b

theorem lifted {y : Program β} (h : Keeps kind listed held y) :
    KeepsAround kind listed held work (liftM y) progress :=
  Performs.lifted (Follows.mono h fun _ _ hb => hb.1)

/-- What holds of a runner holds of its execution. -/
theorem run {x : Execution Program} (h : KeepsAround kind listed held work x { }) :
    Keeps kind listed held (x.run work).run := by
  refine Performs.run (h.mono ?_)
  rintro _ r progress rfl
  exact ⟨rfl, trivial⟩

end KeepsAround

/-! ### Over a versioned store -/

section Coordinated

variable {setup : Setup} {tx : Transaction} {session : Nat} {participants : List Participant}

theorem keeps_acquire : Keeps kind listed held (coordinated setup).sessions.acquire.run := by
  obtain ⟨storage, settings, strategy⟩ := setup
  cases strategy with
  | pool =>
    refine Keeps.lift (Keeps.pool Pool.take) fun before => ?_
    cases before.taken with
    | item a => exact Keeps.pure
    | nothing => exact Keeps.pure
    | slot =>
      refine Keeps.outcome (Keeps.coordinator .connect) fun r => ?_
      cases r with
      | ok a => exact Keeps.lift (Keeps.modify (Keeps.pool _)) fun _ => Keeps.pure
      | error e => exact Keeps.lift (Keeps.modify (Keeps.pool _)) fun _ => Keeps.pure
  | perThread =>
    refine Keeps.lift Keeps.thread fun thread => ?_
    refine Keeps.lift (Keeps.threads (·.lend thread)) fun before => ?_
    cases before.slots.get? thread with
    | some slot => cases slot <;> exact Keeps.pure
    | none =>
      refine Keeps.outcome (Keeps.coordinator .connect) fun r => ?_
      cases r with
      | ok a => exact Keeps.lift (Keeps.modify (Keeps.threads _)) fun _ => Keeps.pure
      | error e => exact Keeps.lift (Keeps.modify (Keeps.threads _)) fun _ => Keeps.pure

theorem keeps_release (reusable : Bool) :
    Keeps kind listed held ((coordinated setup).sessions.release session reusable) := by
  obtain ⟨storage, settings, strategy⟩ := setup
  cases strategy with
  | pool => cases reusable <;> exact Keeps.modify (Keeps.pool _)
  | perThread =>
    refine Keeps.bind Keeps.thread fun thread => ?_
    cases reusable <;> exact Keeps.modify (Keeps.threads _)

theorem keeps_settle (orphan : Unfinished) :
    Keeps kind listed held ((coordinated setup).settle session orphan).run := by
  unfold Coordinated.settle
  split
  · exact Keeps.andThen (Keeps.coordinator _) fun _ => Keeps.pure
  · exact Keeps.andThen (Keeps.coordinator _) fun _ => Keeps.pure

theorem keeps_settleAll (orphans : List Unfinished) :
    Keeps kind listed held ((coordinated setup).settleAll session orphans).run := by
  induction orphans with
  | nil => exact Keeps.pure
  | cons orphan rest ih =>
    refine Keeps.outcome (keeps_settle orphan) fun r => ?_
    cases r with
    | ok => exact ih
    | error e => exact Keeps.lift (Keeps.modify (Keeps.unfinished _)) fun _ => Keeps.pure

theorem keeps_settleUnfinished : Keeps kind listed held ((coordinated setup).settleUnfinished session).run :=
  Keeps.lift (Keeps.unfinished _) keeps_settleAll

/-- Writing cells that fit. -/
theorem keeps_writeCells {table : String} {version : Nat} {cells : List (RowKey × Option Row)}
    (hcells : ∀ key row, (key, some row) ∈ cells → Fitted listed table key row) (done : List RowKey) :
    Keeps kind listed held (Participant.writeCells (coordinated setup).store table version cells done) := by
  induction cells generalizing done with
  | nil => exact Keeps.pure
  | cons cell rest ih =>
    obtain ⟨key, cell⟩ := cell
    refine Keeps.bind (Keeps.store fun row hrow => ?_) fun r => ?_
    · subst hrow
      exact hcells key row List.mem_cons_self
    · cases r with
      | ok => exact ih (fun key row hrow => hcells key row (List.mem_cons_of_mem _ hrow)) _
      | error e => exact Keeps.pure

theorem keeps_undoCells {table : String} {version : Nat} (keys : List RowKey) :
    Keeps kind listed held (Participant.undoCells (coordinated setup).store table version keys) := by
  induction keys with
  | nil => exact Keeps.pure
  | cons key rest ih =>
    refine Keeps.bind (Keeps.store trivial) fun r => ?_
    cases r with
    | ok => exact ih
    | error e => exact Keeps.pure

theorem keeps_persist {table : String} {p : Participant} (hp : Holding (Lists listed) table p) :
    Keeps kind listed held (p.persist (coordinated setup).store tx) := by
  refine Keeps.bind (keeps_writeCells (fun key row hrow => ?_) p.persisted) fun _ => Keeps.pure
  obtain ⟨⟨rfl, hlisted⟩, hwrites⟩ := hp
  exact ⟨p.schema, ⟨rfl, hlisted⟩, hwrites key row (Std.ExtTreeMap.mem_toList_iff_getElem?_eq_some.1 hrow)⟩

/-- Only rows that fit are written. -/
theorem keeps_persistAll (hall : ∀ p ∈ participants, ∃ table, Holding (Lists listed) table p) :
    Keeps kind listed held (Participant.persistAll (coordinated setup).store tx participants) := by
  induction participants with
  | nil => exact Keeps.pure
  | cons p rest ih =>
    obtain ⟨table, hp⟩ := hall p List.mem_cons_self
    refine Keeps.bind (keeps_persist hp) ?_
    rintro ⟨r, p'⟩
    cases r with
    | ok => exact Keeps.bind (ih fun q hq => hall q (List.mem_cons_of_mem _ hq)) fun _ => Keeps.pure
    | error e => exact Keeps.pure

theorem keeps_rollbackAll (participants : List Participant) :
    Keeps kind listed held (Participant.rollbackAll (coordinated setup).store tx participants) := by
  induction participants with
  | nil => exact Keeps.pure
  | cons p rest ih =>
    refine Keeps.bind (Keeps.bind (keeps_undoCells p.persisted) fun _ => Keeps.pure) ?_
    rintro ⟨r, p'⟩
    cases r with
    | ok => exact Keeps.bind ih fun _ => Keeps.pure
    | error e => exact Keeps.bind (Keeps.report _) fun _ => Keeps.bind ih fun _ => Keeps.pure

theorem keeps_failWith (usable : Bool) (e : StoreError) :
    Keeps kind listed held ((coordinated setup).failWith session usable tx participants e) := by
  refine Keeps.bind (Keeps.bind (keeps_rollbackAll participants) fun r => ?_) fun _ => Keeps.pure
  have hleft : Keeps kind listed held (do
      (coordinated setup).unfinished.modify (· ++ [⟨tx, r.1.isOk⟩])
      return false) := Keeps.bind (Keeps.modify (Keeps.unfinished _)) fun _ => Keeps.pure
  cases usable with
  | false => exact hleft
  | true =>
    refine Keeps.bind (keeps_settle ⟨tx, r.1.isOk⟩) fun r => ?_
    cases r with
    | ok => exact Keeps.pure
    | error e => exact hleft

theorem keeps_commit (hall : ∀ p ∈ participants, ∃ table, Holding (Lists listed) table p) :
    Keeps kind listed held ((coordinated setup).commit session tx participants) := by
  have hconfirm : ∀ participants count,
      Keeps kind listed held ((coordinated setup).confirm session tx participants count) := by
    intro participants count
    refine Keeps.bind (Keeps.coordinator _) fun r => ?_
    cases r with
    | error e => exact keeps_failWith _ _
    | ok accepted =>
      cases accepted with
      | true => exact Keeps.pure
      | false => exact keeps_failWith _ _
  refine Keeps.bind (Keeps.coordinator _) fun r => ?_
  cases r with
  | error e => exact keeps_failWith _ _
  | ok accepted =>
    cases accepted with
    | false => exact keeps_failWith _ _
    | true =>
      refine Keeps.bind (keeps_persistAll hall) ?_
      rintro ⟨r, participants'⟩
      cases r with
      | ok => exact hconfirm participants' _
      | error e => exact keeps_failWith _ _

variable {work : Work Id α}

/-- A unit of work in a transaction. -/
theorem keeps_inTransaction :
    KeepsAround .versioned listed held work.hoist ((coordinated setup).inTransaction session tx) { } := by
  refine Performs.report ?_
  -- What a commit writes has been kept aside by the unit of work, and fits.
  refine Performs.bind (Performs.invoke (Follows.mono
    (behaves_work (fun call t => (behaves_coordinated · call)) .empty) ?_))
  rintro _ ⟨ended, participants⟩ ⟨rfl, hbuffered⟩
  cases ended with
  | ok a =>
    refine KeepsAround.lifted (keeps_commit fun p hp => ?_)
    obtain ⟨table, hp⟩ := mem_values_iff.1 hp
    exact ⟨table, hbuffered table p hp⟩
  | error failure => exact KeepsAround.lifted (keeps_failWith _ _)

/-- What a runner over a versioned store does around a unit of work is nothing but moves. -/
theorem keeps_coordinated : KeepsAround .versioned listed held work.hoist (coordinated setup).execution { } := by
  refine KeepsAround.lift keeps_acquire fun r => ?_
  cases r with
  | error e => exact rfl
  | ok session =>
    have hsession : KeepsAround .versioned listed held work.hoist ((coordinated setup).onSession session) { } := by
      refine KeepsAround.lift keeps_settleUnfinished fun r => ?_
      cases r with
      | error e => exact rfl
      | ok =>
        refine KeepsAround.lift (Keeps.coordinator (.begin session)) fun r => ?_
        cases r with
        | error e => exact rfl
        | ok tx => exact keeps_inTransaction
    refine Performs.bind (hsession.mono ?_)
    rintro _ ending progress rfl
    exact KeepsAround.lift (keeps_release _) fun _ => rfl

end Coordinated

/-! ### Over a relational database -/

section Native

variable {session : Nat} {work : Work Id α}

theorem keeps_perform {c : RelationalCall} (hsession : c.session? = some session)
    (hc : DatabaseProper listed c) : Keeps kind listed (some session) (database.perform c).run :=
  (behaves_perform hsession hc).mono fun _ _ => trivial

theorem keeps_rollback (event : StoreError → Event) :
    Keeps kind listed (some session) (native.rollback session event) := by
  refine Keeps.bind (keeps_perform rfl (databaseProper_of_plain trivial)) fun r => ?_
  cases r <;> exact Keeps.pure

theorem keeps_nativeCommit : Keeps kind listed (some session) (native.commit session) := by
  refine Keeps.bind (keeps_perform rfl (databaseProper_of_plain trivial)) fun r => ?_
  cases r with
  | ok => exact Keeps.pure
  | error e =>
    have hopen : Keeps kind listed (some session) (native.db.inTransaction session) :=
      Behaves.elsewhere fun _ => trivial
    refine Keeps.bind (Keeps.report _) fun _ => Keeps.bind hopen fun isOpen => ?_
    cases isOpen with
    | false => exact Keeps.pure
    | true => exact Keeps.bind (keeps_rollback _) fun _ => Keeps.pure

theorem keeps_onConnection (hreserved : listed Catalog.catalogTable = none) :
    KeepsAround .relational listed (some session) work.hoist (native.onConnection session) { } := by
  refine KeepsAround.lift (keeps_perform rfl (databaseProper_of_plain trivial)) fun r => ?_
  cases r with
  | error e => exact rfl
  | ok =>
    refine Performs.bind (Performs.invoke (Follows.mono
      (behaves_work (fun call t => (behaves_native hreserved · call)) .empty) ?_))
    rintro _ ⟨ended, opened⟩ ⟨rfl, -⟩
    cases ended with
    | ok a => exact KeepsAround.lifted keeps_nativeCommit
    | error failure => exact KeepsAround.lift (keeps_rollback _) fun _ => rfl

/-- What a runner over a relational database does around a unit of work is nothing but moves; in the end its
connection is closed. -/
theorem keeps_native (hreserved : listed Catalog.catalogTable = none) :
    KeepsAround .relational listed none work.hoist native.execution { } := by
  have hconnect : Follows (Move listed) (Told .relational listed)
      (fun held r => (∃ session, r = .ok session ∧ held = some session) ∨ ∃ e, r = .error e ∧ held = none)
      none (database.perform .connect).run := by
    refine Follows.ask fun r _ => ?_
    cases r with
    | ok session => exact ⟨_, .connect session, .inl ⟨session, rfl, rfl⟩⟩
    | error e => exact ⟨_, .turnedAway e, .inr ⟨e, rfl, rfl⟩⟩
  refine Performs.lift (hconnect.mono ?_)
  rintro _ _ (⟨session, rfl, rfl⟩ | ⟨e, rfl, rfl⟩)
  · refine Performs.bind ((keeps_onConnection hreserved).mono ?_)
    rintro _ r progress rfl
    exact Follows.ask fun _ _ => ⟨none, .close session, rfl⟩
  · exact rfl

end Native

/-! ### Tasks -/

section Tasks

variable {setup : Setup} {table : String}

theorem looks_schemaOf : Looks setup.kind listed none table (setup.engine.definition.schemaOf table) := by
  obtain ⟨storage, settings, strategy⟩ := setup
  cases storage with
  | versioned => exact looks_keyedCatalog
  | relational => exact looks_tabledCatalog

/-- What an engine does is nothing but moves if others may be at work meanwhile. -/
theorem keeps_task {task : Task α} (hreserved : ∀ table, Reserved setup.kind table → listed table = none)
    (htask : ¬ task.Alone) : Keeps setup.kind listed none (task.program setup) := by
  have hlooks : ∀ table, Keeps setup.kind listed none (setup.engine.definition.schemaOf table).run :=
    fun table => looks_schemaOf.mono fun _ _ => trivial
  cases task with
  | prepare => exact absurd trivial htask
  | ask request =>
    cases request with
    | createTable schema => exact absurd trivial htask
    | dropTable table => exact absurd trivial htask
    | schemaOf table => exact Keeps.andThen (hlooks table) fun _ => Keeps.pure
    | isDefined table =>
      refine Keeps.andThen (Keeps.outcome (hlooks table) fun r => ?_) fun _ => Keeps.pure
      cases r with
      | ok schema => exact Keeps.pure
      | error e => cases e <;> exact Keeps.pure
    | run work =>
      refine Keeps.andThen ?_ fun _ => Keeps.pure
      obtain ⟨storage, settings, strategy⟩ := setup
      cases storage with
      | versioned => exact KeepsAround.run keeps_coordinated
      | relational => exact KeepsAround.run (keeps_native (hreserved _ rfl))

end Tasks

end Tabular.Provider
