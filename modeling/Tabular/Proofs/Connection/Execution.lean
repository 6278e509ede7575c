import Tabular.Proofs.Connection.System

/-!
# Tabular.Proofs.Connection.Execution — an execution moves through phases

A `Phase` says how far an execution on a connection has come, `Move` lists every step that it may take in
a phase and the phase after it.  Main statements: `uses_perform`, a unit of work does nothing but use its
own connection, and `obeys_executing`, an execution makes nothing but moves, whatever it is answered.
-/

namespace Tabular.Connection

open Execution (Performs)
open Interaction (Follows Runs Leads)

variable {α : Type} {cached : Bool} {work : Work Id α} {session : Nat}

/-! ### The unit of work -/

/-- The steps that read and change rows on a connection, and those that look into the cache. -/
def Uses (session : Nat) : Step → Prop
  | .asked (.perform (.upsert s _ _)) _ => s = session
  | .asked (.perform (.read s _ _)) _ => s = session
  | .asked (.perform (.delete s _ _)) _ => s = session
  | .asked (.perform (.scan s _)) _ => s = session
  | .asked (.cache _) _ => True
  | _ => False

section Uses

variable {β : Type} {opened : OpenedSchemas}

/-- Whether every step of a program uses the connection. -/
abbrev UsesOnly (session : Nat) (p : Program β) : Prop :=
  Follows (fun (_ : Unit) step _ => Uses session step) (fun _ => True) (fun _ _ => True) () p

/-- Whether every step of an attempt beside the opened schemas uses the connection. -/
abbrev RunsOnly (session : Nat) (x : Attempt (StateT OpenedSchemas Program) β) (opened : OpenedSchemas) :
    Prop :=
  Runs (fun (_ : Unit) step _ => Uses session step) (fun _ => True) (fun _ _ _ => True) () x opened

theorem uses_call {call : RelationalCall} (h : ∀ answer, Uses session (.asked (.perform call) answer)) :
    UsesOnly session (asked.perform call).run :=
  Follows.ask fun answer _ => ⟨(), h answer, trivial⟩

theorem uses_findOn (table : String) : UsesOnly session (Catalog.findOn asked session table).run := by
  have hrow : UsesOnly session (Catalog.rowOn asked session table).run :=
    Follows.mapError (uses_call fun answer => (rfl : session = session)) fun _ _ _ => trivial
  refine hrow.andThen (fun _ row _ => ?_) fun _ _ _ => trivial
  cases row <;> trivial

theorem uses_cache (change : LookupCache → LookupCache) :
    UsesOnly session (Interaction.request (Request.cache change)) :=
  Follows.ask fun _ _ => ⟨(), trivial, trivial⟩

/-- The schema of a table is looked up on the connection, also behind a cache. -/
theorem uses_findWith (cached : Bool) (table : String) :
    UsesOnly session ((catalog cached).findWith table (Catalog.findOn asked session table)).run := by
  cases cached with
  | false => exact uses_findOn table
  | true =>
    refine Follows.lift (uses_cache (·.withSlot table)) fun _ before _ => ?_
    cases before.known? table with
    | some lookup => cases lookup <;> trivial
    | none =>
      refine Follows.outcome (uses_findOn table) fun _ result _ => ?_
      have hsettle : UsesOnly session
          ((fun _ => ()) <$> (Interaction.request (Request.cache (·.settle table result)) : Program _)) :=
        Follows.bind (uses_cache _) fun _ _ _ => trivial
      exact Follows.lift hsettle fun _ _ _ => trivial

theorem uses_schemaOf (table : String) : RunsOnly session ((native cached).schemaOf session table) opened := by
  refine Runs.get ?_
  cases opened[table]? with
  | some schema => trivial
  | none =>
    have hfind : RunsOnly session
        ((native cached).catalog.findWith table (Catalog.findOn asked session table)).lifted opened :=
      Runs.lifted (uses_findWith cached table)
    refine hfind.andThen (fun _ schema opened _ => ?_) fun _ _ _ _ => trivial
    trivial

theorem uses_attempt (call : TableCall) : RunsOnly session ((native cached).attempt session call) opened := by
  have hcall : ∀ {call : RelationalCall} {opened : OpenedSchemas},
      (∀ answer, Uses session (.asked (.perform call) answer)) →
        RunsOnly session (asked.perform call).lifted opened :=
    fun h => Runs.lifted (uses_call h)
  cases call with
  | visit table => exact (uses_schemaOf table).andThen (fun _ _ _ _ => trivial) fun _ _ _ _ => trivial
  | schema table => exact uses_schemaOf table
  | upsert table row =>
    refine (uses_schemaOf table).andThen (fun _ schema opened _ => ?_) fun _ _ _ _ => trivial
    refine Runs.of_bind (fun key _ => ?_) fun _ _ => trivial
    have hread : RunsOnly session (asked.perform (.read session schema key)).lifted opened :=
      hcall fun _ => rfl
    refine hread.andThen (fun _ existing opened _ => ?_) fun _ _ _ _ => trivial
    refine Runs.of_bind (fun merged _ => ?_) fun _ _ => trivial
    exact hcall fun _ => rfl
  | read table key =>
    refine (uses_schemaOf table).andThen (fun _ schema opened _ => ?_) fun _ _ _ _ => trivial
    refine Runs.of_bind (fun key _ => ?_) fun _ _ => trivial
    exact hcall fun _ => rfl
  | delete table key =>
    refine (uses_schemaOf table).andThen (fun _ schema opened _ => ?_) fun _ _ _ _ => trivial
    refine Runs.of_bind (fun key _ => ?_) fun _ _ => trivial
    exact hcall fun _ => rfl
  | scan table =>
    refine (uses_schemaOf table).andThen (fun _ schema opened _ => ?_) fun _ _ _ _ => trivial
    exact hcall fun _ => rfl

/-- A unit of work does nothing but use its own connection. -/
theorem uses_perform (work : Work Id α) :
    UsesOnly session ((Work.perform ((native cached).tables session) work.hoist).run opened) := by
  induction work generalizing opened with
  | done r => trivial
  | act x next ih => exact ih x
  | ask call next ih =>
    exact Follows.bind (p := ((native cached).attempt session call).run opened) (uses_attempt call)
      fun _ r _ => ih r.1

end Uses

/-! ### Phases -/

/-- What has become of the transaction of an execution. -/
inductive Fate where
  /-- It could not be begun. -/
  | unbegun (e : StoreError)
  /-- The unit of work failed. -/
  | failed (failure : Failure)
  /-- The commit was refused. -/
  | refused (e : StoreError)
  | committed

/-- How far an execution has come. -/
inductive Phase where
  | idle
  /-- There was no connection for it. -/
  | turnedAway (e : StoreError)
  | connected (session : Nat)
  /-- The unit of work runs and has taken the given steps, the latest first. -/
  | working (session : Nat) (steps : List Step)
  /-- The transaction is over, and the connection is still to be closed. -/
  | ended (session : Nat) (steps : List Step) (fate : Fate)
  | closed (session : Nat) (steps : List Step) (fate : Fate)

/-- The steps by which an execution makes sure that no transaction is open. -/
def Tidies (session : Nat) : Step → Prop
  | .asked (.inTransaction s) _ => s = session
  | .asked (.perform (.rollback s)) _ => s = session
  | _ => False

/-- Whether a unit of work ends so on a connection after the given steps. -/
def Works (cached : Bool) (work : Work Id α) (session : Nat) (steps : List Step) (r : Except Failure α) :
    Prop :=
  ∃ opened, (working cached work session).Leads steps (.done (r, opened))

/-- The steps that an execution of a unit of work may take in a phase, and the phase after each. -/
inductive Move (cached : Bool) (work : Work Id α) : Phase → Step → Phase → Prop where
  | connect (session : Nat) :
    Move cached work .idle (.asked (.perform .connect) (.ok session)) (.connected session)
  | turnedAway (e : StoreError) :
    Move cached work .idle (.asked (.perform .connect) (.error e)) (.turnedAway e)
  | begin (session : Nat) :
    Move cached work (.connected session) (.asked (.perform (.begin session)) (.ok ()))
      (.working session [])
  | beginFails (session : Nat) (e : StoreError) :
    Move cached work (.connected session) (.asked (.perform (.begin session)) (.error e))
      (.ended session [] (.unbegun e))
  | use {session : Nat} {steps : List Step} {step : Step} (h : Uses session step) :
    Move cached work (.working session steps) step (.working session (step :: steps))
  | commit {session : Nat} {steps : List Step} {a : α} (h : Works cached work session steps (.ok a)) :
    Move cached work (.working session steps) (.asked (.perform (.commit session)) (.ok ()))
      (.ended session steps .committed)
  | commitFails {session : Nat} {steps : List Step} {a : α} (h : Works cached work session steps (.ok a))
    (e : StoreError) :
    Move cached work (.working session steps) (.asked (.perform (.commit session)) (.error e))
      (.ended session steps (.refused e))
  | rollback {session : Nat} {steps : List Step} {failure : Failure}
    (h : Works cached work session steps (.error failure)) (answer : Except StoreError Unit) :
    Move cached work (.working session steps) (.asked (.perform (.rollback session)) answer)
      (.ended session steps (.failed failure))
  | tidy {session : Nat} {steps : List Step} {fate : Fate} {step : Step} (h : Tidies session step) :
    Move cached work (.ended session steps fate) step (.ended session steps fate)
  | close (session : Nat) (steps : List Step) (fate : Fate) :
    Move cached work (.ended session steps fate) (.asked (.close session) ())
      (.closed session steps fate)

/-- Whether an execution with this fate of its transaction may answer so. -/
def Fate.Answers (cached : Bool) (work : Work Id α) (session : Nat) (steps : List Step) :
    Fate → Except StoreError α → Prop
  | unbegun e, r => r = .error (Native.intoAborted e)
  | failed failure, r => r = .error failure.reported ∧ Works cached work session steps (.error failure)
  | refused e, r => r = .error (Native.intoAborted e) ∧ ∃ a, Works cached work session steps (.ok a)
  | committed, r => ∃ a, r = .ok a ∧ Works cached work session steps (.ok a)

/-- Whether an execution may end so in a phase. -/
def Phase.Final (cached : Bool) (work : Work Id α) : Phase → Except StoreError α → Prop
  | turnedAway e, r => r = .error (Native.intoAborted e)
  | closed session steps fate, r => fate.Answers cached work session steps r
  | _, _ => False

/-! ### The execution -/

/-- Whether a program, from a phase on, makes nothing but moves, and `post` holds in the end. -/
abbrev Obeys {β : Type} (cached : Bool) (work : Work Id α) (post : Phase → β → Prop) (φ : Phase)
    (p : Program β) : Prop :=
  Follows (Move cached work) (fun _ => True) post φ p

/-- Whether a runner, from a phase on, makes nothing but moves around the unit of work. -/
abbrev ObeysAround {β : Type} (cached : Bool) (work : Work Id α) (post : Phase → β → Progress α → Prop)
    (φ : Phase) (x : ExecutionM Program β) (progress : Progress α) : Prop :=
  Performs (Follows (Move cached work) fun _ => True) work.hoist post φ x progress

variable {steps : List Step}

/-- The steps of a unit of work are moves, and it is known where they have led. -/
theorem obeys_working {p : Program (Except Failure α × OpenedSchemas)}
    (h : (working cached work session).Leads steps p) (huses : UsesOnly session p) :
    Obeys cached work
      (fun φ r => ∃ steps, φ = .working session steps ∧ Works cached work session steps r.1)
      (.working session steps) p := by
  induction p generalizing steps with
  | done r => exact ⟨steps, rfl, r.2, h⟩
  | act x next ih =>
    intro outcome _
    obtain ⟨_, hstep, hnext⟩ := huses outcome trivial
    exact ⟨_, .use hstep, ih outcome (h.step (.met x next outcome)) hnext⟩
  | ask request next ih =>
    intro answer _
    obtain ⟨_, hstep, hnext⟩ := huses answer trivial
    exact ⟨_, .use hstep, ih answer (h.step (.asked request next answer)) hnext⟩

theorem obeys_rollback {failure : Failure} (event : StoreError → Event)
    (h : Works cached work session steps (.error failure)) :
    Obeys cached work (fun φ _ => φ = .ended session steps (.failed failure)) (.working session steps)
      ((native cached).rollback session event) := by
  refine Follows.ask fun answer _ => ⟨_, .rollback h answer, ?_⟩
  cases answer <;> exact rfl

/-- The commit ends the transaction; if it is refused, a transaction that is left is forgotten. -/
theorem obeys_commit {a : α} (h : Works cached work session steps (.ok a)) :
    Obeys cached work
      (fun φ r => (r = .ok () ∧ φ = .ended session steps .committed) ∨
        ∃ e, r = .error (Native.intoAborted e) ∧ φ = .ended session steps (.refused e))
      (.working session steps) ((native cached).commit session) := by
  refine Follows.ask fun answer _ => ?_
  cases answer with
  | ok u => exact ⟨_, .commit h, .inl ⟨rfl, rfl⟩⟩
  | error e =>
    refine ⟨_, .commitFails h e, ?_⟩
    refine Follows.ask fun isOpen _ => ⟨_, .tidy rfl, ?_⟩
    cases isOpen with
    | false => exact .inr ⟨e, rfl, rfl⟩
    | true =>
      refine Follows.ask fun answer _ => ⟨_, .tidy rfl, ?_⟩
      cases answer <;> exact .inr ⟨e, rfl, rfl⟩

/-- Whether the transaction of an execution is over, with a fate that goes with what its runner answers and
with the value of the unit of work. -/
def Over (cached : Bool) (work : Work Id α) (session : Nat) (place : List Step → Fate → Phase) (φ : Phase)
    (r : Except StoreError Unit) (progress : Progress α) : Prop :=
  ∃ steps fate, φ = place steps fate ∧
    ((∃ e, r = .error e ∧ fate.Answers cached work session steps (.error e)) ∨
      ∃ a, r = .ok () ∧ progress.value = some a ∧ fate.Answers cached work session steps (.ok a))

theorem obeys_onConnection :
    ObeysAround cached work (Over cached work session (.ended session)) (.connected session)
      ((native cached).onConnection session) { } := by
  have hbegin : Obeys cached work
      (fun φ r => (∃ e, r = .error e ∧ φ = .ended session [] (.unbegun e)) ∨ r = .ok () ∧ φ = .working session [])
      (.connected session) (asked.perform (.begin session)).run := by
    refine Follows.ask fun answer _ => ?_
    cases answer with
    | error e => exact ⟨_, .beginFails session e, .inl ⟨e, rfl, rfl⟩⟩
    | ok u => exact ⟨_, .begin session, .inr ⟨rfl, rfl⟩⟩
  refine Performs.lift (hbegin.mono ?_)
  rintro φ r (⟨e, rfl, rfl⟩ | ⟨rfl, rfl⟩)
  · exact ⟨[], _, rfl, .inl ⟨_, rfl, rfl⟩⟩
  refine Performs.bind (Performs.invoke ((obeys_working .here (uses_perform work)).mono ?_))
  rintro φ ⟨ended, opened⟩ ⟨steps, rfl, hworks⟩
  cases ended with
  | ok a =>
    refine Performs.lifted ((obeys_commit hworks).mono ?_)
    rintro φ r (⟨rfl, rfl⟩ | ⟨e, rfl, rfl⟩)
    · exact ⟨steps, _, rfl, .inr ⟨a, rfl, rfl, a, rfl, hworks⟩⟩
    · exact ⟨steps, _, rfl, .inl ⟨_, rfl, rfl, a, hworks⟩⟩
  | error failure =>
    refine Performs.lift ((obeys_rollback _ hworks).mono ?_)
    rintro φ _ rfl
    exact ⟨steps, _, rfl, .inl ⟨_, rfl, rfl, hworks⟩⟩

theorem obeys_execution :
    ObeysAround cached work
      (fun φ r progress => (∃ e, r = .error (Native.intoAborted e) ∧ φ = .turnedAway e) ∨
        ∃ session, Over cached work session (.closed session) φ r progress)
      .idle (native cached).execution { } := by
  have hconnect : Obeys cached work
      (fun φ r => (∃ e, r = .error e ∧ φ = .turnedAway e) ∨ ∃ session, r = .ok session ∧ φ = .connected session)
      .idle (asked.perform .connect).run := by
    refine Follows.ask fun answer _ => ?_
    cases answer with
    | error e => exact ⟨_, .turnedAway e, .inl ⟨e, rfl, rfl⟩⟩
    | ok session => exact ⟨_, .connect session, .inr ⟨session, rfl, rfl⟩⟩
  refine Performs.lift (hconnect.mono ?_)
  rintro φ r (⟨e, rfl, rfl⟩ | ⟨session, rfl, rfl⟩)
  · exact .inl ⟨e, rfl, rfl⟩
  · refine Performs.bind (obeys_onConnection.mono ?_)
    rintro φ r progress ⟨steps, fate, rfl, hover⟩
    exact Performs.lift (Follows.ask fun _ _ =>
      ⟨_, .close session steps fate, .inr ⟨session, steps, fate, rfl, hover⟩⟩)

/-- **An execution makes nothing but moves**, and answers what goes with the fate of its transaction. -/
theorem obeys_executing (cached : Bool) (work : Work Id α) :
    Obeys cached work (Phase.Final cached work) .idle (executing cached work) := by
  refine Performs.run (obeys_execution.mono ?_)
  rintro φ r progress (⟨e, rfl, rfl⟩ | ⟨session, steps, fate, rfl, ⟨e, rfl, hfate⟩ | ⟨a, rfl, hvalue, hfate⟩⟩)
  · exact rfl
  · exact hfate
  · rw [hvalue]
    exact hfate

end Tabular.Connection
