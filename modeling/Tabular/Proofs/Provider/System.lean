import Mathlib.Logic.Function.Basic
import Mathlib.Logic.Relation
import Tabular.Proofs.Definition.Backends
import Tabular.Proofs.Engine.Reference
import Tabular.Proofs.Interaction.Throughout

/-!
# Tabular.Proofs.Provider.System — one engine, used by many

`engine` is an engine of either family whose collaborators only ask: what it does about a request is the tree
of all it may ask for.  In a `System` any number of users run units of work on it and look for tables, in
steps that come in any order; tables are created and dropped while nobody else is at work.  The backends fail
whenever they like.
-/

namespace Tabular.Provider

open Definition (BackendCall Backends)

/-- What an engine asks, besides for the content of the cache of its catalog. -/
inductive Call where
  | backend (c : BackendCall)
  | coordinator (c : CoordinatorCall)
  | unfinished (change : List Unfinished → List Unfinished)
  | pool (change : Pool Nat → Pool Nat)
  | threads (change : ThreadSessions → ThreadSessions)
  | thread

/-- What is answered. -/
abbrev Call.Reply : Call → Type
  | backend c => c.Reply
  | coordinator c => Except StoreError c.Answer
  | unfinished _ => List Unfinished
  | pool _ => Pool Nat
  | threads _ => ThreadSessions
  | thread => Nat

/-- A computation of an engine. -/
abbrev Program : Type → Type 1 := Sharing.Program LookupCache Call.Reply

/-- A step of a computation. -/
abbrev Step : Type 1 := Sharing.Step LookupCache Call.Reply

/-- The cache of the catalog, and the backends. -/
abbrev Place := Sharing.Place LookupCache Backends

/-! ### The engine -/

def store : VersionedAccess Program := fun c => ExceptT.mk (Sharing.call (Call.backend (.store c)))

def database : RelationalAccess Program where
  perform c := ExceptT.mk (Sharing.call (Call.backend (.perform c)))
  close session := Sharing.call (Call.backend (.close session))
  inTransaction session := Sharing.call (Call.backend (.inTransaction session))
  describe := Sharing.call (Call.backend .describe)

def coordinator : CoordinatorAccess Program := fun c => ExceptT.mk (Sharing.call (Call.coordinator c))

def cells : EngineCells Program where
  cache := Sharing.cell
  unfinished := ⟨fun change => Sharing.call (Call.unfinished change)⟩
  pool := ⟨fun change => Sharing.call (Call.pool change)⟩
  threads := ⟨fun change => Sharing.call (Call.threads change)⟩

/-- The thread that runs. -/
def thread : Program Nat := Sharing.call Call.thread

/-- How an engine is set up: its family, and how it finds sessions of the coordinator. -/
structure Setup where
  kind : StorageKind
  settings : Settings
  strategy : SessionStrategy

namespace Setup

variable (setup : Setup)

def wiring : Wiring Program :=
  match setup.kind with
  | .versioned => .versioned setup.strategy coordinator store
  | .relational => .relational database

def engine : Engine Program := setup.wiring.engine setup.settings cells thread

end Setup

/-- The catalog of a versioned engine. -/
def keyedCatalog : Catalog Program := (Catalog.keyed store).cached cells.cache

/-- The catalog of a relational engine. -/
def tabledCatalog : Catalog Program := (Catalog.tabled database).cached cells.cache

/-- The runner of a versioned engine. -/
def coordinated (setup : Setup) : Coordinated Program where
  sessions := .ofStrategy setup.strategy coordinator cells setup.settings.sessionWaitMs thread
  coordinator := coordinator
  store := store
  catalog := keyedCatalog
  unfinished := cells.unfinished

/-- The runner of a relational engine. -/
def native : Native Program := ⟨database, tabledCatalog⟩

/-! ### Tasks -/

/-- What is done with an engine: it is prepared, and then it is asked. -/
inductive Task (α : Type) where
  | prepare
  | ask (request : Engine.Request α)

/-- Whether a task is one for times when nobody else is at work: a unit of work and a look for a table are not. -/
def Task.Alone {α : Type} : Task α → Prop
  | prepare | ask (.createTable _) | ask (.dropTable _) => True
  | ask (.schemaOf _) | ask (.isDefined _) | ask (.run _) => False

/-- What the engine does about a task. -/
def Task.program {α : Type} (setup : Setup) : Task α → Program (Except StoreError (Engine.Answer α))
  | prepare => ((fun _ => .done) <$> setup.wiring.start).run
  | ask request => (setup.engine.answer request).run

/-! ### The system -/

/-- The backends from when on commits to the database fail, or do not. -/
def failing (b : Backends) (fail : Bool) : Backends :=
  { b with database := { b.database with failCommits := fail } }

/-- What may become of a call.  A backend does what it is asked, or fails without effect; at any time commits
may begin to fail or cease to.  Of coordinators, sessions and threads nothing is known. -/
def Answers (b : Backends) : (c : Call) → c.Reply → Backends → Prop
  | .backend c, r, b' => ∃ fail, (failing b fail).Answers c r b'
  | _, _, b' => b' = b

/-- A task that is under way, with the steps that were taken, the latest first, and what is left of it. -/
structure Running (α : Type) where
  task : Task α
  steps : List Step
  program : Program (Except StoreError (Engine.Answer α))

/-- An engine with its backends, and what its users are in the middle of. -/
structure System (ι α : Type) where
  place : Place
  busy : ι → Option (Running α)

namespace System

variable {ι α : Type} [DecidableEq ι]

/-- The system before anything has happened. -/
def start (url : String) (connectionLimit waitMs : Nat) : System ι α where
  place := ⟨∅, { }, .empty url connectionLimit waitMs⟩
  busy := fun _ => none

/-- Whether a user may begin with a task: nobody else is at work if one of them is to be alone. -/
def Admits (s : System ι α) (task : Task α) : Prop :=
  ∀ j other, s.busy j = some other → ¬ task.Alone ∧ ¬ other.task.Alone

/-- What may happen next. -/
inductive Next (setup : Setup) (s : System ι α) : System ι α → Prop where
  | begin (i : ι) (task : Task α) (hfree : s.busy i = none) (hadmits : s.Admits task) :
    Next setup s { s with busy := Function.update s.busy i (some ⟨task, [], task.program setup⟩) }
  | step (i : ι) {r : Running α} {step : Step} {p : Program (Except StoreError (Engine.Answer α))} {w : Place}
    (hbusy : s.busy i = some r) (htakes : r.program.Takes step p)
    (hmeets : Sharing.Meets Answers s.place step w) :
    Next setup s ⟨w, Function.update s.busy i (some ⟨r.task, step :: r.steps, p⟩)⟩
  | finish (i : ι) {r : Running α} {a : Except StoreError (Engine.Answer α)} (hbusy : s.busy i = some r)
    (hdone : r.program = .done a) :
    Next setup s { s with busy := Function.update s.busy i none }

/-- Whether a system may come to be as another in the course of time. -/
abbrev Reaches (setup : Setup) : System ι α → System ι α → Prop := Relation.ReflTransGen (Next setup)

/-! ### Runs, step by step -/

section Runs

variable {P : System ι α → Prop} {i : ι} {w w' : Place} {busy : ι → Option (Running α)} {task : Task α}
  {steps : List Step} {p : Program (Except StoreError (Engine.Answer α))} {cache : LookupCache} {b b' : Backends}
  {setup : Setup}

/-- Somebody begins on the way to a system of a kind. -/
theorem exists_reaches_of_begin (i : ι) (task : Task α) (hfree : busy i = none)
    (hadmits : (⟨w, busy⟩ : System ι α).Admits task)
    (h : ∃ t, Reaches setup ⟨w, Function.update busy i (some ⟨task, [], task.program setup⟩)⟩ t ∧ P t) :
    ∃ t, Reaches setup ⟨w, busy⟩ t ∧ P t := by
  obtain ⟨t, hst, ht⟩ := h
  exact ⟨t, .head (.begin i task hfree hadmits) hst, ht⟩

/-- Somebody asks and is answered on the way to a system of a kind. -/
theorem exists_reaches_of_ask (request : Sharing.Request LookupCache Call) (answer : request.Answer Call.Reply)
    {next : request.Answer Call.Reply → Program (Except StoreError (Engine.Answer α))} (hp : p = .ask request next)
    (hmeets : Sharing.Meets Answers w (.asked request answer) w')
    (h : ∃ t, Reaches setup
      ⟨w', Function.update busy i (some ⟨task, .asked request answer :: steps, next answer⟩)⟩ t ∧ P t) :
    ∃ t, Reaches setup ⟨w, Function.update busy i (some ⟨task, steps, p⟩)⟩ t ∧ P t := by
  obtain ⟨t, hst, ht⟩ := h
  subst hp
  refine ⟨t, .head (.step i (Function.update_self ..) (.asked request next answer) hmeets) ?_, ht⟩
  rwa [Function.update_idem]

/-- Somebody is done on the way to a system of a kind. -/
theorem exists_reaches_of_finish {a : Except StoreError (Engine.Answer α)} (hdone : p = .done a)
    (h : ∃ t, Reaches setup ⟨w, Function.update busy i none⟩ t ∧ P t) :
    ∃ t, Reaches setup ⟨w, Function.update busy i (some ⟨task, steps, p⟩)⟩ t ∧ P t := by
  obtain ⟨t, hst, ht⟩ := h
  refine ⟨t, .head (.finish i (Function.update_self ..) hdone) ?_, ht⟩
  rwa [Function.update_idem]

theorem meets_update (change : LookupCache → LookupCache) :
    Sharing.Meets Answers ⟨cache, b⟩ (.asked (.update change) cache) ⟨change cache, b⟩ := .update change

theorem meets_call {c : Call} {r : c.Reply} (h : Answers b c r b') :
    Sharing.Meets Answers ⟨cache, b⟩ (.asked (.call c) r) ⟨cache, b'⟩ := .call h

/-- A versioned store does what it is asked. -/
theorem meets_store {store store' : VersionedStore} {db : Database} {c : VersionedCall} {a : c.Answer}
    (h : store.perform c = .ok (a, store')) :
    Sharing.Meets Answers ⟨cache, store, db⟩ (.asked (.call (.backend (.store c))) (.ok a)) ⟨cache, store', db⟩ := by
  refine meets_call ⟨db.failCommits, .inr ?_⟩
  simp [failing, h]

end Runs

end System

end Tabular.Provider
