import Tabular.Bench.Site

/-!
# Tabular.Bench.Script — scenarios for a whole store

A scenario is a list of steps on the engines of a process.  Steps may define tables, use the catalog, run
units of work, whose steps are steps again, and interfere with the collaborators behind the engines'
backs.  `Step.work` says what a step does as part of a unit of work.
-/

namespace Tabular.Bench

/-- What a step does besides running a unit of work. -/
inductive Action where
  | createTable (schema : TableSchema)
  | dropTable (table : String)
  | getSchema (table : String)
  | isDefined (table : String)
  | tableNames
  | find (table : String)
  | register (schema : TableSchema)
  | remove (table : String)
  /-- The families of the engine and its parts. -/
  | kinds
  /-- Builds one more engine over the same collaborators. -/
  | newEngine
  /-- Creates storage without an entry in the catalog. -/
  | createStorage (schema : TableSchema)
  /-- Drops storage without touching the catalog. -/
  | dropStorage (table : String)
  /-- How much is stored in a table. -/
  | stored (table : String)
  /-- Puts a document into the catalog, or an entry without a document. -/
  | putDocument (table : String) (document : Option String)
  | setAvailable (available : Bool)
  | failCommits (fail : Bool)
  | plan (name : String) (fault : Fault)
  | clearFaults
  /-- Takes the noted calls out. -/
  | takeCalls
  /-- Operates on a table of the transaction. -/
  | table (call : TableCall)
  | fail (e : StoreError)
  | panic (text : Option String)

/-- A step of a scenario, for the engine of an index.  A tolerated step does not end a unit of work. -/
inductive Step where
  | plain (engine : Nat) (tolerated : Bool) (action : Action)
  | run (engine : Nat) (tolerated : Bool) (ownThread : Bool) (work : List Step)

/-- Whether a failure of a step is tolerated. -/
def Step.isTolerated : Step → Bool
  | plain _ tolerated _ => tolerated
  | run _ tolerated _ _ => tolerated

/-- What the steps of a scenario work with. -/
structure Stage where
  settings : Settings
  wiring : Wiring SiteM
  /-- What is reported when an engine is built. -/
  startEvents : List Event
  /-- Whether units of work run on a runner of their own instead of that of an engine. -/
  loneRunner : Bool := false

namespace Stage

def engine (b : Stage) (index : Nat) : Engine SiteM :=
  b.wiring.engine b.settings (.ofCell (Site.engineCell index)) Site.currentThread

/-- Builds one more engine. -/
def addEngine (b : Stage) : Attempt SiteM Unit := do
  reportAll b.startEvents
  b.wiring.start
  let _ ← Site.addEngine b.settings

/-- A runner that uses the catalog of the first engine and has its own sessions. -/
def ownRunner (b : Stage) : Runner SiteM :=
  match b.wiring with
  | .versioned strategy coordinator store =>
    let cells := EngineCells.ofCell Site.loneCell
    let sessions :=
      SessionSource.ofStrategy strategy coordinator cells b.settings.sessionWaitMs Site.currentThread
    let coordinated : Coordinated SiteM :=
      { sessions, coordinator, store, catalog := (b.engine 0).catalog, unfinished := cells.unfinished }
    coordinated.runner
  | .relational _ => (b.engine 0).runner

/-- The runner for the engine of an index. -/
def runner (b : Stage) (index : Nat) : Runner SiteM :=
  if b.loneRunner then b.ownRunner else (b.engine index).runner

/-! ### Behind the engines' backs -/

/-- Puts an entry into the catalog of a versioned store and answers whether it was new. -/
def putEntry (table document : String) : Attempt SiteM Answer := do
  return .truth (← Site.store (.metadataAdd (Catalog.entryKey table) document))

/-- Puts a row into the catalog of a relational database. -/
def putRow (table : String) (document : Option String) : Attempt SiteM Answer :=
  Site.database.withConnection fun session => do
    let cells := document.toList.map fun text => (Catalog.documentColumn, Value.string text)
    let row := Row.ofCells ((Catalog.nameColumn, .string table) :: cells)
    Site.database.perform (.upsert session Catalog.catalogSchema row)
    return .nothing

/-- What is in a table, as a number of cells or rows. -/
def storedCount (kind : StorageKind) (table : String) : Attempt SiteM Answer := do
  let site : Site ← get
  Attempt.of <| .number <$> match kind with
    | .versioned => site.embedded.store.cellCount table
    | .relational => site.embedded.database.rowCount table

/-- Creates or drops storage directly. -/
def alterStorage (kind : StorageKind) (versioned : Attempt SiteM Unit)
    (relational : Nat → Attempt SiteM Unit) : Attempt SiteM Answer := do
  match kind with
  | .versioned => versioned
  | .relational => Site.database.withConnection relational
  return .nothing

/-! ### Steps -/

/-- The answer to something that answers nothing. -/
def silent (x : Attempt SiteM Unit) : Attempt SiteM Answer := do
  x
  return .nothing

/-- What an action that is not about a transaction does. -/
def act (b : Stage) (index : Nat) : Action → Attempt SiteM Answer
  | .createTable schema => silent ((b.engine index).definition.createTable schema)
  | .dropTable table => silent ((b.engine index).definition.dropTable table)
  | .getSchema table => return .text (← (b.engine index).definition.schemaOf table).document
  | .isDefined table => return .truth (← (b.engine index).definition.isDefined table)
  | .tableNames => return .texts (← (b.engine index).catalog.tableNames)
  | .find table => return .text (← (b.engine index).catalog.find table).document
  | .register schema => silent ((b.engine index).catalog.register schema)
  | .remove table => silent ((b.engine index).catalog.remove table)
  | .kinds =>
    let e := b.engine index
    return .texts ([e.kind, e.runner.kind, e.definition.kind, e.catalog.kind].map StorageKind.name)
  | .newEngine => silent b.addEngine
  | .createStorage schema =>
    alterStorage (b.engine index).kind (Site.store (.createTable schema.name))
      fun session => Site.database.perform (.createTable session schema)
  | .dropStorage table =>
    alterStorage (b.engine index).kind (Site.store (.dropTable table))
      fun session => Site.database.perform (.dropTable session table)
  | .stored table => storedCount (b.engine index).kind table
  | .putDocument table document =>
    match (b.engine index).kind with
    | .versioned => putEntry table (document.getD "")
    | .relational => putRow table document
  | .setAvailable available => silent <|
    Site.modifyEmbedded fun e => { e with coordinator := e.coordinator.setAvailable available }
  | .failCommits failCommits => silent <|
    Site.modifyEmbedded fun e => { e with database := { e.database with failCommits } }
  | .plan name fault => silent <|
    modify fun s : Site =>
      { s with recorder := { s.recorder with faults := s.recorder.faults.insert name fault } }
  | .clearFaults => silent <|
    modify fun s : Site => { s with recorder := { s.recorder with faults := ∅ } }
  | .takeCalls => return .texts (← Site.drainCalls)
  | .table _ => return .nothing
  | .fail e => throw e
  | .panic _ => return .nothing

/-- The answer to an operation on a table. -/
def tableAnswer : (call : TableCall) → call.Answer → Answer
  | .visit _, _ => .nothing
  | .schema _, schema => .text (TableSchema.document schema)
  | .upsert _ _, _ => .nothing
  | .read _ _, row => .row row
  | .delete _ _, _ => .nothing
  | .scan _, rows => .rows rows

/-- Something outside the transaction as a unit of work. -/
def outside (x : Attempt SiteM Answer) : Work SiteM Answer :=
  .act x.run fun reply => .done (reply.mapError .error)

/-- Runs a unit of work and collects what its steps answer. -/
def runWork (runner : Runner SiteM) (ownThread : Bool) (length : Nat) (work : Work SiteM Unit) :
    SiteM Answer := do
  let execute := Site.collectAnswers (runner.execution.run work).run
  let (result, steps) ← if ownThread then Site.onNewThread execute else execute
  return .run steps (result.map fun () => length)

/-- Keeps the answer of a step and goes on, or ends with its failure. -/
def continueWith (tolerated : Bool) (next : Work SiteM Unit) :
    Except Failure Answer → Work SiteM Unit
  | .ok answer => .act (Site.keepAnswer (.ok answer)) fun _ => next
  | .error (.error e) =>
    .act (Site.keepAnswer (.error e)) fun _ => if tolerated then next else Work.fail (.error e)
  | .error (.panic text) => Work.fail (.panic text)

mutual

/-- What a step does as part of a unit of work. -/
def stepWork (b : Stage) : Step → Work SiteM Answer
  | .plain _ _ (.table call) => (Work.call call).andThen fun answer => .done (.ok (tableAnswer call answer))
  | .plain _ _ (.panic text) => Work.fail (.panic text)
  | .plain index _ action => outside (b.act index action)
  | .run index _ ownThread steps =>
    outside (ExceptT.lift (runWork (b.runner index) ownThread steps.length (stepsWork b steps)))

/-- The unit of work that does steps in turn. -/
def stepsWork (b : Stage) : List Step → Work SiteM Unit
  | [] => .done (.ok ())
  | step :: rest =>
    Interaction.bind (continueWith step.isTolerated (stepsWork b rest)) (stepWork b step)

end

/-- What a step outside any unit of work answers. -/
def reply (b : Stage) (step : Step) : SiteM Reply := do
  let (result, _) ← ((stepWork b step).perform Tables.none).run ()
  return match result with
    | .ok answer => .ok answer
    | .error (.error e) => .error e
    | .error (.panic text) => .error (.workPanicked (text.getD ""))

end Stage

end Tabular.Bench
