import Tabular.Engine.Basic
import Tabular.Proofs.Work.Shelf

/-!
# Tabular.Proofs.Engine.Reference — what an engine should answer

A `Reference` is a store as its users think of it: the schemas of the tables, and the rows of each.  It
answers the same requests as an engine; a unit of work runs on a copy of the rows, which replaces them if it
ends well.
-/

namespace Tabular

/-- The interaction in another monad, for one that does nothing but compute between its requests. -/
def Interaction.hoist {Request : Type w} {Answer : Request → Type} {m : Type → Type u} {α : Type} :
    Interaction Answer Id α → Interaction Answer m α
  | done a => done a
  | act x next => hoist (next x)
  | ask r next => ask r fun b => hoist (next b)

/-- What an engine answers that runs a unit of work which fails so. -/
def Failure.reported : Failure → StoreError
  | error e => e
  | panic text => .workPanicked (text.getD "unknown panic")

namespace Engine

/-- What is asked of an engine from outside. -/
inductive Request (α : Type) where
  | createTable (schema : TableSchema)
  | dropTable (table : String)
  | schemaOf (table : String)
  | isDefined (table : String)
  /-- Runs a unit of work. -/
  | run (work : Work Id α)

/-- What an engine answers to a request that does not fail. -/
inductive Answer (α : Type) where
  | done
  | schema (schema : TableSchema)
  | defined (isDefined : Bool)
  | value (a : α)

/-- Whether a request does not try to create the table that a registry is kept in. -/
def Request.Unreserved {α : Type} : Request α → Prop
  | createTable schema => schema.name ≠ Catalog.catalogTable
  | _ => True

instance {α : Type} (request : Request α) : Decidable request.Unreserved :=
  match request with
  | .createTable schema => inferInstanceAs (Decidable (schema.name ≠ Catalog.catalogTable))
  | .dropTable _ | .schemaOf _ | .isDefined _ | .run _ => inferInstanceAs (Decidable True)

variable {m : Type → Type u} [Monad m] {α : Type}

/-- What an engine does about a request. -/
def answer (engine : Engine m) : Request α → Attempt m (Answer α)
  | .createTable schema => (fun _ => .done) <$> engine.definition.createTable schema
  | .dropTable table => (fun _ => .done) <$> engine.definition.dropTable table
  | .schemaOf table => .schema <$> engine.definition.schemaOf table
  | .isDefined table => .defined <$> engine.definition.isDefined table
  | .run work => .value <$> engine.runner.execution.run work.hoist

end Engine

/-- A store as its users think of it. -/
structure Reference where
  schemas : Schemas := fun _ => none
  shelf : Shelf := fun _ => ∅

namespace Reference

variable {α : Type}

/-- The store with a new table. -/
def withTable (s : Reference) (schema : TableSchema) : Reference where
  schemas := Function.update s.schemas schema.name (some ⟨schema, rfl⟩)
  shelf := Function.update s.shelf schema.name ∅

def withoutTable (s : Reference) (table : String) : Reference :=
  { s with schemas := Function.update s.schemas table none }

def createTable (s : Reference) (schema : TableSchema) : Except StoreError Unit × Reference :=
  match schema.validate with
  | .error e => (.error e, s)
  | .ok () =>
    if (s.schemas schema.name).isSome then (.error (.tableAlreadyExists schema.name), s)
    else (.ok (), s.withTable schema)

def dropTable (s : Reference) (table : String) : Except StoreError Unit × Reference :=
  if (s.schemas table).isSome then (.ok (), s.withoutTable table)
  else (.error (.tableNotFound table), s)

/-- Runs a unit of work on a copy of the rows, which replaces them if it ends well. -/
def run (s : Reference) (work : Work Id α) : Except StoreError α × Reference :=
  match (work.perform (Shelf.tables s.schemas)).run s.shelf with
  | (.ok a, shelf) => (.ok a, { s with shelf })
  | (.error failure, _) => (.error failure.reported, s)

theorem run_of_ok {s : Reference} {work : Work Id α} {a : α} {shelf : Shelf}
    (h : (work.perform (Shelf.tables s.schemas)).run s.shelf = (.ok a, shelf)) :
    s.run work = (.ok a, { s with shelf }) := by
  rw [run, h]

theorem run_of_error {s : Reference} {work : Work Id α} {failure : Failure} {shelf : Shelf}
    (h : (work.perform (Shelf.tables s.schemas)).run s.shelf = (.error failure, shelf)) :
    s.run work = (.error failure.reported, s) := by
  rw [run, h]

/-- A unit of work creates and drops no table. -/
theorem schemas_run (s : Reference) (work : Work Id α) : (s.run work).2.schemas = s.schemas := by
  rw [run]
  split <;> rfl

/-- The answer to a request, and the store after it. -/
def answer (s : Reference) : Engine.Request α → Except StoreError (Engine.Answer α) × Reference
  | .createTable schema => ((fun _ => .done) <$> (s.createTable schema).1, (s.createTable schema).2)
  | .dropTable table => ((fun _ => .done) <$> (s.dropTable table).1, (s.dropTable table).2)
  | .schemaOf table => (.schema <$> Shelf.schema s.schemas table, s)
  | .isDefined table => (.ok (.defined (s.schemas table).isSome), s)
  | .run work => (.value <$> (s.run work).1, (s.run work).2)

/-- The answers to requests one after another. -/
def answers : Reference → List (Engine.Request α) → List (Except StoreError (Engine.Answer α))
  | _, [] => []
  | s, request :: rest => (s.answer request).1 :: (s.answer request).2.answers rest

end Reference

end Tabular
