import Tabular.Interaction
import Tabular.Schema.Basic

/-!
# Tabular.Work.Basic — units of work

A unit of work asks for table operations and ends with a value or a failure; in between it may do other
things in `m`.  `Tables` is a way to answer table operations with a state that lasts as long as the unit
of work, `Work.perform` runs a unit of work on it.
-/

namespace Tabular

/-- An operation on the table of a name.  Each one opens the table first. -/
inductive TableCall where
  /-- Opens the table and does nothing else. -/
  | visit (table : String)
  | schema (table : String)
  /-- Inserts a row, or lays its cells over the row of the same key. -/
  | upsert (table : String) (row : Row)
  | read (table : String) (key : List Value)
  /-- Removes the row of a key, if there is one. -/
  | delete (table : String) (key : List Value)
  | scan (table : String)

/-- What an operation answers. -/
abbrev TableCall.Answer : TableCall → Type
  | visit _ => Unit
  | schema _ => TableSchema
  | upsert _ _ => Unit
  | read _ _ => Option Row
  | delete _ _ => Unit
  | scan _ => List Row

/-- How a unit of work may fail. -/
inductive Failure where
  | error (e : StoreError)
  /-- It panics, with a text if the panic carries one. -/
  | panic (text : Option String)
deriving DecidableEq, Repr

/-- A unit of work. -/
abbrev Work (m : Type → Type u) (α : Type) :=
  Interaction (fun call : TableCall => Except StoreError call.Answer) m (Except Failure α)

/-- A way to answer table operations with a state. -/
abbrev Tables (m : Type → Type u) (σ : Type) :=
  (call : TableCall) → StateT σ m (Except StoreError call.Answer)

/-- The table that an operation is about. -/
def TableCall.table : TableCall → String
  | visit table | schema table | upsert table _ | read table _ | delete table _ | scan table => table

/-- The tables of those who have none. -/
def Tables.none {m : Type → Type u} [Monad m] : Tables m Unit :=
  fun call => return .error (.tableNotFound call.table)

namespace Work

variable {m : Type → Type u} {α β : Type}

/-- The unit of work that does nothing but fail. -/
def fail (failure : Failure) : Work m α := .done (.error failure)

/-- The unit of work that asks one operation. -/
def call (c : TableCall) : Work m c.Answer :=
  .ask c fun answer => .done (answer.mapError .error)

/-- Goes on with the value of a unit of work, unless it failed. -/
def andThen (work : Work m α) (next : α → Work m β) : Work m β :=
  Interaction.bind (fun | .ok a => next a | .error failure => fail failure) work

/-- Runs a unit of work on tables. -/
def perform {σ : Type} [Monad m] (tables : Tables m σ) (work : Work m α) :
    StateT σ m (Except Failure α) :=
  Interaction.run StateT.lift tables work

end Work

end Tabular
