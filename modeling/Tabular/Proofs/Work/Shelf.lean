import Tabular.Proofs.Runner.Held
import Tabular.Work.Basic

/-!
# Tabular.Proofs.Work.Shelf — units of work on plain tables

A `Shelf` holds the rows of tables and knows no transactions; `Shelf.tables` answers table operations on
it.  `ReadModifyWrite.all` are units of work that read one row after another and replace each by a function
of what they read.  Main statement: `perform_work`, what one such step makes of a shelf.
-/

namespace Tabular

abbrev Schemas := (table : String) → Option { schema : TableSchema // schema.name = table }

/-- The rows of each table. -/
abbrev Shelf := String → Rows

namespace Shelf

def row? (shelf : Shelf) : Contents := fun row => (shelf row.table)[row.key]?

/-- The shelf after the change of one row. -/
def change (shelf : Shelf) (row : Change) (cell : Option Row) : Shelf := fun table =>
  if table = row.table then (shelf table).change row.key cell else shelf table

theorem row?_change (shelf : Shelf) (row : Change) (cell : Option Row) :
    (shelf.change row cell).row? = Function.update shelf.row? row cell := by
  funext other
  obtain ⟨table, key⟩ := row
  obtain ⟨table', key'⟩ := other
  by_cases htable : table' = table
  · subst htable
    by_cases hkey : key' = key
    · subst hkey
      simp [row?, change, Rows.getElem?_change]
    · have hne : key ≠ key' := fun heq => hkey heq.symm
      simp [row?, change, Rows.getElem?_change, hkey, hne]
  · simp [row?, change, htable]

def schema (schemas : Schemas) (table : String) : Except StoreError TableSchema :=
  match schemas table with
  | some schema => .ok schema.1
  | none => .error (.tableNotFound table)

/-- The table operations on a shelf. -/
def attempt (schemas : Schemas) : (call : TableCall) → Attempt (StateT Shelf Id) call.Answer
  | .visit table => do
    let _ ← Attempt.of (schema schemas table)
  | .schema table => Attempt.of (schema schemas table)
  | .upsert table row => do
    let schema ← Attempt.of (schema schemas table)
    let key ← Attempt.of (schema.keyOf row)
    let shelf : Shelf ← get
    let merged ← Attempt.of (schema.mergeRow (shelf.row? ⟨table, key⟩) row)
    set (shelf.change ⟨table, key⟩ (some merged))
  | .read table key => do
    let schema ← Attempt.of (schema schemas table)
    let key ← Attempt.of (schema.keyFromValues key)
    let shelf : Shelf ← get
    return shelf.row? ⟨table, key⟩
  | .delete table key => do
    let schema ← Attempt.of (schema schemas table)
    let key ← Attempt.of (schema.keyFromValues key)
    modify fun shelf : Shelf => shelf.change ⟨table, key⟩ none
  | .scan table => do
    let _ ← Attempt.of (schema schemas table)
    let shelf : Shelf ← get
    return (shelf table).values

def tables (schemas : Schemas) : Tables Id Shelf := fun call => (attempt schemas call).run

section Tables

theorem of_ok_bind {α β : Type} (a : α) (f : α → Attempt (StateT Shelf Id) β) :
    (Attempt.of (.ok a) >>= f) = f a := rfl

variable {schemas : Schemas} {table : String} {schema : { schema : TableSchema // schema.name = table }}
  {key : RowKey} {shelf : Shelf} (hschema : schemas table = some schema)

include hschema

theorem schema_eq : Shelf.schema schemas table = .ok schema.1 := by
  rw [Shelf.schema, hschema]

theorem tables_read {values : List Value} (hkey : schema.1.keyFromValues values = .ok key) :
    (tables schemas (.read table values)).run shelf = (.ok (shelf.row? ⟨table, key⟩), shelf) := by
  simp only [tables, attempt, schema_eq hschema, of_ok_bind, hkey]
  rfl

theorem tables_delete {values : List Value} (hkey : schema.1.keyFromValues values = .ok key) :
    (tables schemas (.delete table values)).run shelf = (.ok (), shelf.change ⟨table, key⟩ none) := by
  simp only [tables, attempt, schema_eq hschema, of_ok_bind, hkey]
  rfl

theorem tables_upsert {row : Row} (hkey : schema.1.keyOf row = .ok key) :
    (tables schemas (.upsert table row)).run shelf =
      match schema.1.mergeRow (shelf.row? ⟨table, key⟩) row with
      | .ok merged => (.ok (), shelf.change ⟨table, key⟩ (some merged))
      | .error e => (.error e, shelf) := by
  simp only [tables, attempt, schema_eq hschema, of_ok_bind, hkey]
  show (Attempt.of (schema.1.mergeRow (shelf.row? ⟨table, key⟩) row) >>= fun merged =>
    set (shelf.change ⟨table, key⟩ (some merged)) : Attempt (StateT Shelf Id) Unit).run.run shelf = _
  cases schema.1.mergeRow (shelf.row? ⟨table, key⟩) row <;> rfl

end Tables

/-- What a unit of work makes of a shelf, if it ends well. -/
def perform {α : Type} (schemas : Schemas) (shelf : Shelf) (work : Work Id α) : Except Failure Shelf :=
  match (work.perform (tables schemas)).run shelf with
  | (.ok _, after) => .ok after
  | (.error failure, _) => .error failure

/-- What units of work make of a shelf one after another, if all of them end well. -/
def performAll {α : Type} (schemas : Schemas) (shelf : Shelf) (works : List (Work Id α)) :
    Except Failure Shelf :=
  works.foldlM (perform schemas) shelf

theorem performAll_concat {α : Type} {schemas : Schemas} {shelf shelf' : Shelf} {works : List (Work Id α)}
    (h : shelf.performAll schemas works = .ok shelf') (work : Work Id α) :
    shelf.performAll schemas (works ++ [work]) = shelf'.perform schemas work := by
  rw [performAll] at h ⊢
  rw [List.foldlM_append, h]
  exact bind_pure (shelf'.perform schemas work)

/-- A shelf is known by its rows. -/
theorem ext_row? {shelf shelf' : Shelf} (h : shelf.row? = shelf'.row?) : shelf = shelf' := by
  funext table
  exact Std.ExtTreeMap.ext_getElem? fun key => congrFun h ⟨table, key⟩

end Shelf

namespace Work

variable {α β : Type}

theorem perform_call {σ : Type} (tables : Tables Id σ) (call : TableCall) (state : σ) :
    ((Work.call call).perform tables).run state =
      let answered := (tables call).run state
      (answered.1.mapError .error, answered.2) := rfl

theorem perform_andThen {σ : Type} (tables : Tables Id σ) (work : Work Id α) (next : α → Work Id β)
    (state : σ) :
    ((work.andThen next).perform tables).run state =
      match (work.perform tables).run state with
      | (.ok a, after) => ((next a).perform tables).run after
      | (.error failure, after) => (.error failure, after) := by
  induction work generalizing state with
  | done r => cases r <;> rfl
  | act x next ih => exact ih x state
  | ask call next ih => exact ih _ _

theorem andThen_done {m : Type → Type u} (work : Work m α) :
    (work.andThen fun a => .done (.ok a)) = work := by
  refine Eq.trans (congrArg (Interaction.bind · work) ?_) (Interaction.bind_done_right work)
  funext r
  cases r <;> rfl

end Work

/-! ### Reading, modifying and writing single rows -/

/-- One step of a unit of work: the row of a key is read and replaced. -/
structure ReadModifyWrite where
  table : String
  key : List Value
  /-- The row that is upserted, or `none` if the row is deleted, given the row that was read. -/
  change : Option Row → Option Row

namespace ReadModifyWrite

/-- What the step does with the row that it has read. -/
def replace {m : Type → Type u} (step : ReadModifyWrite) (row : Option Row) : Work m Unit :=
  match step.change row with
  | some new => Work.call (.upsert step.table new)
  | none => Work.call (.delete step.table step.key)

/-- The step as a unit of work. -/
def work {m : Type → Type u} (step : ReadModifyWrite) : Work m Unit :=
  (Work.call (.read step.table step.key)).andThen step.replace

/-- A list of steps as a unit of work. -/
def all {m : Type → Type u} : List ReadModifyWrite → Work m Unit
  | [] => .done (.ok ())
  | step :: rest => step.work.andThen fun _ => all rest

/-- Whether a step upserts rows of no other key than the one that it reads. -/
def Fits (schemas : Schemas) (step : ReadModifyWrite) : Prop :=
  ∀ schema, schemas step.table = some schema → ∀ row new key, step.change row = some new →
    schema.1.keyOf new = .ok key → schema.1.keyFromValues step.key = .ok key

/-- Whether a step that reads `row` under `key` leaves a cell there. -/
def Leaves (schemas : Schemas) (step : ReadModifyWrite) (key : RowKey) (row : Option Row)
    (cell : Option Row) : Prop :=
  ∃ schema, schemas step.table = some schema ∧ schema.1.keyFromValues step.key = .ok key ∧
    match step.change row with
    | none => cell = none
    | some new => schema.1.keyOf new = .ok key ∧
        ∃ merged, schema.1.mergeRow row new = .ok merged ∧ cell = some merged

variable {schemas : Schemas} {step : ReadModifyWrite} {key : RowKey} {cell : Option Row} {shelf : Shelf}

theorem replace_of_some {m : Type → Type u} {row : Option Row} {new : Row}
    (h : step.change row = some new) :
    (step.replace row : Work m Unit) = Work.call (.upsert step.table new) := by
  rw [replace, h]

theorem replace_of_none {m : Type → Type u} {row : Option Row} (h : step.change row = none) :
    (step.replace row : Work m Unit) = Work.call (.delete step.table step.key) := by
  rw [replace, h]

/-- A step changes the row of its key on a shelf and no other. -/
theorem perform_work (h : step.Leaves schemas key (shelf.row? ⟨step.table, key⟩) cell) :
    (step.work.perform (Shelf.tables schemas)).run shelf =
      (.ok (), shelf.change ⟨step.table, key⟩ cell) := by
  obtain ⟨schema, hschema, hkey, hcell⟩ := h
  rw [work, Work.perform_andThen, Work.perform_call, Shelf.tables_read hschema hkey]
  show ((step.replace (shelf.row? ⟨step.table, key⟩)).perform _).run shelf = _
  cases hchange : step.change (shelf.row? ⟨step.table, key⟩) with
  | none =>
    rw [hchange] at hcell
    subst hcell
    rw [replace_of_none hchange, Work.perform_call, Shelf.tables_delete hschema hkey]
    rfl
  | some new =>
    rw [hchange] at hcell
    obtain ⟨hnew, merged, hmerged, rfl⟩ := hcell
    rw [replace_of_some hchange, Work.perform_call, Shelf.tables_upsert hschema hnew, hmerged]
    rfl

end ReadModifyWrite

end Tabular
