/-!
# Tabular.Error — why an operation on the store fails

One constructor per cause; the wording of each cause is in `StoreError.message` and nowhere else.
`isRetryable` marks the causes after which the whole operation may be tried again, `isConsistency`
the one that reports storage and catalog out of step.
-/

namespace Tabular

/-- The causes of failure of the structured-table store. -/
inductive StoreError where
  | configuration (reason : String)
  | tableAlreadyExists (table : String)
  | tableNotFound (table : String)
  /-- The schema breaks one of the rules of a well-formed schema. -/
  | invalidSchema (table reason : String)
  /-- The row or key does not fit the schema of the table. -/
  | invalidRow (table reason : String)
  /-- The transaction was rolled back; the unit of work may be run again. -/
  | transactionAborted (reason : String)
  /-- No pooled item became free in time. -/
  | poolTimeout (resource : String) (waitedMs : Nat)
  | coordinator (reason : String)
  | connection (reason : String)
  /-- Storage and catalog disagree about a table after a definition step. -/
  | consistency (table detail : String)
  /-- A schema document could not be read. -/
  | serialization (reason : String)
  /-- The unit of work reported a failure of its own. -/
  | workFailed (reason : String)
  | workPanicked (reason : String)
deriving DecidableEq, Repr, Inhabited

namespace StoreError

/-- The text shown for an error. -/
def message : StoreError → String
  | configuration reason => s!"Configuration error: {reason}"
  | tableAlreadyExists table => s!"Table '{table}' already exists"
  | tableNotFound table => s!"Table '{table}' not found"
  | invalidSchema table reason => s!"Invalid schema for table '{table}': {reason}"
  | invalidRow table reason => s!"Invalid row for table '{table}': {reason}"
  | transactionAborted reason => s!"Transaction aborted: {reason}"
  | poolTimeout resource waitedMs => s!"Timed out after {waitedMs} ms waiting for {resource}"
  | coordinator reason => s!"Coordinator error: {reason}"
  | connection reason => s!"Connection error: {reason}"
  | consistency table detail => s!"Consistency error on table '{table}': {detail}"
  | serialization reason => s!"Serialization error: {reason}"
  | workFailed reason => s!"Unit of work failed: {reason}"
  | workPanicked reason => s!"Unit of work panicked: {reason}"

instance : ToString StoreError := ⟨message⟩

/-- Whether the caller may run the whole operation again. -/
def isRetryable : StoreError → Bool
  | transactionAborted _ | poolTimeout _ _ => true
  | _ => false

/-- Whether storage and catalog were left out of step. -/
def isConsistency : StoreError → Bool
  | consistency _ _ => true
  | _ => false

end StoreError

end Tabular
