import Tabular.Work.Basic

/-!
# Tabular.Proofs.Work.Samples — the tables that examples are about

Two small tables, each with a row, its key and what is done to it, for the theorems that show a general
statement at work.  `notes` has a column that may be null; `accounts` has no column but the key.
-/

namespace Tabular.Samples

/-- A table of notes, whose text may be missing. -/
def notes : TableSchema where
  name := "notes"
  columns := [⟨"id", .long, false⟩, ⟨"text", .string, true⟩]
  primaryKey := ["id"]
  indexes := []

/-- A note without text. -/
def note (id : Int64) : Row := .ofCells [("id", .long id)]

def noteKey (id : Int64) : RowKey := ⟨[.long id]⟩

/-- A table of accounts. -/
def accounts : TableSchema where
  name := "accounts"
  columns := [⟨"id", .integer, false⟩]
  primaryKey := ["id"]
  indexes := []

/-- The account of number 7. -/
def account : Row := .ofCells [("id", .integer 7)]

/-- The unit of work that closes this account. -/
def closing {m : Type → Type u} : Work m Unit := Work.call (.delete "accounts" [.integer 7])

end Tabular.Samples
