import Std.Data.ExtTreeMap
import Tabular.Value

/-!
# Tabular.Row — rows

A row maps column names to cell values, in the order of the names.  A nullable column that is absent
reads as null.
-/

namespace Tabular

/-- A row: column name to value. -/
abbrev Row := Std.ExtTreeMap String Value

namespace Row

/-- The row with the given cells; of two cells for one column the later counts. -/
def ofCells (cells : List (String × Value)) : Row :=
  cells.foldl (fun row cell => row.insert cell.1 cell.2) ∅

/-- The row `update` laid over `base`: a column of `update` has its value there, any other its value
in `base`. -/
def overlay (base update : Row) : Row :=
  update.foldl (fun row column value => row.insert column value) base

end Row

end Tabular
