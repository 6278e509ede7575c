/-!
# Tabular.Cell — a shared place to keep a value

A `Cell` is all that code needs to know of a value that it shares with others: how to change it in one
step, which also answers what was there before.  `Cell.part` is the cell of a component.
-/

namespace Tabular

/-- A place that holds a `σ` and can be changed in one step of `m`. -/
structure Cell (m : Type → Type u) (σ : Type) where
  /-- Changes the content and answers the content before. -/
  update : (σ → σ) → m σ

namespace Cell

variable {m : Type → Type u} {σ τ : Type}

/-- Replaces the content and answers the content before. -/
def swap (cell : Cell m σ) (content : σ) : m σ := cell.update fun _ => content

/-- Changes the content. -/
def modify [Functor m] (cell : Cell m σ) (change : σ → σ) : m Unit :=
  (fun _ => ()) <$> cell.update change

/-- The cell of a component, with how to read it and how to change it within the whole. -/
def part [Functor m] (cell : Cell m σ) (get : σ → τ) (lift : (τ → τ) → σ → σ) : Cell m τ :=
  ⟨fun change => get <$> cell.update (lift change)⟩

end Cell

end Tabular
