/-!
# Tabular.Pool.Basic — a bounded pool of reusable items

`Pool` is the state of a pool, each function one step that happens at once: taking an item or a slot for
a new one, filling the slot or giving it back, returning an item, dropping the idle ones.  The last item
returned is the first to be taken again.
-/

namespace Tabular

/-- A pool of at most `maxSize` items, idle or in use. -/
structure Pool (α : Type) where
  maxSize : Nat
  /-- The items nobody uses, the last returned first. -/
  idle : List α := []
  /-- The items in use and the slots taken for items being made. -/
  outstanding : Nat := 0
  created : Nat := 0
  /-- How many items were dropped instead of being kept for reuse. -/
  discarded : Nat := 0
  timeouts : Nat := 0
  /-- The greatest number of items in use at once. -/
  peak : Nat := 0
deriving DecidableEq, Repr, Inhabited

/-- The counters of a pool. -/
structure PoolStats where
  created : Nat
  discarded : Nat
  timeouts : Nat
  outstanding : Nat
  peak : Nat
  idle : Nat
deriving DecidableEq, Repr

/-- What a pool gives to someone who wants an item. -/
inductive Taken (α : Type) where
  /-- An item that was idle. -/
  | item (a : α)
  /-- A slot, to be filled with a new item. -/
  | slot
  /-- Nothing: no item is idle and there is no room for another one. -/
  | nothing
deriving DecidableEq, Repr

namespace Pool

variable {α : Type}

/-- The counters. -/
def stats (p : Pool α) : PoolStats where
  created := p.created
  discarded := p.discarded
  timeouts := p.timeouts
  outstanding := p.outstanding
  peak := p.peak
  idle := p.idle.length

/-- Whether there is room for another item. -/
def hasRoom (p : Pool α) : Prop := p.outstanding + p.idle.length < p.maxSize

instance (p : Pool α) : Decidable p.hasRoom := inferInstanceAs (Decidable (_ < _))

/-- The pool with one more item in use. -/
def withOneMore (p : Pool α) : Pool α :=
  { p with outstanding := p.outstanding + 1, peak := max p.peak (p.outstanding + 1) }

/-- What someone who wants an item gets in the end: whoever waits in vain gets nothing. -/
def taken (p : Pool α) : Taken α :=
  match p.idle with
  | a :: _ => .item a
  | [] => if p.hasRoom then .slot else .nothing

/-- The pool after someone took what `taken` says. -/
def take (p : Pool α) : Pool α :=
  match p.idle with
  | _ :: rest => { p with idle := rest }.withOneMore
  | [] => if p.hasRoom then p.withOneMore else { p with timeouts := p.timeouts + 1 }

/-- Fills a slot with a new item. -/
def fill (p : Pool α) : Pool α := { p with created := p.created + 1 }

/-- Gives back a slot for which no item could be made. -/
def giveBack (p : Pool α) : Pool α := { p with outstanding := p.outstanding - 1 }

/-- Takes an item back, to be kept if it can be used again. -/
def put (p : Pool α) (a : α) (reusable : Bool) : Pool α :=
  let p := { p with outstanding := p.outstanding - 1 }
  if reusable then { p with idle := a :: p.idle } else { p with discarded := p.discarded + 1 }

/-- Drops the idle items. -/
def clearIdle (p : Pool α) : Pool α := { p with idle := [] }

end Pool

end Tabular
