import Mathlib.Logic.Relation
import Tabular.Pool.Checkout
import Tabular.Proofs.Interaction.Underway

/-!
# Tabular.Proofs.Pool.Usage — users of one pool

In a `Usage` any number of users check items out of a pool and in again, and the idle items may be dropped
at any time.  Every access to the pool is one step, the making of an item another, and the steps of
different users come in any order (`Usage.Next`).  Main statement: `Next.turn`, which says once what a
step can be.
-/

namespace Tabular.Pool

open Sharing

variable {ι α : Type}

/-! ### Checking out -/

/-- A computation of a user, who shares the pool and asks for new items. -/
abbrev UserProgram (α : Type) : Type → Type 1 := Program (Pool α) fun _ : Unit => Except StoreError α

/-- A step of a user. -/
abbrev UserStep (α : Type) : Type 1 := Step (Pool α) fun _ : Unit => Except StoreError α

/-- A checkout from a pool of a resource. -/
def checkingOut (resource : String) (waitMs : Nat) : UserProgram α (Except StoreError α) :=
  (checkout cell resource waitMs (ExceptT.mk (call ()))).run

/-- What is left of a checkout once an item is made. -/
def filling (a : α) : UserProgram α (Except StoreError α) := .ask (.update fill) fun _ => .done (.ok a)

/-- What is left of a checkout once an item could not be made. -/
def givingBack (e : StoreError) : UserProgram α (Except StoreError α) :=
  .ask (.update giveBack) fun _ => .done (.error e)

/-- What is left of a checkout that has a slot to fill. -/
def making : UserProgram α (Except StoreError α) :=
  .ask (.call ()) fun
    | .ok a => filling a
    | .error e => givingBack e

theorem checkingOut_eq (resource : String) (waitMs : Nat) :
    (checkingOut resource waitMs : UserProgram α _) = .ask (.update take) fun before =>
      match before.taken with
      | .item a => .done (.ok a)
      | .slot => making
      | .nothing => .done (.error (.poolTimeout resource waitMs)) := by
  refine congrArg (Interaction.ask _) (funext fun before => ?_)
  dsimp only [Interaction.bind, Function.comp_apply, ExceptT.bindCont]
  cases before.taken with
  | item a => rfl
  | slot =>
    refine congrArg (Interaction.ask _) (funext fun answer => ?_)
    cases answer with
    | ok a => rfl
    | error e => rfl
  | nothing => rfl

/-! ### Users -/

/-- What has happened to the items of a pool. -/
inductive Entry (ι α : Type) where
  /-- A checkout of a user ended. -/
  | checkedOut (user : ι) (result : Except StoreError α)
  | checkedIn (item : α) (reusable : Bool)
  | cleared (items : List α)

/-- What has happened, the latest first. -/
abbrev Log (ι α : Type) := List (Entry ι α)

namespace Log

/-- The items in the hands of users. -/
def out [DecidableEq α] : Log ι α → List α
  | .checkedOut _ (.ok a) :: earlier => a :: out earlier
  | .checkedIn a _ :: earlier => (out earlier).erase a
  | _ :: earlier => out earlier
  | [] => []

/-- The items that were returned as ones that cannot be used again. -/
def broken : Log ι α → List α
  | .checkedIn a false :: earlier => a :: broken earlier
  | _ :: earlier => broken earlier
  | [] => []

/-- The idle items that were dropped. -/
def dropped : Log ι α → List α
  | .cleared items :: earlier => items ++ dropped earlier
  | _ :: earlier => dropped earlier
  | [] => []

variable {log : Log ι α} {a : α}

theorem mem_broken : a ∈ log.broken ↔ .checkedIn a false ∈ log := by
  fun_induction broken log with
  | case1 b earlier ih => simp [ih]
  | case2 entry earlier hne ih =>
    rw [ih, List.mem_cons, or_iff_right fun h => hne a h.symm]
  | case3 => simp

theorem mem_dropped : a ∈ log.dropped ↔ ∃ items, .cleared items ∈ log ∧ a ∈ items := by
  fun_induction dropped log with
  | case1 items earlier ih => simp [ih, or_and_right, exists_or]
  | case2 entry earlier hne ih =>
    refine ih.trans (exists_congr fun items => and_congr_left fun _ => ?_)
    rw [List.mem_cons, or_iff_right fun h => hne items h.symm]
  | case3 => simp

end Log

/-- A pool and its users. -/
structure Usage (ι α : Type) where
  pool : Pool α
  /-- The checkout that each user is in the middle of.  Whoever waits for an item has taken no step. -/
  busy : Underway ι (Pool α) (fun _ : Unit => Except StoreError α) (Except StoreError α)
  /-- All items that were ever made. -/
  made : List α
  log : Log ι α

namespace Usage

/-- A new pool, which nobody uses yet. -/
def start (maxSize : Nat) : Usage ι α := ⟨{ maxSize }, .nobody, [], []⟩

/-- Whether a user has a slot and is about to fill it, or to give it back. -/
abbrev Creating (s : Usage ι α) (i : ι) : Prop := s.busy.Begun i

variable [DecidableEq ι] [DecidableEq α]

/-- The usage with a user in the middle of a checkout. -/
def setBusy (s : Usage ι α) (i : ι) (steps : List (UserStep α))
    (p : UserProgram α (Except StoreError α)) : Usage ι α :=
  { s with busy := s.busy.put i steps p }

/-- The usage once the checkout of a user has ended. -/
def finish (s : Usage ι α) (i : ι) (result : Except StoreError α) : Usage ι α :=
  { s with busy := s.busy.finish i, log := .checkedOut i result :: s.log }

/-- What comes of a step of a user, who goes on with the rest of the checkout. -/
def goOn (s : Usage ι α) (i : ι) (steps : List (UserStep α)) :
    UserProgram α (Except StoreError α) → Usage ι α
  | .done result => s.finish i result
  | p => s.setBusy i steps p

/-- What may happen next.  Every item that is made is a new one, and only items in the hands of a user are
returned. -/
inductive Next (resource : String) (waitMs : Nat) (s : Usage ι α) : Usage ι α → Prop where
  | begin (i : ι) (hfree : s.busy i = none) :
    Next resource waitMs s (s.setBusy i [] (checkingOut resource waitMs))
  | access (i : ι) {steps : List (UserStep α)} {p q : UserProgram α (Except StoreError α)}
    {change : Pool α → Pool α} (hbusy : s.busy i = some (steps, p))
    (htakes : p.Takes (.asked (.update change) s.pool) q) :
    Next resource waitMs s
      (goOn { s with pool := change s.pool } i (.asked (.update change) s.pool :: steps) q)
  | make (i : ι) {steps : List (UserStep α)} {p q : UserProgram α (Except StoreError α)}
    {result : Except StoreError α} (hbusy : s.busy i = some (steps, p))
    (htakes : p.Takes (.asked (.call ()) result) q) (hnew : ∀ a, result = .ok a → a ∉ s.made) :
    Next resource waitMs s
      (goOn { s with made := result.toOption.toList ++ s.made } i (.asked (.call ()) result :: steps) q)
  | checkin (a : α) (reusable : Bool) {change : Pool α → Pool α} (hout : a ∈ s.log.out)
    (htakes : (checkin cell a reusable : UserProgram α Unit).Takes (.asked (.update change) s.pool)
      (.done ())) :
    Next resource waitMs s { s with pool := change s.pool, log := .checkedIn a reusable :: s.log }
  | clear {change : Pool α → Pool α}
    (htakes : (cell.modify clearIdle : UserProgram α Unit).Takes (.asked (.update change) s.pool)
      (.done ())) :
    Next resource waitMs s { s with pool := change s.pool, log := .cleared s.pool.idle :: s.log }

/-- Whether a usage may come to be as another in the course of time. -/
abbrev Reaches (resource : String) (waitMs : Nat) : Usage ι α → Usage ι α → Prop :=
  Relation.ReflTransGen (Next resource waitMs)

/-! ### What a step can be -/

/-- Where a checkout can be, with the steps it has taken. -/
inductive Stage (resource : String) (waitMs : Nat) :
    List (UserStep α) → UserProgram α (Except StoreError α) → Prop where
  | start : Stage resource waitMs [] (checkingOut resource waitMs)
  | making (before : Pool α) : Stage resource waitMs [.asked (.update take) before] making
  | filling (a : α) (steps : List (UserStep α)) :
    Stage resource waitMs (.asked (.call ()) (.ok a) :: steps) (filling a)
  | givingBack (e : StoreError) (steps : List (UserStep α)) :
    Stage resource waitMs (.asked (.call ()) (.error e) :: steps) (givingBack e)

/-- The steps that there are. -/
inductive Turn (resource : String) (waitMs : Nat) (s : Usage ι α) : Usage ι α → Prop where
  | begin (i : ι) (hfree : s.busy i = none) :
    Turn resource waitMs s (s.setBusy i [] (checkingOut resource waitMs))
  | reuse (i : ι) (hbusy : s.busy i = some ([], checkingOut resource waitMs)) {a : α} {rest : List α}
    (hidle : s.pool.idle = a :: rest) :
    Turn resource waitMs s
      (finish { s with pool := { s.pool with idle := rest }.withOneMore } i (.ok a))
  | reserve (i : ι) (hbusy : s.busy i = some ([], checkingOut resource waitMs)) (hidle : s.pool.idle = [])
    (hroom : s.pool.hasRoom) :
    Turn resource waitMs s
      (setBusy { s with pool := s.pool.withOneMore } i [.asked (.update take) s.pool] making)
  | giveUp (i : ι) (hbusy : s.busy i = some ([], checkingOut resource waitMs)) (hidle : s.pool.idle = [])
    (hroom : ¬ s.pool.hasRoom) :
    Turn resource waitMs s
      (finish { s with pool := { s.pool with timeouts := s.pool.timeouts + 1 } } i
        (.error (.poolTimeout resource waitMs)))
  | make (i : ι) {before : Pool α} (hbusy : s.busy i = some ([.asked (.update take) before], making)) (a : α)
    (hnew : a ∉ s.made) :
    Turn resource waitMs s
      (setBusy { s with made := a :: s.made } i
        [.asked (.call ()) (.ok a), .asked (.update take) before] (filling a))
  | fail (i : ι) {before : Pool α} (hbusy : s.busy i = some ([.asked (.update take) before], making))
    (e : StoreError) :
    Turn resource waitMs s
      (s.setBusy i [.asked (.call ()) (.error e), .asked (.update take) before] (givingBack e))
  | fill (i : ι) (a : α) {steps : List (UserStep α)}
    (hbusy : s.busy i = some (.asked (.call ()) (.ok a) :: steps, filling a)) :
    Turn resource waitMs s (finish { s with pool := s.pool.fill } i (.ok a))
  | giveBack (i : ι) (e : StoreError) {steps : List (UserStep α)}
    (hbusy : s.busy i = some (.asked (.call ()) (.error e) :: steps, givingBack e)) :
    Turn resource waitMs s (finish { s with pool := s.pool.giveBack } i (.error e))
  | checkin (a : α) (reusable : Bool) (hout : a ∈ s.log.out) :
    Turn resource waitMs s
      { s with pool := s.pool.put a reusable, log := .checkedIn a reusable :: s.log }
  | clear :
    Turn resource waitMs s { s with pool := s.pool.clearIdle, log := .cleared s.pool.idle :: s.log }

variable {resource : String} {waitMs : Nat} {s t : Usage ι α}

/-- What an access to the pool can be. -/
theorem turn_of_access {i : ι} {steps : List (UserStep α)} {p q : UserProgram α (Except StoreError α)}
    {change : Pool α → Pool α} (hstage : Stage resource waitMs steps p) (hbusy : s.busy i = some (steps, p))
    (htakes : p.Takes (.asked (.update change) s.pool) q) :
    Turn resource waitMs s
      (goOn { s with pool := change s.pool } i (.asked (.update change) s.pool :: steps) q) := by
  cases hstage with
  | start =>
    have htakes' := htakes
    rw [checkingOut_eq] at htakes'
    cases htakes'
    dsimp only
    cases hidle : s.pool.idle with
    | cons a rest =>
      have htaken : s.pool.taken = .item a := by rw [taken, hidle]
      have htake : s.pool.take = { s.pool with idle := rest }.withOneMore := by rw [take, hidle]
      rw [htaken, htake]
      exact .reuse i hbusy hidle
    | nil =>
      by_cases hroom : s.pool.hasRoom
      · have htaken : s.pool.taken = .slot := by simp [taken, hidle, hroom]
        have htake : s.pool.take = s.pool.withOneMore := by simp [take, hidle, hroom]
        rw [htaken, htake]
        exact .reserve i hbusy hidle hroom
      · have htaken : s.pool.taken = .nothing := by simp [taken, hidle, hroom]
        have htake : s.pool.take = { s.pool with timeouts := s.pool.timeouts + 1 } := by
          simp [take, hidle, hroom]
        rw [htaken, htake]
        exact .giveUp i hbusy hidle hroom
  | making before => cases htakes
  | filling a steps =>
    cases htakes
    exact .fill i a hbusy
  | givingBack e steps =>
    cases htakes
    exact .giveBack i e hbusy

/-- What the making of an item can be. -/
theorem turn_of_make {i : ι} {steps : List (UserStep α)} {p q : UserProgram α (Except StoreError α)}
    {result : Except StoreError α} (hstage : Stage resource waitMs steps p)
    (hbusy : s.busy i = some (steps, p)) (htakes : p.Takes (.asked (.call ()) result) q)
    (hnew : ∀ a, result = .ok a → a ∉ s.made) :
    Turn resource waitMs s
      (goOn { s with made := result.toOption.toList ++ s.made } i (.asked (.call ()) result :: steps)
        q) := by
  cases hstage with
  | start =>
    rw [checkingOut_eq] at htakes
    cases htakes
  | making before =>
    cases htakes
    cases result with
    | ok a => exact .make i hbusy a (hnew a rfl)
    | error e => exact .fail i hbusy e
  | filling a steps => cases htakes
  | givingBack e steps => cases htakes

/-- What a step can be, if every checkout is where it can be. -/
theorem Next.turn (h : Next resource waitMs s t)
    (hstage : s.busy.All fun _ => Stage resource waitMs) :
    Turn resource waitMs s t := by
  cases h with
  | begin i hfree => exact .begin i hfree
  | access i hbusy htakes => exact turn_of_access (hstage i _ _ hbusy) hbusy htakes
  | make i hbusy htakes hnew => exact turn_of_make (hstage i _ _ hbusy) hbusy htakes hnew
  | checkin a reusable hout htakes =>
    cases htakes
    exact .checkin a reusable hout
  | clear htakes =>
    cases htakes
    exact .clear

end Usage

end Tabular.Pool
