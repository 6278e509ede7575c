import Tabular.Proofs.Interleaving.System
import Tabular.Proofs.Runner.Held

/-!
# Tabular.Proofs.Interleaving.Phase — the phases of an execution

A `Phase` says how far an execution has come and, once it has a transaction, which cells of it the store
holds.  `Move` lists every step that an execution may take in a phase and the phase after it; what a move
tells the coordinator and the store is read off it once, in the lemmas below.  `Conduct` is a run of
moves from the first phase.
-/

namespace Tabular

/-- The session that a call is made on. -/
def CoordinatorCall.session? : CoordinatorCall → Option Nat
  | connect => none
  | begin session | canCommit session _ _ | commit session _ | abort session _ | invalidate session _ =>
    some session

namespace Interleaving

/-- How far an execution has come. -/
inductive Phase where
  /-- It has no transaction yet, and is to settle the transactions in its hands. -/
  | idle (hands : List Unfinished)
  /-- The unit of work runs and has taken the given steps, the latest first. -/
  | working (tx : Transaction) (steps : List Step)
  /-- The changes may be committed, and some of their cells are written. -/
  | writing (tx : Transaction) (held : Participants) (cells : Cells)
  /-- The transaction failed, and some cells are left of it. -/
  | failing (tx : Transaction) (cells : Cells)
  | committed (tx : Transaction) (held : Participants)
  /-- The transaction was settled, or left to others to settle. -/
  | ended (tx : Transaction) (cells : Cells)

namespace Phase

def tx? : Phase → Option Transaction
  | idle _ => none
  | working tx _ | writing tx _ _ | failing tx _ | committed tx _ | ended tx _ => some tx

/-- The cells of the transaction in the store. -/
def cells : Phase → Cells
  | idle _ | working _ _ => .empty
  | writing _ _ cells | failing _ cells | ended _ cells => cells
  | committed _ held => .held held

/-- The transaction and its changes, from when they are announced. -/
def announced? : Phase → Option (Transaction × Participants)
  | writing tx held _ | committed tx held => some (tx, held)
  | _ => none

/-- What the transaction held back, once it committed. -/
def held : Phase → Participants
  | committed _ held => held
  | _ => ∅

/-- The transactions of others that are still to be settled. -/
def hands : Phase → List Unfinished
  | idle hands => hands
  | _ => []

/-- Whether a transaction is under way, with the given cells in the store. -/
def Holds (tx : Transaction) (cells : Cells) : Phase → Prop
  | working tx' _ => tx' = tx ∧ cells = .empty
  | writing tx' _ cells' | failing tx' cells' => tx' = tx ∧ cells' = cells
  | _ => False

/-- Whether an execution has nothing more to settle. -/
def Over : Phase → Prop
  | idle hands => hands = []
  | committed _ _ | ended _ _ => True
  | _ => False

/-- Whether an execution may end so in a phase. -/
def Final {α : Type} (φ : Phase) : Except StoreError α → Prop
  | .ok _ => ∃ tx held, φ = committed tx held
  | .error _ => φ = idle [] ∨ ∃ tx cells, φ = ended tx cells

variable {φ : Phase} {tx : Transaction} {cells : Cells}

theorem Holds.tx?_eq (h : φ.Holds tx cells) : φ.tx? = some tx := by
  cases φ <;> first | exact congrArg some h.1 | exact h.elim

theorem Holds.cells_eq (h : φ.Holds tx cells) : φ.cells = cells := by
  cases φ <;> first | exact h.2 | exact h.2.symm | exact h.elim

theorem Holds.hands_eq (h : φ.Holds tx cells) : φ.hands = [] := by
  cases φ <;> first | rfl | exact h.elim

theorem tx?_of_announced? {held : Participants} (h : φ.announced? = some (tx, held)) :
    φ.tx? = some tx := by
  cases φ <;> cases h <;> rfl

theorem Final.over {α : Type} {result : Except StoreError α} (h : φ.Final result) : φ.Over := by
  cases result with
  | ok a =>
    obtain ⟨tx, held, rfl⟩ := h
    trivial
  | error e =>
    rcases h with rfl | ⟨tx, cells, rfl⟩
    · rfl
    · trivial

theorem Over.hands_eq (h : φ.Over) : φ.hands = [] := by
  cases φ <;> first | exact h | rfl

theorem holds_working {steps : List Step} : (working tx steps).Holds tx .empty := ⟨rfl, rfl⟩

theorem holds_writing {held : Participants} : (writing tx held cells).Holds tx cells := ⟨rfl, rfl⟩

theorem holds_failing : (failing tx cells).Holds tx cells := ⟨rfl, rfl⟩

end Phase

/-- The calls that settle a transaction. -/
inductive Settles (orphan : Unfinished) : CoordinatorCall → Prop where
  | abort (session : Nat) (h : orphan.rolledBack = true) : Settles orphan (.abort session orphan.tx)
  | invalidate (session : Nat) (h : orphan.rolledBack = false) :
    Settles orphan (.invalidate session orphan.tx)

/-- The steps of a unit of work in a transaction: it looks up schemas, reads with the snapshot of the
transaction, and does things elsewhere. -/
def Looks (tx : Transaction) : Step → Prop
  | .met _ => True
  | .asked (.find _) _ => True
  | .asked (.store (.read _ _ tx')) _ => tx' = tx
  | .asked (.store (.scan _ tx')) _ => tx' = tx
  | _ => False

/-- The steps that an execution of a unit of work may take in a phase, and the phase after each. -/
inductive Move {α : Type} (work : Work Elsewhere α) : Phase → Step → Phase → Prop where
  | acquire (answer : Except StoreError Nat) :
    Move work (.idle []) (.asked .acquire answer) (.idle [])
  | release {φ : Phase} (h : φ.Over) (session : Nat) (reusable : Bool) :
    Move work φ (.asked (.release session reusable) ()) φ
  /-- What is unfinished is taken from the list. -/
  | take {change : List Unfinished → List Unfinished} (h : ∀ listed, change listed = [])
    (listed : List Unfinished) : Move work (.idle []) (.asked (.unfinished change) listed) (.idle listed)
  /-- What could not be settled goes back on the list. -/
  | putBack {change : List Unfinished → List Unfinished} {hands : List Unfinished}
    (h : ∀ listed, change listed = listed ++ hands) (listed : List Unfinished) :
    Move work (.idle hands) (.asked (.unfinished change) listed) (.idle [])
  | settle {orphan : Unfinished} {rest : List Unfinished} {call : CoordinatorCall}
    (h : Settles orphan call) (a : call.Answer) :
    Move work (.idle (orphan :: rest)) (.asked (.coordinator call) (.ok a)) (.idle rest)
  | settleFails {orphan : Unfinished} {rest : List Unfinished} {call : CoordinatorCall}
    (h : Settles orphan call) (e : StoreError) :
    Move work (.idle (orphan :: rest)) (.asked (.coordinator call) (.error e)) (.idle (orphan :: rest))
  | begin (session : Nat) (tx : Transaction) :
    Move work (.idle []) (.asked (.coordinator (.begin session)) (.ok tx)) (.working tx [])
  | beginFails (session : Nat) (e : StoreError) :
    Move work (.idle []) (.asked (.coordinator (.begin session)) (.error e)) (.idle [])
  | look {tx : Transaction} {steps : List Step} {step : Step} (h : Looks tx step) :
    Move work (.working tx steps) step (.working tx (step :: steps))
  | announce {tx : Transaction} {steps : List Step} {a : α} {held : Participants}
    (h : (working work tx).Leads steps (.done (.ok a, held))) (session : Nat) :
    Move work (.working tx steps)
      (.asked (.coordinator (.canCommit session tx (Participant.changeSet held.values))) (.ok true))
      (.writing tx held .empty)
  | announceFails {tx : Transaction} {steps : List Step} {answer : Except StoreError Bool}
    (h : answer ≠ .ok true) (session : Nat) (changes : ChangeSet) :
    Move work (.working tx steps) (.asked (.coordinator (.canCommit session tx changes)) answer)
      (.failing tx .empty)
  | write {tx : Transaction} {held : Participants} {cells : Cells} {row : Change} {cell : Option Row}
    (h : Cells.held held row = some cell) :
    Move work (.writing tx held cells)
      (.asked (.store (.write row.table row.key tx.writePointer cell)) (.ok ()))
      (.writing tx held (Function.update cells row (some cell)))
  | writeFails {tx : Transaction} {held : Participants} {cells : Cells} (row : Change)
    (cell : Option Row) (e : StoreError) :
    Move work (.writing tx held cells)
      (.asked (.store (.write row.table row.key tx.writePointer cell)) (.error e))
      (.writing tx held cells)
  | commit {tx : Transaction} {held : Participants} {cells : Cells} (h : cells = .held held)
    (session : Nat) :
    Move work (.writing tx held cells) (.asked (.coordinator (.commit session tx)) (.ok true))
      (.committed tx held)
  | commitFails {tx : Transaction} {held : Participants} {cells : Cells}
    {answer : Except StoreError Bool} (h : answer ≠ .ok true) (session : Nat) :
    Move work (.writing tx held cells) (.asked (.coordinator (.commit session tx)) answer)
      (.failing tx cells)
  | undo {φ : Phase} {tx : Transaction} {cells : Cells} (h : φ.Holds tx cells) (row : Change) :
    Move work φ (.asked (.store (.undo row.table row.key tx.writePointer)) (.ok ()))
      (.failing tx (Function.update cells row none))
  | undoFails {φ : Phase} {tx : Transaction} {cells : Cells} (h : φ.Holds tx cells) (row : Change)
    (e : StoreError) :
    Move work φ (.asked (.store (.undo row.table row.key tx.writePointer)) (.error e))
      (.failing tx cells)
  /-- The execution settles its own transaction. -/
  | endIt {φ : Phase} {tx : Transaction} {cells : Cells} {rolledBack : Bool} {call : CoordinatorCall}
    (h : φ.Holds tx cells) (hcall : Settles ⟨tx, rolledBack⟩ call)
    (hcells : rolledBack = true → cells = .empty) (a : call.Answer) :
    Move work φ (.asked (.coordinator call) (.ok a)) (.ended tx cells)
  | endItFails {φ : Phase} {tx : Transaction} {cells : Cells} {rolledBack : Bool}
    {call : CoordinatorCall} (h : φ.Holds tx cells) (hcall : Settles ⟨tx, rolledBack⟩ call)
    (e : StoreError) :
    Move work φ (.asked (.coordinator call) (.error e)) (.failing tx cells)
  /-- The execution leaves its transaction to others. -/
  | leave {φ : Phase} {tx : Transaction} {cells : Cells} {rolledBack : Bool}
    {change : List Unfinished → List Unfinished} (h : φ.Holds tx cells)
    (hcells : rolledBack = true → cells = .empty)
    (hchange : ∀ listed, change listed = listed ++ [⟨tx, rolledBack⟩]) (listed : List Unfinished) :
    Move work φ (.asked (.unfinished change) listed) (.ended tx cells)

namespace Move

variable {α : Type} {work : Work Elsewhere α} {φ φ' : Phase} {step : Step} {tx : Transaction}
  {cells : Cells} {p : Nat}

/-- An execution gets its transaction by a begin, and keeps it. -/
theorem tx?_eq (h : Move work φ step φ') :
    (∃ session tx, step = .asked (.coordinator (.begin session)) (.ok tx) ∧ φ = .idle [] ∧
      φ' = .working tx []) ∨
    (φ'.tx? = φ.tx? ∧ ∀ session tx, step ≠ .asked (.coordinator (.begin session)) (.ok tx)) := by
  cases h
  case begin session tx => exact .inl ⟨session, tx, rfl, rfl, rfl⟩
  case settle h a => cases h <;> exact .inr ⟨rfl, nofun⟩
  case look step h =>
    refine .inr ⟨rfl, ?_⟩
    rintro session tx' rfl
    exact h
  case undo h => exact .inr ⟨h.tx?_eq.symm, nofun⟩
  case undoFails h => exact .inr ⟨h.tx?_eq.symm, nofun⟩
  case endIt hcall _ _ h => cases hcall <;> exact .inr ⟨h.tx?_eq.symm, nofun⟩
  case endItFails h => exact .inr ⟨h.tx?_eq.symm, nofun⟩
  case leave h => exact .inr ⟨h.tx?_eq.symm, nofun⟩
  all_goals exact .inr ⟨rfl, nofun⟩

/-- The changes of an execution are fixed when they are announced. -/
theorem announced?_eq (h : Move work φ step φ') :
    (∃ session tx held,
      step = .asked (.coordinator (.canCommit session tx (Participant.changeSet held.values))) (.ok true) ∧
        φ.tx? = some tx ∧ φ' = .writing tx held .empty) ∨
    ((∀ tx held, φ'.announced? = some (tx, held) → φ.announced? = some (tx, held)) ∧
      ∀ session tx changes, step ≠ .asked (.coordinator (.canCommit session tx changes)) (.ok true)) := by
  cases h
  case announce tx steps a held hleads session => exact .inl ⟨session, tx, held, rfl, rfl, rfl⟩
  case announceFails hne session changes =>
    refine .inr ⟨nofun, ?_⟩
    rintro session tx changes ⟨⟩
    exact hne rfl
  case settle hcall a => cases hcall <;> exact .inr ⟨nofun, nofun⟩
  case look step hlook =>
    refine .inr ⟨nofun, ?_⟩
    rintro session tx changes rfl
    exact hlook
  case endIt hcall _ _ h => cases hcall <;> exact .inr ⟨nofun, nofun⟩
  case release => exact .inr ⟨fun _ _ => id, nofun⟩
  case write => exact .inr ⟨fun _ _ => id, nofun⟩
  case writeFails => exact .inr ⟨fun _ _ => id, nofun⟩
  case commit => exact .inr ⟨fun _ _ => id, nofun⟩
  all_goals exact .inr ⟨nofun, nofun⟩

/-- What has ended stays as it is. -/
theorem eq_of_ended (h : Move work (.ended tx cells) step φ') : φ' = .ended tx cells := by
  cases h <;> first | rfl | contradiction

theorem eq_of_committed {held : Participants} (h : Move work (.committed tx held) step φ') :
    φ' = .committed tx held := by
  cases h <;> first | rfl | contradiction

/-- A transaction gets committed by a commit that is answered with yes. -/
theorem commits_of_committed {held : Participants} (h : Move work φ step (.committed tx held)) :
    φ = .committed tx held ∨
      ∃ session, step = .asked (.coordinator (.commit session tx)) (.ok true) := by
  cases h
  case release => exact .inl rfl
  case commit session h => exact .inr ⟨session, rfl⟩

/-- A commit is answered with yes only if all changes are written. -/
theorem of_commit {session : Nat}
    (h : Move work φ (.asked (.coordinator (.commit session tx)) (.ok true)) φ') :
    ∃ held, φ = .writing tx held (.held held) ∧ φ' = .committed tx held := by
  cases h
  case settle hcall => cases hcall
  case look hlook => exact hlook.elim
  case commit held cells hcells => exact ⟨held, by rw [hcells], rfl⟩
  case commitFails hne => exact absurd rfl hne
  case endIt hcall => cases hcall

/-- What an execution tells the coordinator to release has none of its cells left, or is its own
transaction, which is committed then. -/
theorem releases {call : CoordinatorCall} {answer : Except StoreError call.Answer}
    (h : Move work φ (.asked (.coordinator call) answer) φ')
    (hp : Coordinator.Reply.Releases p ⟨call, answer⟩) :
    (∃ tx held, φ' = .committed tx held ∧ tx.writePointer = p) ∨
    (∃ tx, φ' = .ended tx .empty ∧ tx.writePointer = p) ∨
    ∃ orphan ∈ φ.hands, orphan.rolledBack = true ∧ orphan.tx.writePointer = p := by
  cases answer with
  | error e => exact absurd hp Coordinator.Reply.not_releases_error
  | ok a =>
    cases h
    case settle hcall =>
      cases hcall with
      | abort session hback => exact .inr (.inr ⟨_, List.mem_cons_self, hback, hp⟩)
      | invalidate session => cases hp
    case look hlook => exact hlook.elim
    case commit => exact .inl ⟨_, _, rfl, hp⟩
    case commitFails hne =>
      cases a with
      | true => exact absurd rfl hne
      | false => cases hp
    case endIt tx cells back hcells hholds hcall =>
      cases hcall with
      | abort session hback => exact .inr (.inl ⟨tx, by rw [hcells hback], hp⟩)
      | invalidate session => cases hp
    all_goals cases hp

/-- What an execution tells the coordinator to invalidate is in its hands, or is its own transaction,
which has ended then. -/
theorem condemns {call : CoordinatorCall} {answer : Except StoreError call.Answer}
    (h : Move work φ (.asked (.coordinator call) answer) φ')
    (hp : Coordinator.Reply.Condemns p ⟨call, answer⟩) :
    (∃ tx cells, φ' = .ended tx cells ∧ tx.writePointer = p) ∨
    ∃ orphan ∈ φ.hands, orphan.tx.writePointer = p := by
  cases answer with
  | error e => exact absurd hp Coordinator.Reply.not_condemns_error
  | ok a =>
    cases h
    case settle hcall =>
      cases hcall with
      | abort session hback => cases hp
      | invalidate session => exact .inr ⟨_, List.mem_cons_self, hp⟩
    case look hlook => exact hlook.elim
    case endIt tx cells back hcells hholds hcall =>
      cases hcall with
      | abort session hback => cases hp
      | invalidate session => exact .inl ⟨tx, cells, rfl, hp⟩
    all_goals cases hp

/-- What gets into the hands of an execution comes from the list. -/
theorem mem_hands {orphan : Unfinished} (h : Move work φ step φ') (horphan : orphan ∈ φ'.hands) :
    orphan ∈ φ.hands ∨ ∃ change listed, step = .asked (.unfinished change) listed ∧ orphan ∈ listed := by
  cases h
  case acquire => exact .inl horphan
  case release => exact .inl horphan
  case take change hchange listed => exact .inr ⟨change, _, rfl, horphan⟩
  case settle => exact .inl (List.mem_cons_of_mem _ horphan)
  case settleFails => exact .inl horphan
  all_goals cases horphan

/-- What gets on the list was in the hands of the execution, or is its own transaction, which has ended
then. -/
theorem mem_change {orphan : Unfinished} {change : List Unfinished → List Unfinished}
    {listed : List Unfinished} (h : Move work φ (.asked (.unfinished change) listed) φ')
    (horphan : orphan ∈ change listed) :
    orphan ∈ listed ∨ orphan ∈ φ.hands ∨
      ∃ cells, φ' = .ended orphan.tx cells ∧ (orphan.rolledBack = true → cells = .empty) := by
  cases h
  case take hchange =>
    rw [hchange] at horphan
    cases horphan
  case putBack hands hchange =>
    rw [hchange] at horphan
    exact (List.mem_append.1 horphan).imp_right .inl
  case look hlook => exact hlook.elim
  case leave tx cells rolledBack hcells hholds hchange =>
    rw [hchange] at horphan
    refine (List.mem_append.1 horphan).imp_right fun hown => .inr ?_
    rw [List.mem_singleton.1 hown]
    exact ⟨cells, rfl, hcells⟩

/-- What is in the hands of an execution stays there, goes back on the list, or is settled. -/
theorem of_mem_hands {orphan : Unfinished} (h : Move work φ step φ') (horphan : orphan ∈ φ.hands) :
    orphan ∈ φ'.hands ∨
    (∃ change listed, step = .asked (.unfinished change) listed ∧ orphan ∈ change listed) ∨
    ∃ call a, Settles orphan call ∧ step = .asked (.coordinator call) (.ok a) := by
  cases h
  case release => exact .inl horphan
  case putBack hchange listed =>
    refine .inr (.inl ⟨_, _, rfl, ?_⟩)
    rw [hchange]
    exact List.mem_append_right _ horphan
  case settle rest call hcall a =>
    rcases List.mem_cons.1 horphan with rfl | hrest
    · exact .inr (.inr ⟨call, a, hcall, rfl⟩)
    · exact .inl hrest
  case settleFails => exact .inl horphan
  case undo hholds => exact absurd horphan (by simp [hholds.hands_eq])
  case undoFails hholds => exact absurd horphan (by simp [hholds.hands_eq])
  case endIt _ _ _ hholds => exact absurd horphan (by simp [hholds.hands_eq])
  case endItFails _ _ hholds => exact absurd horphan (by simp [hholds.hands_eq])
  case leave _ _ _ hholds => exact absurd horphan (by simp [hholds.hands_eq])
  all_goals cases horphan

/-- What is taken from the list is in the hands of the execution, what is not taken stays. -/
theorem of_mem_listed {orphan : Unfinished} {change : List Unfinished → List Unfinished}
    {listed : List Unfinished} (h : Move work φ (.asked (.unfinished change) listed) φ')
    (horphan : orphan ∈ listed) : orphan ∈ φ'.hands ∨ orphan ∈ change listed := by
  cases h
  case take => exact .inl horphan
  case putBack hchange =>
    rw [hchange]
    exact .inr (List.mem_append_left _ horphan)
  case look hlook => exact hlook.elim
  case leave hchange =>
    rw [hchange]
    exact .inr (List.mem_append_left _ horphan)

/-- A transaction ends by a call that settles it, or by being put on the list. -/
theorem of_ended (h : Move work φ step (.ended tx cells)) :
    φ = .ended tx cells ∨
    (∃ rolledBack call a, Settles ⟨tx, rolledBack⟩ call ∧ step = .asked (.coordinator call) (.ok a)) ∨
    ∃ rolledBack change listed, step = .asked (.unfinished change) listed ∧
      ⟨tx, rolledBack⟩ ∈ change listed := by
  cases h
  case release => exact .inl rfl
  case endIt rolledBack call a hcall _ _ => exact .inr (.inl ⟨rolledBack, call, a, hcall, rfl⟩)
  case leave rolledBack change listed hchange _ _ =>
    refine .inr (.inr ⟨rolledBack, change, listed, rfl, ?_⟩)
    rw [hchange]
    exact List.mem_append_right _ (List.mem_singleton_self _)

/-- The cells of an execution change by its writes and its undos only. -/
theorem cells_eq (h : Move work φ step φ')
    (hstep : ∀ (call : VersionedCall) (a : call.Answer), step ≠ .asked (.store call) (.ok a)) :
    φ'.cells = φ.cells := by
  cases h
  case write => exact (hstep _ _ rfl).elim
  case commit hcells session => exact hcells.symm
  case undo => exact (hstep _ _ rfl).elim
  case undoFails hholds => exact hholds.cells_eq.symm
  case endIt hholds => exact hholds.cells_eq.symm
  case endItFails hholds => exact hholds.cells_eq.symm
  case leave hholds => exact hholds.cells_eq.symm
  all_goals rfl

/-- What an execution does to the store: it reads, writes a cell of its own, or undoes one. -/
theorem store {call : VersionedCall} {a : call.Answer}
    (h : Move work φ (.asked (.store call) (.ok a)) φ') :
    (φ'.cells = φ.cells ∧
      ((∃ table key tx, call = .read table key tx) ∨ ∃ table tx, call = .scan table tx)) ∨
    ∃ tx, φ.tx? = some tx ∧ ∃ row : Change,
      (∃ cell, call = .write row.table row.key tx.writePointer cell ∧
        φ'.cells = Function.update φ.cells row (some cell)) ∨
      (call = .undo row.table row.key tx.writePointer ∧ φ'.cells = Function.update φ.cells row none) := by
  cases h
  case look tx steps hlook =>
    refine .inl ⟨rfl, ?_⟩
    cases call with
    | read table key tx' => exact .inl ⟨table, key, tx', rfl⟩
    | scan table tx' => exact .inr ⟨table, tx', rfl⟩
    | _ => exact hlook.elim
  case write tx held cells row cell hheld => exact .inr ⟨tx, rfl, row, .inl ⟨cell, rfl, rfl⟩⟩
  case undo tx cells row hholds =>
    refine .inr ⟨tx, hholds.tx?_eq, row, .inr ⟨rfl, ?_⟩⟩
    rw [hholds.cells_eq]
    rfl

end Move

end Interleaving

end Tabular
