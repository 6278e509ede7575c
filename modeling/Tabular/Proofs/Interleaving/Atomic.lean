import Tabular.Proofs.Interleaving.Sound
import Tabular.Proofs.Work.Samples

/-!
# Tabular.Proofs.Interleaving.Atomic — executions are all or nothing

Main statement: `execution_atomic`.  In every interleaving, with whatever failures, an execution that
answers a value has left all its changes in the store and in sight, and one that answers an error has
left nothing that anyone else can see.
-/

namespace Tabular.Interleaving

open Samples (accounts closing)

variable {ι : Type} [DecidableEq ι] {α : ι → Type} {works : (i : ι) → Work Elsewhere (α i)}
  {runnerOf : ι → Nat} {start : World} {s : System α} {φ : ι → Phase} {i : ι} {tx : Transaction}

namespace Sound

theorem began_iff (h : Sound works start s φ) : s.history.Began i tx ↔ (φ i).tx? = some tx := by
  rw [← (h.conduct i).began_iff]
  exact exists_congr fun session => History.mem_of.symm

/-- What is committed is in sight of every transaction that begins from then on. -/
theorem isVisible_of_committed (h : Sound works start s φ) {held : Participants}
    (hi : φ i = .committed tx held) (now : Nat) :
    (s.world.coordinator.begin now).1.isVisible tx.writePointer = true := by
  have hcommitted := h.committed i tx held hi
  obtain ⟨hlt, hended⟩ := h.tracks.ended hcommitted
  have hnot : ¬ s.history.log.Condemned tx.writePointer := by
    intro hcondemned
    obtain ⟨j, tx', cells, htx, hj⟩ := h.condemned _ hcondemned
    have hji : j = i := h.distinct j i tx' tx (by rw [hj]; rfl) (by rw [hi]; rfl) htx
    rw [← hji, hj] at hi
    cases hi
  rw [Coordinator.isVisible_begin]
  exact .inr ⟨by omega, h.reveals.shown hcommitted hnot, hended⟩

/-- A transaction that is released has committed, or has ended without a cell in the store. -/
theorem committed_or_ended (h : Sound works start s φ) (hi : (φ i).tx? = some tx)
    (hreleased : s.history.log.Released tx.writePointer) :
    (∃ held, φ i = .committed tx held) ∨ φ i = .ended tx .empty := by
  obtain ⟨j, tx', htx, hj⟩ := h.released _ hreleased
  have htx' : (φ j).tx? = some tx' := by
    rcases hj with ⟨held, hj⟩ | hj <;> rw [hj] <;> rfl
  have hji : j = i := h.distinct j i tx' tx htx' hi htx
  subst hji
  rw [hi] at htx'
  cases htx'
  exact hj

/-- A transaction that did not commit and has a cell left in the store is not released. -/
theorem not_released (h : Sound works start s φ) (hi : (φ i).tx? = some tx)
    (hcommitted : ∀ tx held, φ i ≠ .committed tx held) {row : Change} (hrow : ((φ i).cells row).isSome) :
    ¬ s.history.log.Released tx.writePointer := by
  intro hreleased
  rcases h.committed_or_ended hi hreleased with ⟨held, hi'⟩ | hi'
  · exact hcommitted tx held hi'
  · rw [hi'] at hrow
    cases hrow

/-- What is not released is hidden from every other transaction, also from those to come. -/
theorem hidden_of_not_released (h : Sound works start s φ) (hi : (φ i).tx? = some tx)
    (hnot : ¬ s.history.log.Released tx.writePointer) :
    (tx.writePointer ∈ s.world.coordinator.inProgress ∨ tx.writePointer ∈ s.world.coordinator.invalid) ∧
      (∀ j tx', j ≠ i → (φ j).tx? = some tx' → tx'.isVisible tx.writePointer = false) ∧
      ∀ now, (s.world.coordinator.begin now).1.isVisible tx.writePointer = false := by
  have hbegan := h.began hi
  have hhidden := h.reveals.hidden hbegan hnot
  refine ⟨hhidden, fun j tx' hji hj => ?_, fun now => ?_⟩
  · have hne : tx.writePointer ≠ tx'.writePointer :=
      fun heq => hji (h.distinct j i tx' tx hj hi heq.symm)
    exact h.reveals.unseen ((h.handedOut tx').2 ⟨j, hj⟩) hbegan hnot hne
  · have hlt := h.tracks.began_lt hbegan
    rw [Bool.eq_false_iff, Ne, Coordinator.isVisible_begin]
    rintro (heq | ⟨-, hvalid, hended⟩)
    · omega
    · exact hhidden.elim hended hvalid

end Sound

/-- **Executions are all or nothing.**  Take any number of executions of any runners over one coordinator
and one store, interleaved in any way, while the store may fail at any time, the coordinator may come and
go, and transactions expire.  If an execution answers a value, the store holds exactly the changes of its
unit of work at its version, and a transaction that begins sees them.  If it answers an error, a cell that
is left at its version is in progress or invalid, and no transaction but its own sees it, whenever that
began.  Before its changes were announced, the store holds no cell of it. -/
theorem execution_atomic (hstart : start.Quiet) (hs : System.Reaches runnerOf (.start works start) s)
    (i : ι) :
    (∀ a, s.program i = .done (.ok a) → ∃ tx held, s.history.Began i tx ∧
      History.Buffered (works i) (s.history.of i) tx held ∧
      (∀ row, s.world.store.cell? row tx.writePointer = Cells.held held row) ∧
      ∀ now, (s.world.coordinator.begin now).1.isVisible tx.writePointer = true) ∧
    (∀ e tx row, s.program i = .done (.error e) → s.history.Began i tx →
      (s.world.store.cell? row tx.writePointer).isSome →
      (tx.writePointer ∈ s.world.coordinator.inProgress ∨
        tx.writePointer ∈ s.world.coordinator.invalid) ∧
      (∀ j tx', j ≠ i → s.history.Began j tx' → tx'.isVisible tx.writePointer = false) ∧
      ∀ now, (s.world.coordinator.begin now).1.isVisible tx.writePointer = false) ∧
    ∀ tx row, s.history.Began i tx → ¬ s.history.Announced i →
      s.world.store.cell? row tx.writePointer = none := by
  obtain ⟨φ, h⟩ := sound_of_reaches hstart hs
  have hfinal := h.obeys i
  refine ⟨fun a hdone => ?_, fun e tx row hdone hbegan hrow => ?_, fun tx row hbegan hnot => ?_⟩
  · rw [hdone] at hfinal
    obtain ⟨tx, held, hi⟩ := hfinal
    have htx : (φ i).tx? = some tx := by rw [hi]; rfl
    have hconduct := h.conduct i
    rw [hi] at hconduct
    refine ⟨tx, held, h.began_iff.2 htx, hconduct.buffered, fun row => ?_, h.isVisible_of_committed hi⟩
    rw [h.stored i tx htx row, hi]
    rfl
  · rw [hdone] at hfinal
    have htx := h.began_iff.1 hbegan
    have hcommitted : ∀ tx held, φ i ≠ .committed tx held := by
      intro tx held hi
      rcases hfinal with hi' | ⟨tx', cells, hi'⟩ <;> rw [hi] at hi' <;> cases hi'
    rw [h.stored i tx htx row] at hrow
    obtain ⟨hhidden, hothers, hnow⟩ := h.hidden_of_not_released htx (h.not_released htx hcommitted hrow)
    exact ⟨hhidden, fun j tx' hji hj => hothers j tx' hji (h.began_iff.1 hj), hnow⟩
  · have htx := h.began_iff.1 hbegan
    have hsteps : ∀ step ∈ s.history.of i, History.announces step = false := by
      intro step hmem
      rw [Bool.eq_false_iff]
      exact fun hstep => hnot ⟨step, History.mem_of.1 hmem, hstep⟩
    rw [h.stored i tx htx row, ((h.conduct i).cells_eq_empty hsteps).1]
    rfl

/-! ### An execution that runs alone -/

/-- A world with one empty table, where nothing has happened yet. -/
def World.fresh (schema : TableSchema) : World where
  coordinator := { timeoutMs := 30000 }
  store := { tables := (∅ : Std.ExtTreeMap String VersionedTable).insert schema.name ∅ }
  schemas table := if h : schema.name = table then some ⟨schema, h⟩ else none
  unfinished _ := []

theorem World.quiet_fresh (schema : TableSchema) : (World.fresh schema).Quiet where
  coordinator := ⟨by simp [fresh], by simp [fresh], by simp [fresh], by simp [fresh]⟩
  stored_lt row p h := by
    simp only [fresh, VersionedStore.cell?, VersionedStore.versions, Std.ExtTreeMap.getD_insert] at h
    split at h <;> simp [VersionedTable.versions] at h
  settled _ := rfl

theorem closing_commits : ∃ s : System fun _ : Unit => Unit,
    System.Reaches (fun _ => 0) (.start (fun _ => closing) (.fresh accounts)) s ∧
      s.program () = .done (.ok ()) := by
  refine System.exists_reaches_of_ask () .acquire (.ok 1) rfl (.leave trivial) ?_
  refine System.exists_reaches_of_ask () (.unfinished _) _ rfl (.unfinished _) ?_
  refine System.exists_reaches_of_ask () (.coordinator (.begin 1)) _ rfl (.coordinator 0 rfl) ?_
  refine System.exists_reaches_of_ask () (.find "accounts") (.ok ⟨accounts, rfl⟩) rfl (.leave rfl) ?_
  refine System.exists_reaches_of_ask () (.coordinator (.canCommit 1 _ _)) (.ok true) rfl
    (.coordinator 0 rfl) ?_
  refine System.exists_reaches_of_ask () (.store (.write "accounts" _ _ none)) (.ok ()) rfl
    (.store rfl) ?_
  refine System.exists_reaches_of_ask () (.coordinator (.commit 1 _)) (.ok true) rfl
    (.coordinator 0 rfl) ?_
  refine System.exists_reaches_of_ask () (.release 1 true) () rfl (.leave trivial) ?_
  exact ⟨_, .refl, rfl⟩

/-- The same execution when the coordinator is lost before the commit and the cell cannot be undone. -/
theorem closing_breaks : ∃ s : System fun _ : Unit => Unit,
    System.Reaches (fun _ => 0) (.start (fun _ => closing) (.fresh accounts)) s ∧
      (∃ e, s.program () = .done (.error e)) ∧
      ∃ tx row, s.history.Began () tx ∧ (s.world.store.cell? row tx.writePointer).isSome := by
  refine System.exists_reaches_of_ask () .acquire (.ok 1) rfl (.leave trivial) ?_
  refine System.exists_reaches_of_ask () (.unfinished _) _ rfl (.unfinished _) ?_
  refine System.exists_reaches_of_ask () (.coordinator (.begin 1)) _ rfl (.coordinator 0 rfl) ?_
  refine System.exists_reaches_of_ask () (.find "accounts") (.ok ⟨accounts, rfl⟩) rfl (.leave rfl) ?_
  refine System.exists_reaches_of_ask () (.coordinator (.canCommit 1 _ _)) (.ok true) rfl
    (.coordinator 0 rfl) ?_
  refine System.exists_reaches_of_ask () (.store (.write "accounts" _ _ none)) (.ok ()) rfl
    (.store rfl) ?_
  refine System.exists_reaches_of_reach false ?_
  refine System.exists_reaches_of_ask () (.coordinator (.commit 1 _)) _ rfl (.coordinator 0 rfl) ?_
  refine System.exists_reaches_of_ask () (.store (.undo "accounts" _ _)) (.error (.connection "lost")) rfl
    (.leave trivial) ?_
  refine System.exists_reaches_of_ask () (.unfinished _) _ rfl (.unfinished _) ?_
  refine System.exists_reaches_of_ask () (.release 1 false) () rfl (.leave trivial) ?_
  refine ⟨_, .refl, ⟨_, rfl⟩, ((World.fresh accounts).coordinator.begin 0).1,
    ⟨"accounts", ⟨[.integer 7]⟩⟩, ⟨1, ?_⟩, rfl⟩
  iterate 7 refine .tail _ ?_
  exact .head _

/-- The cell of an execution that committed is in sight, the cell that a broken one left is not. -/
theorem execution_atomic_closing :
    (∃ (s : System fun _ : Unit => Unit) (tx : Transaction),
      System.Reaches (fun _ => 0) (.start (fun _ => closing) (.fresh accounts)) s ∧
        s.history.Began () tx ∧
          ∀ now, (s.world.coordinator.begin now).1.isVisible tx.writePointer = true) ∧
    ∃ (s : System fun _ : Unit => Unit) (tx : Transaction) (row : Change),
      System.Reaches (fun _ => 0) (.start (fun _ => closing) (.fresh accounts)) s ∧
        (s.world.store.cell? row tx.writePointer).isSome ∧
        ∀ now, (s.world.coordinator.begin now).1.isVisible tx.writePointer = false := by
  constructor
  · obtain ⟨s, hs, hdone⟩ := closing_commits
    obtain ⟨hok, -⟩ := execution_atomic (World.quiet_fresh accounts) hs ()
    obtain ⟨tx, held, hbegan, -, -, hvisible⟩ := hok () hdone
    exact ⟨s, tx, hs, hbegan, hvisible⟩
  · obtain ⟨s, hs, ⟨e, hdone⟩, tx, row, hbegan, hrow⟩ := closing_breaks
    obtain ⟨-, herror, -⟩ := execution_atomic (World.quiet_fresh accounts) hs ()
    obtain ⟨-, -, hhidden⟩ := herror e tx row hdone hbegan hrow
    exact ⟨s, tx, row, hs, hrow, hhidden⟩

end Tabular.Interleaving
