import Tabular.Proofs.Coordinator.Conflict
import Tabular.Proofs.Interleaving.Commits
import Tabular.Proofs.Tool.Count

/-!
# Tabular.Proofs.Interleaving.Snapshot — what units of work read

`Seeing start s φ` adds to `Sound` what transactions see: as long as nothing of it is announced, a
transaction sees the cells that were committed last when it began, and has read nothing else.  Main
statement: `snapshot_reads`.
-/

namespace Tabular.Interleaving

variable {ι : Type} [DecidableEq ι] {α : ι → Type} {works : (i : ι) → Work Elsewhere (α i)}
  {runnerOf : ι → Nat} {start : World} {s : System α} {φ : ι → Phase} {i j : ι} {w : World}
  {r : Nat} {tx : Transaction}

namespace Sound

theorem not_announced_iff {h : History ι} :
    ¬ h.Announced i ↔ ∀ step ∈ h.of i, History.announces step = false := by
  simp only [History.Announced, not_exists, not_and, Bool.not_eq_true, History.mem_of]

section Step

variable {step : Step} {φ' : Phase}

/-- What executions have committed stays what it is. -/
theorem after_update (h : Sound works start s φ) (hmove : Move (works i) (φ i) step φ') {is : List ι}
    (his : is ⊆ s.history.committers) : start.after (Function.update φ i φ') is = start.after φ is := by
  refine congrArg start.contents.overlaid (Cells.latest_congr fun j hj => ?_)
  obtain ⟨tx, held, hheld⟩ := h.mem_committers_iff.1 (his hj)
  rw [update_committed hmove hheld, hheld]

/-- A step changes nothing that a transaction sees, unless it is a write or an undo of its own. -/
theorem row?_step (h : Sound works start s φ) {program : (i : ι) → Program (Except StoreError (α i))}
    {history : History ι} (h' : Sound works start ⟨w, program, history⟩ (Function.update φ i φ'))
    (hmove : Move (works i) (φ i) step φ') (hadmits : s.world.Admits r step w)
    (hj : (φ j).tx? = some tx) (hcells : j = i → φ'.cells = (φ i).cells) (row : Change) :
    w.store.row? row tx = s.world.store.row? row tx := by
  refine VersionedStore.row?_congr fun q cell => and_congr_left fun hvisible => ?_
  suffices hsame : w.store.cell? row q = s.world.store.cell? row q by rw [hsame]
  by_cases hq : ∃ own, (φ i).tx? = some own ∧ own.writePointer = q
  · obtain ⟨own, hown, rfl⟩ := hq
    have hcells : φ'.cells = (φ i).cells := by
      by_cases hji : j = i
      · exact hcells hji
      · -- what another transaction sees of an execution is released, so the execution is over
        have hne : own.writePointer ≠ tx.writePointer :=
          fun heq => hji (h.distinct j i tx own hj hown heq.symm)
        have hreleased : s.history.log.Released own.writePointer := by
          by_contra hnot
          rw [h.reveals.unseen ((h.handedOut tx).2 ⟨j, hj⟩) (h.began hown) hnot hne] at hvisible
          cases hvisible
        rcases h.committed_or_ended hown hreleased with ⟨held, hi⟩ | hi
        · rw [hi] at hmove ⊢
          rw [hmove.eq_of_committed]
        · rw [hi] at hmove ⊢
          rw [hmove.eq_of_ended]
    have hstored := h'.stored i own (tx?_update hmove hown) row
    rw [Function.update_self, hcells] at hstored
    exact hstored.trans (h.stored i own hown row).symm
  · rcases (store_step hadmits hmove).2 with ⟨hstore, -⟩ | ⟨own, set, cell, hown, -, hstore⟩
    · rw [hstore]
    · rw [hstore, if_neg]
      exact fun hboth => hq ⟨own, hown, hboth.2.symm⟩

end Step

end Sound

/-- How what transactions see depends on what was committed when they began. -/
structure Seeing (works : (i : ι) → Work Elsewhere (α i)) (start : World) (s : System α)
    (φ : ι → Phase) : Prop extends Sound works start s φ where
  /-- Until its changes are announced a transaction sees what had been committed when it began. -/
  snapshot : ∀ i tx, (φ i).tx? = some tx → ¬ s.history.Announced i → ∀ row,
    s.world.store.row? row tx = start.after φ (s.history.before i) row
  /-- It reads nothing else. -/
  answered : ∀ i table key tx answer,
    (i, .asked (.store (.read table key tx)) (.ok answer)) ∈ s.history →
      (φ i).tx? = some tx ∧ answer = start.after φ (s.history.before i) ⟨table, key⟩

namespace Seeing

theorem of_quiet (h : w.Quiet) : Seeing works w (.start works w) fun _ => .idle [] where
  toSound := .start works h
  snapshot _ _ h := nomatch h
  answered _ _ _ _ _ h := nomatch h

section Step

variable {step : Step} {φ' : Phase}

theorem snapshot_step (h : Seeing works start s φ)
    {program : (i : ι) → Program (Except StoreError (α i))}
    (h' : Sound works start ⟨w, program, (i, step) :: s.history⟩ (Function.update φ i φ'))
    (hmove : Move (works i) (φ i) step φ') (hadmits : s.world.Admits r step w)
    (hj : (Function.update φ i φ' j).tx? = some tx)
    (hannounced : ¬ History.Announced ((i, step) :: s.history) j) (row : Change) :
    w.store.row? row tx =
      start.after (Function.update φ i φ') (History.before j ((i, step) :: s.history)) row := by
  have hnot : ¬ s.history.Announced j := fun ⟨step, hmem, hstep⟩ =>
    hannounced ⟨step, List.mem_cons_of_mem _ hmem, hstep⟩
  have hkeep := h.after_update hmove (History.before_suffix j s.history).subset
  rcases Sound.update_tx? hmove with ⟨session, new, rfl, hi, rfl⟩ | ⟨hsame, hbegin⟩
  · rw [hadmits.store_eq nofun]
    by_cases hji : j = i
    · subst hji
      rw [Function.update_self] at hj
      cases hj
      rw [History.before_cons_begin, h.after_update hmove (List.Subset.refl _)]
      cases hadmits with
      | leave hleaves => exact hleaves.elim
      | coordinator now hanswer =>
        rw [(Coordinator.respond_begin_eq_ok hanswer).1]
        exact h.row?_begin now row
    · rw [Function.update_of_ne hji] at hj
      rw [History.before_cons fun hij => (hji hij.symm).elim, hkeep]
      exact h.snapshot j tx hj hnot row
  · rw [hsame] at hj
    rw [History.before_cons fun _ => hbegin, hkeep, ← h.snapshot j tx hj hnot row]
    refine h.row?_step h' hmove hadmits hj ?_ row
    rintro rfl
    have hempty := ((h.conduct j).cells_eq_empty (Sound.not_announced_iff.1 hnot)).1
    have hempty' := ((h'.conduct j).cells_eq_empty (Sound.not_announced_iff.1 hannounced)).1
    rw [Function.update_self] at hempty'
    rw [hempty, hempty']

theorem answered_step (h : Seeing works start s φ) (hmove : Move (works i) (φ i) step φ')
    (hadmits : s.world.Admits r step w) {table : String} {key : RowKey} {answer : Option Row}
    (hmem : (j, .asked (.store (.read table key tx)) (.ok answer)) ∈ (i, step) :: s.history) :
    (Function.update φ i φ' j).tx? = some tx ∧
      answer = start.after (Function.update φ i φ') (History.before j ((i, step) :: s.history))
        ⟨table, key⟩ := by
  have hkeep := h.after_update hmove (History.before_suffix j s.history).subset
  rcases List.mem_cons.1 hmem with heq | hmem
  · cases heq
    rw [History.before_cons (by simp), hkeep, Function.update_self]
    have hread := (VersionedStore.perform_read hadmits.perform_eq).2
    generalize hφ : φ i = phase at hmove
    cases hmove
    case look own inner hlook =>
      have htx : tx = own := hlook
      subst htx
      have hconduct := h.conduct i
      rw [hφ] at hconduct
      have hnot := Sound.not_announced_iff.2 hconduct.not_announces_of_working
      rw [hread]
      exact ⟨rfl, h.snapshot i tx (by rw [hφ]; rfl) hnot _⟩
  · obtain ⟨hj, hanswer⟩ := h.answered j table key tx answer hmem
    rw [History.before_cons, hkeep]
    · exact ⟨Sound.tx?_update hmove hj, hanswer⟩
    · -- an execution that has read something does not begin any more
      rintro rfl
      rcases Sound.update_tx? hmove with ⟨-, -, -, hi, -⟩ | ⟨-, hbegin⟩
      · rw [hi] at hj
        cases hj
      · exact hbegin

end Step

/-- Every step of an execution keeps what transactions see. -/
theorem step (h : Seeing works start s φ) {step : Step} {p : Program (Except StoreError (α i))}
    (htakes : (s.program i).Takes step p) (hadmits : s.world.Admits r step w) :
    ∃ φ', Move (works i) (φ i) step φ' ∧
      Seeing works start ⟨w, Function.update s.program i p, (i, step) :: s.history⟩
        (Function.update φ i φ') := by
  obtain ⟨φ', hmove, hsound⟩ := h.toSound.step htakes hadmits
  refine ⟨φ', hmove, { toSound := hsound, snapshot := ?_, answered := ?_ }⟩
  · exact fun j tx hj hannounced row => h.snapshot_step hsound hmove hadmits hj hannounced row
  · exact fun j table key tx answer hmem => h.answered_step hmove hadmits hmem

theorem reach (h : Seeing works start s φ) (available : Bool) :
    Seeing works start
      { s with world := { s.world with coordinator := { s.world.coordinator with available } } } φ where
  toSound := h.toSound.reach available
  snapshot := h.snapshot
  answered := h.answered

/-- Along a run transactions go on seeing the same, and what was committed before stays what it is. -/
theorem reaches {s' : System α} (h : Seeing works start s φ) (hs : System.Reaches runnerOf s s') :
    ∃ ψ, Seeing works start s' ψ ∧ s.history <:+ s'.history ∧
      ∀ i tx held, φ i = .committed tx held → ψ i = .committed tx held := by
  induction hs with
  | refl => exact ⟨φ, h, List.suffix_rfl, fun _ _ _ => id⟩
  | tail _ hnext ih =>
    obtain ⟨ψ, hψ, hhistory, hstays⟩ := ih
    cases hnext with
    | step i htakes hadmits =>
      obtain ⟨φ', hmove, hstep⟩ := hψ.step htakes hadmits
      refine ⟨_, hstep, hhistory.trans (List.suffix_cons _ _), fun j tx held hj => ?_⟩
      exact Sound.update_committed hmove (hstays j tx held hj)
    | reach available => exact ⟨ψ, hψ.reach available, hhistory, hstays⟩

end Seeing

/-- **Units of work read from a snapshot.**  Take any executions over one coordinator and one store,
interleaved in any way, with whatever failures.  While nothing of a transaction is announced, a read with
its snapshot answers the cell that was held back for the row by the last one to commit of those that had
committed when the transaction began, or what there was in the beginning if none of them wrote the row;
whatever happens meanwhile, this does not change.  The cell with the largest write pointer is the one that
was committed last: of two transactions that committed a cell of the same row, the later one has the larger
write pointer. -/
theorem snapshot_reads (hstart : start.Quiet) (hs : System.Reaches runnerOf (.start works start) s) :
    ∃ held : ι → Participants,
      (∀ i ∈ s.history.committers, ∃ tx, s.history.Began i tx ∧
        History.Buffered (works i) (s.history.of i) tx (held i)) ∧
      (∀ i tx, s.history.Began i tx → s.history.before i <:+ s.history.committers ∧
        ∀ s', System.Reaches runnerOf s s' → ¬ s'.history.Announced i →
          ∀ table key, table ∈ start.store.tables →
            s'.world.store.perform (.read table key tx) =
              .ok (start.contents.overlaid (.latest (fun j => .held (held j)) (s.history.before i))
                ⟨table, key⟩, s'.world.store)) ∧
      s.history.committers.Pairwise fun newer older => ∀ tx tx' row, s.history.Began newer tx →
        s.history.Began older tx' → (Cells.held (held newer) row).isSome →
          (Cells.held (held older) row).isSome → tx'.writePointer < tx.writePointer := by
  obtain ⟨φ, h, -⟩ := (Seeing.of_quiet hstart).reaches hs
  refine ⟨fun i => (φ i).held, fun i hi => h.buffered_held hi,
    fun i tx hbegan => ⟨History.before_suffix i _, ?_⟩, ?_⟩
  · intro s' hs' hannounced table key htable
    obtain ⟨ψ, h', ⟨later, hhistory⟩, hstays⟩ := h.reaches hs'
    have hbefore := h'.before_eq hhistory.symm hbegan
    have hsubset := (History.before_suffix i s.history).subset
    have hkeep : start.after ψ (s.history.before i) = start.after φ (s.history.before i) := by
      refine congrArg start.contents.overlaid (Cells.latest_congr fun j hj => ?_)
      obtain ⟨tx, held, hheld⟩ := h.mem_committers_iff.1 (hsubset hj)
      rw [hheld, hstays j tx held hheld]
    have hbegan' : s'.history.Began i tx := by
      obtain ⟨session, hmem⟩ := hbegan
      exact ⟨session, hhistory ▸ List.mem_append_right _ hmem⟩
    rw [VersionedStore.perform_read_of_mem key ((h'.tables table).2 htable),
      h'.snapshot i tx (h'.began_iff.1 hbegan') hannounced, hbefore, hkeep, h.after_eq hsubset]
  · refine h.ordered.imp_of_mem ?_
    intro newer older hnewer holder hordered tx tx' row htx htx' hrow hrow'
    rw [h.cells_eq_held hnewer, h.cells_eq_held holder] at hordered
    exact hordered tx tx' row (h.began_iff.1 htx) (h.began_iff.1 htx') hrow hrow'

/-! ### Two increments that overlap -/

open Coordinator (firstTx)

/-- The transaction that begins after `firstTx`. -/
def secondTx : Transaction :=
  ((Coordinator.play { timeoutMs := 30000 } [.call 0 (.begin 1)]).state.begin 0).1

theorem writePointer_secondTx : secondTx.writePointer = 2 := by
  simp [secondTx, Coordinator.play, Coordinator.respond, Coordinator.perform, Coordinator.onSession,
    Coordinator.begin, Coordinator.expire_zero]

/-- Two executions that add one to the same counter, each of which has read the counter before the other
writes it.  One commits, and later the other one is refused. -/
theorem increments_overlap : ∃ s : System fun _ : Bool => Unit,
    System.Reaches Bool.toNat (.start (fun _ => Tool.increment "visits") (.fresh Tool.counters)) s ∧
      (s.history.Began false secondTx ∧ ¬ s.history.Announced false ∧ s.history.before false = [] ∧
        s.history.committers = [true]) ∧
      ∃ t, System.Reaches Bool.toNat s t ∧
        (∀ i, ∃ r, t.program i = .done r) ∧ t.program true = .done (.ok ()) ∧
          t.history.committers = [true] := by
  refine System.exists_reaches_of_ask true .acquire (.ok 1) rfl (.leave trivial) ?_
  refine System.exists_reaches_of_ask true (.unfinished _) [] rfl (.unfinished _) ?_
  refine System.exists_reaches_of_ask true (.coordinator (.begin 1)) (.ok firstTx) rfl
    (.coordinator 0 rfl) ?_
  refine System.exists_reaches_of_ask true (.find "counters") (.ok ⟨Tool.counters, rfl⟩) rfl
    (.leave rfl) ?_
  -- an increment reads its row twice: itself, and when the new row is laid over it
  iterate 2
    refine System.exists_reaches_of_ask true (.store (.read "counters" _ _)) (.ok none) rfl
      (.store rfl) ?_
  refine System.exists_reaches_of_ask false .acquire (.ok 2) rfl (.leave trivial) ?_
  refine System.exists_reaches_of_ask false (.unfinished _) [] rfl (.unfinished _) ?_
  refine System.exists_reaches_of_ask false (.coordinator (.begin 2)) (.ok secondTx) rfl
    (.coordinator 0 rfl) ?_
  refine System.exists_reaches_of_ask false (.find "counters") (.ok ⟨Tool.counters, rfl⟩) rfl
    (.leave rfl) ?_
  iterate 2
    refine System.exists_reaches_of_ask false (.store (.read "counters" _ _)) (.ok none) rfl
      (.store rfl) ?_
  refine System.exists_reaches_of_ask true (.coordinator (.canCommit 1 _ _)) (.ok true) rfl
    (.coordinator 0 (Coordinator.respond_firstTx _).1) ?_
  refine System.exists_reaches_of_ask true (.store (.write "counters" _ _ _)) (.ok ()) rfl
    (.store rfl) ?_
  refine System.exists_reaches_of_ask true (.coordinator (.commit 1 _)) (.ok true) rfl
    (.coordinator 0 (Coordinator.respond_firstTx _).2) ?_
  refine System.exists_reaches_of_ask true (.release 1 true) () rfl (.leave trivial) ?_
  refine ⟨_, .refl, ⟨⟨2, ?_⟩, ?_, rfl, rfl⟩, ?_⟩
  · iterate 7 refine .tail _ ?_
    exact .head _
  · refine Sound.not_announced_iff.2 ?_
    iterate 6 refine List.forall_mem_cons.2 ⟨rfl, ?_⟩
    exact List.forall_mem_nil _
  · refine System.exists_reaches_of_ask false (.coordinator (.canCommit 2 _ _)) (.ok false) rfl
      (.coordinator 0 (congrArg Prod.fst
        (Coordinator.respond_overlapping writePointer_secondTx (by decide +kernel)))) ?_
    refine System.exists_reaches_of_ask false (.coordinator (.abort 2 _)) (.ok ()) rfl
      (.coordinator 0
        (Coordinator.respond_abort_overlapping writePointer_secondTx (by decide +kernel))) ?_
    refine System.exists_reaches_of_ask false (.release 2 true) () rfl (.leave trivial) ?_
    refine ⟨_, .refl, ?_, rfl, rfl⟩
    rintro (_ | _) <;> exact ⟨_, rfl⟩

/-- A transaction that began before another one committed goes on seeing nothing of it. -/
theorem snapshot_reads_overlapping : ∃ s : System fun _ : Bool => Unit,
    System.Reaches Bool.toNat (.start (fun _ => Tool.increment "visits") (.fresh Tool.counters)) s ∧
      s.history.committers = [true] ∧
        s.world.store.perform (.read "counters" (Tool.counterKey "visits") secondTx) =
          .ok (none, s.world.store) := by
  obtain ⟨s, hs, ⟨hbegan, hannounced, hbefore, hcommitters⟩, -⟩ := increments_overlap
  obtain ⟨held, -, hreads, -⟩ := snapshot_reads (World.quiet_fresh Tool.counters) hs
  have htable : "counters" ∈ (World.fresh Tool.counters).store.tables := by
    simp [World.fresh, Tool.counters]
  have hread := (hreads false secondTx hbegan).2 s .refl hannounced "counters"
    (Tool.counterKey "visits") htable
  rw [hbefore] at hread
  exact ⟨s, hs, hcommitters, hread⟩

end Tabular.Interleaving
