import Tabular.Proofs.Coordinator.Order
import Tabular.Proofs.Interleaving.Atomic

/-!
# Tabular.Proofs.Interleaving.Commits — what was committed, in the order of the commits

`Cells.latest` are the cells that were written last in a list of executions, the latest of which comes
first.  Main statements: `Sound.ordered`, of two executions that committed a cell of the same row the
later one has the larger write pointer, and `Sound.row?_begin`, a transaction that begins sees the cells
that were committed last.
-/

namespace Tabular

/-- The cells that were written last, where the latest to write comes first. -/
def Cells.latest {ι : Type} (writes : ι → Cells) (is : List ι) : Cells :=
  fun row => is.findSome? fun i => writes i row

theorem Cells.latest_congr {ι : Type} {writes writes' : ι → Cells} {is : List ι}
    (h : ∀ i ∈ is, writes i = writes' i) : latest writes is = latest writes' is := by
  funext row
  induction is with
  | nil => rfl
  | cons i is ih =>
    have hhead := h i List.mem_cons_self
    have htail := ih fun j hj => h j (List.mem_cons_of_mem _ hj)
    simp only [latest, List.findSome?_cons] at htail ⊢
    rw [hhead, htail]

namespace Interleaving

open Coordinator (Log)

/-- What a transaction that begins in a world sees. -/
def World.contents (w : World) : Contents := fun row => w.store.row? row (w.coordinator.begin 0).1

/-- The contents of a world after executions committed their cells, the latest of which comes first. -/
def World.after {ι : Type} (w : World) (φ : ι → Phase) (is : List ι) : Contents :=
  w.contents.overlaid (.latest (fun i => (φ i).cells) is)

variable {ι : Type} [DecidableEq ι] {α : ι → Type} {works : (i : ι) → Work Elsewhere (α i)}
  {start : World} {s : System α} {φ : ι → Phase} {i j k : ι} {tx : Transaction} {held : Participants}
  {row : Change} {later between earlier : History ι}

namespace Sound

/-! ### Who committed, and what -/

theorem committed_of_mem (h : Sound works start s φ) {session : Nat}
    (hmem : (i, .asked (.coordinator (.commit session tx)) (.ok true)) ∈ s.history) :
    ∃ held, φ i = .committed tx held :=
  (h.conduct i).commit_mem_iff.1 ⟨session, History.mem_of.2 hmem⟩

theorem committed_of_head (h : Sound works start s φ) {session : Nat}
    (hhistory : s.history =
      later ++ (i, .asked (.coordinator (.commit session tx)) (.ok true)) :: earlier) :
    ∃ held, φ i = .committed tx held := by
  have hmem : (i, .asked (.coordinator (.commit session tx)) (.ok true)) ∈ s.history := by
    rw [hhistory]
    exact List.mem_append_right _ List.mem_cons_self
  exact h.committed_of_mem hmem

theorem mem_committers_iff (h : Sound works start s φ) :
    i ∈ s.history.committers ↔ ∃ tx held, φ i = .committed tx held := by
  rw [History.mem_committers]
  constructor
  · rintro ⟨session, tx, hmem⟩
    exact ⟨tx, h.committed_of_mem hmem⟩
  · rintro ⟨tx, hheld⟩
    obtain ⟨session, hmem⟩ := (h.conduct i).commit_mem_iff.2 hheld
    exact ⟨session, tx, History.mem_of.1 hmem⟩

/-- Of the executions that have ended, those committed that answered a value. -/
theorem mem_committers_iff_of_done (h : Sound works start s φ) {result : Except StoreError (α i)}
    (hdone : s.program i = .done result) : i ∈ s.history.committers ↔ ∃ a, result = .ok a := by
  have hfinal := h.obeys i
  rw [hdone] at hfinal
  rw [h.mem_committers_iff]
  cases result with
  | ok a => exact ⟨fun _ => ⟨a, rfl⟩, fun _ => hfinal⟩
  | error e =>
    refine ⟨?_, nofun⟩
    rintro ⟨tx, held, hi⟩
    rcases hfinal with hi' | ⟨tx', cells, hi'⟩ <;> rw [hi] at hi' <;> cases hi'

/-- A committer is found in the history with the commit of its transaction. -/
theorem exists_commit (h : Sound works start s φ) {part : History ι} (hpart : part ⊆ s.history)
    (hi : i ∈ part.committers) : ∃ later session earlier tx held, φ i = .committed tx held ∧
      part = later ++ (i, .asked (.coordinator (.commit session tx)) (.ok true)) :: earlier := by
  obtain ⟨session, tx, hmem⟩ := History.mem_committers.1 hi
  obtain ⟨held, hheld⟩ := h.committed_of_mem (hpart hmem)
  obtain ⟨later, earlier, heq⟩ := List.append_of_mem hmem
  exact ⟨later, session, earlier, tx, held, hheld, heq⟩

/-- What a committed transaction had announced are the rows that it has cells of. -/
theorem mem_recorded_iff (h : Sound works start s φ) (hi : φ i = .committed tx held) :
    row ∈ s.history.log.recorded tx.writePointer ↔ ((φ i).cells row).isSome := by
  have hconduct := h.conduct i
  rw [hi] at hconduct
  obtain ⟨_, _, _, _, _, -, hleads⟩ := hconduct.buffered
  rw [h.recorded i tx held (by rw [hi]; rfl), (fresh_of_leads hleads).mem_changeSet_iff, hi]
  rfl

theorem meets_recorded (h : Sound works start s φ) {tx' : Transaction} {held' : Participants}
    (hi : φ i = .committed tx held) (hj : φ j = .committed tx' held') (hirow : ((φ i).cells row).isSome)
    (hjrow : ((φ j).cells row).isSome) :
    ChangeSet.meets (s.history.log.recorded tx.writePointer)
      (s.history.log.recorded tx'.writePointer) = true :=
  ChangeSet.meets_eq_true_iff.2 ⟨row, (h.mem_recorded_iff hi).2 hirow, (h.mem_recorded_iff hj).2 hjrow⟩

/-- The cells of a committer are those that its transaction held back. -/
theorem cells_eq_held (h : Sound works start s φ) (hi : i ∈ s.history.committers) :
    (φ i).cells = .held (φ i).held := by
  obtain ⟨tx, held, hheld⟩ := h.mem_committers_iff.1 hi
  rw [hheld]
  rfl

/-- The transaction of a committer ended well with what it held back. -/
theorem buffered_held (h : Sound works start s φ) (hi : i ∈ s.history.committers) :
    ∃ tx, s.history.Began i tx ∧ History.Buffered (works i) (s.history.of i) tx (φ i).held := by
  obtain ⟨tx, held, hheld⟩ := h.mem_committers_iff.1 hi
  have hconduct := h.conduct i
  rw [hheld] at hconduct ⊢
  exact ⟨tx, h.began_iff.2 (by rw [hheld]; rfl), hconduct.buffered⟩

theorem after_eq (h : Sound works start s φ) {is : List ι} (his : is ⊆ s.history.committers) :
    start.after φ is = start.contents.overlaid (.latest (fun i => .held (φ i).held) is) := by
  exact congrArg start.contents.overlaid (Cells.latest_congr fun i hi => h.cells_eq_held (his hi))

/-- An execution begins once, so what had been committed then is told by the history up to any time
after. -/
theorem before_eq (h : Sound works start s φ) (hhistory : s.history = later ++ earlier)
    (hbegan : earlier.Began i tx) : s.history.before i = earlier.before i := by
  rw [hhistory, History.before_append]
  intro session tx' hmem
  have hearlier : earlier ⊆ s.history := hhistory ▸ List.subset_append_right _ _
  have hlater : later ⊆ s.history := hhistory ▸ List.subset_append_left _ _
  obtain ⟨session', hmem'⟩ := hbegan
  have hi := h.began_iff.1 ⟨session', hearlier hmem'⟩
  have hi' := h.began_iff.1 ⟨session, hlater hmem⟩
  rw [hi] at hi'
  cases hi'
  have horderly := h.tracks.orderly
  rw [hhistory, History.log_append] at horderly
  refine horderly.not_began ?_ ⟨_, History.mem_log.2 ⟨i, hmem⟩, rfl⟩
  exact ⟨_, History.mem_log.2 ⟨i, hmem'⟩, rfl⟩

/-- A committer has begun before its commit. -/
theorem exists_begin (h : Sound works start s φ) {session : Nat} {part : History ι}
    (hhistory : s.history = later ++ (i, .asked (.coordinator (.commit session tx)) (.ok true)) :: part) :
    ∃ between session' earlier,
      part = between ++ (i, .asked (.coordinator (.begin session')) (.ok tx)) :: earlier := by
  obtain ⟨held, hi⟩ := h.committed_of_head hhistory
  have horderly := h.tracks.orderly
  rw [hhistory, History.log_append, History.log_cons_of_reply rfl] at horderly
  have hbegan : (History.log part).Began tx.writePointer := horderly.of_append.2.1
  obtain ⟨own, ⟨session', hmem⟩, hown⟩ := hbegan.exists_handedOut
  obtain ⟨k, hmem⟩ := History.mem_log.1 hmem
  have hpart := History.subset_of_eq_append_cons hhistory
  have hk := h.began_iff.1 ⟨session', hpart hmem⟩
  have htx : (φ i).tx? = some tx := by rw [hi]; rfl
  have hki : k = i := h.distinct k i own tx hk htx hown
  subst hki
  rw [hk] at htx
  cases htx
  obtain ⟨between, earlier, rfl⟩ := List.append_of_mem hmem
  exact ⟨between, session', earlier, rfl⟩

/-! ### The order of commits -/

/-- Of two executions that committed a cell of the same row, the later one has the larger write
pointer. -/
theorem lt_of_committed_before (h : Sound works start s φ) {session : Nat} {tx' : Transaction}
    (hhistory : s.history =
      later ++ (j, .asked (.coordinator (.commit session tx)) (.ok true)) :: earlier)
    (hk : k ∈ earlier.committers) (hktx : (φ k).tx? = some tx') (hjrow : ((φ j).cells row).isSome)
    (hkrow : ((φ k).cells row).isSome) : tx'.writePointer < tx.writePointer := by
  have hearlier := History.subset_of_eq_append_cons hhistory
  obtain ⟨held, hj⟩ := h.committed_of_head hhistory
  obtain ⟨between, session', before, own, held', hheld, rfl⟩ := h.exists_commit hearlier hk
  have htx : own = tx' := by
    rw [hheld] at hktx
    exact Option.some.inj hktx
  subst htx
  have hlog : s.history.log = History.log later ++ ⟨.commit session tx, .ok true⟩ ::
      (History.log between ++ ⟨.commit session' own, .ok true⟩ :: History.log before) := by
    rw [hhistory, History.log_append, History.log_cons_of_reply rfl, History.log_append,
      History.log_cons_of_reply rfl]
  exact h.tracks.orderly.lt_of_meets hlog rfl rfl (h.meets_recorded hheld hj hkrow hjrow)

/-- Along the commits, the latest first, write pointers decrease for each row. -/
theorem ordered (h : Sound works start s φ) :
    s.history.committers.Pairwise fun newer older => ∀ tx tx' row, (φ newer).tx? = some tx →
      (φ older).tx? = some tx' → ((φ newer).cells row).isSome → ((φ older).cells row).isSome →
        tx'.writePointer < tx.writePointer := by
  refine History.pairwise_committers ?_
  intro later j session tx part hhistory k hk own tx' row hj hktx hjrow hkrow
  obtain ⟨held, hj'⟩ := h.committed_of_head hhistory
  have htx : tx = own := by
    rw [hj'] at hj
    exact Option.some.inj hj
  subst htx
  exact h.lt_of_committed_before hhistory hk hktx hjrow hkrow

/-- No execution commits twice. -/
theorem nodup_committers (h : Sound works start s φ) : s.history.committers.Nodup := by
  refine History.pairwise_committers ?_
  rintro later j session tx part hhistory k hk rfl
  obtain ⟨held, hj⟩ := h.committed_of_head hhistory
  obtain ⟨session', tx', hmem⟩ := History.mem_committers.1 hk
  have hpart := History.subset_of_eq_append_cons hhistory
  obtain ⟨held', hj'⟩ := h.committed_of_mem (hpart hmem)
  have htx : tx' = tx := by
    rw [hj] at hj'
    cases hj'
    rfl
  subst htx
  have horderly := h.tracks.orderly
  rw [hhistory, History.log_append, History.log_cons_of_reply rfl] at horderly
  have honce : ¬ (History.log part).Committed tx'.writePointer := horderly.of_append.2.2.1
  exact honce ⟨_, History.mem_log.2 ⟨j, hmem⟩, rfl⟩

/-- An execution has committed no cell of a row that was committed since it began. -/
theorem cells_eq_none_of_between (h : Sound works start s φ) {session session' : Nat}
    (hhistory : s.history = later ++ (j, .asked (.coordinator (.commit session tx)) (.ok true)) ::
      (between ++ (j, .asked (.coordinator (.begin session')) (.ok tx)) :: earlier))
    (hk : k ∈ between.committers) (hkrow : ((φ k).cells row).isSome) : (φ j).cells row = none := by
  have hbetween : between ⊆ s.history :=
    List.Subset.trans (List.subset_append_left _ _) (History.subset_of_eq_append_cons hhistory)
  obtain ⟨held, hj⟩ := h.committed_of_head hhistory
  obtain ⟨after, session'', before, own, held', hheld, rfl⟩ := h.exists_commit hbetween hk
  have hlog : s.history.log = History.log later ++ ⟨.commit session tx, .ok true⟩ ::
      (History.log after ++ ⟨.commit session'' own, .ok true⟩ ::
        (History.log before ++ ⟨.begin session', .ok tx⟩ :: History.log earlier)) := by
    rw [hhistory, History.log_append, History.log_cons_of_reply rfl, List.append_assoc,
      History.log_append, List.cons_append, History.log_cons_of_reply rfl, History.log_append,
      History.log_cons_of_reply rfl]
  have hbegan : Log.Began tx.writePointer
      (History.log before ++ ⟨.begin session', .ok tx⟩ :: History.log earlier) := by
    rw [Log.began_append, Log.began_cons]
    exact .inr (.inl rfl)
  have hdisjoint := h.tracks.orderly.disjoint_recorded hlog rfl rfl hbegan
  by_contra hrow
  rw [h.meets_recorded hheld hj hkrow (Option.isSome_iff_ne_none.2 hrow)] at hdisjoint
  cases hdisjoint

/-! ### What a transaction that begins sees -/

/-- Of what belongs to executions, a transaction that begins sees the cells that are committed. -/
theorem isVisible_begin_iff (h : Sound works start s φ) (hi : (φ i).tx? = some tx)
    (hrow : ((φ i).cells row).isSome) (now : Nat) :
    (s.world.coordinator.begin now).1.isVisible tx.writePointer = true ↔ i ∈ s.history.committers := by
  rw [h.mem_committers_iff]
  constructor
  · intro hvisible
    by_contra hcommitted
    have hnot := h.not_released hi (fun tx held hi => hcommitted ⟨tx, held, hi⟩) hrow
    rw [(h.hidden_of_not_released hi hnot).2.2 now] at hvisible
    cases hvisible
  · rintro ⟨tx', held, hi'⟩
    have htx : tx' = tx := by
      rw [hi'] at hi
      exact Option.some.inj hi
    subst htx
    exact h.isVisible_of_committed hi' now

/-- What is older than all executions is as visible as it was in the beginning. -/
theorem isVisible_begin_of_lt (h : Sound works start s φ) {p : Nat}
    (hp : p < start.coordinator.nextPointer) (now : Nat) :
    (s.world.coordinator.begin now).1.isVisible p = true ↔
      (start.coordinator.begin 0).1.isVisible p = true := by
  have hfirst := h.reveals.first_le
  have hcondemned : ¬ s.history.log.Condemned p := by
    intro hcondemned
    obtain ⟨i, tx, cells, rfl, hi⟩ := h.condemned p hcondemned
    have := h.reveals.began_ge (h.began (i := i) (by rw [hi]; rfl))
    omega
  have hopen : p ∉ s.world.coordinator.inProgress := by
    intro hopen
    have := h.reveals.open_ge hopen
    omega
  have hidle := h.quiet.coordinator.idle p
  rw [Coordinator.isVisible_begin, Coordinator.isVisible_begin, h.reveals.old hp hcondemned]
  constructor
  · rintro (heq | ⟨-, hvalid, -⟩)
    · omega
    · exact .inr ⟨by omega, hvalid, hidle⟩
  · rintro (heq | ⟨-, hvalid, -⟩)
    · omega
    · exact .inr ⟨by omega, hvalid, hopen⟩

/-- A version belongs to an execution, or holds what it held in the beginning. -/
theorem owned_or_old (h : Sound works start s φ) (p : Nat) :
    (∃ i tx, (φ i).tx? = some tx ∧ tx.writePointer = p ∧ start.coordinator.nextPointer ≤ p ∧
      ∀ row, s.world.store.cell? row p = (φ i).cells row) ∨
    ∀ row, s.world.store.cell? row p = start.store.cell? row p := by
  by_cases hp : ∃ i tx, (φ i).tx? = some tx ∧ tx.writePointer = p
  · obtain ⟨i, tx, hi, rfl⟩ := hp
    exact .inl ⟨i, tx, hi, rfl, h.reveals.began_ge (h.began hi), h.stored i tx hi⟩
  · exact .inr (h.unowned p fun i tx hi heq => hp ⟨i, tx, hi, heq⟩)

/-- **A transaction that begins sees the cells that were committed last**, and what there was in the
beginning where nothing was committed. -/
theorem row?_begin (h : Sound works start s φ) (now : Nat) (row : Change) :
    s.world.store.row? row (s.world.coordinator.begin now).1 =
      start.after φ s.history.committers row := by
  have hstart : ∀ p, (start.store.cell? row p).isSome → p < start.coordinator.nextPointer :=
    h.quiet.stored_lt row
  cases hlatest : Cells.latest (fun i => (φ i).cells) s.history.committers row with
  | some cell =>
    rw [World.after, Contents.overlaid, hlatest]
    obtain ⟨newer, i, older, hcommitters, hcell, hnewer⟩ := List.findSome?_eq_some_iff.1 hlatest
    have hcell : (φ i).cells row = some cell := hcell
    have hnewer : ∀ j ∈ newer, (φ j).cells row = none := hnewer
    have hi : i ∈ s.history.committers := by simp [hcommitters]
    obtain ⟨tx, held, hheld⟩ := h.mem_committers_iff.1 hi
    have htx : (φ i).tx? = some tx := by rw [hheld]; rfl
    have hrow : ((φ i).cells row).isSome := by rw [hcell]; rfl
    refine VersionedStore.row?_of_newest ((h.stored i tx htx row).trans hcell)
      ((h.isVisible_begin_iff htx hrow now).2 hi) ?_
    intro q hq hvisible
    rcases h.owned_or_old q with ⟨j, tx', hj, rfl, -, hcells⟩ | hold
    · rw [hcells] at hq
      have hmem := (h.isVisible_begin_iff hj hq now).1 hvisible
      have hordered := h.ordered
      rw [hcommitters] at hmem hordered
      rcases List.mem_append.1 hmem with hmem | hmem
      · rw [hnewer j hmem] at hq
        cases hq
      · rcases List.mem_cons.1 hmem with rfl | hmem
        · rw [htx] at hj
          cases hj
          exact Nat.le_refl _
        · have holder := (List.pairwise_cons.1 (List.pairwise_append.1 hordered).2.1).1 j hmem
          exact Nat.le_of_lt (holder tx tx' row htx hj hrow hq)
    · rw [hold] at hq
      have := hstart q hq
      have := h.reveals.began_ge (h.began htx)
      omega
  | none =>
    rw [World.after, Contents.overlaid, hlatest]
    have hnone : ∀ i ∈ s.history.committers, (φ i).cells row = none :=
      List.findSome?_eq_none_iff.1 hlatest
    refine VersionedStore.row?_congr fun q cell => ?_
    rcases h.owned_or_old q with ⟨i, tx, hi, rfl, hge, hcells⟩ | hold
    · -- no committed cell belongs to an execution, and the start has none at its version
      constructor
      · rintro ⟨hcell, hvisible⟩
        rw [hcells] at hcell
        have hmem := (h.isVisible_begin_iff hi (by rw [hcell]; rfl) now).1 hvisible
        rw [hnone i hmem] at hcell
        cases hcell
      · rintro ⟨hcell, -⟩
        have := hstart _ (by rw [hcell]; rfl)
        omega
    · rw [hold row]
      refine and_congr_right fun hcell => ?_
      exact h.isVisible_begin_of_lt (hstart q (by rw [hcell]; rfl)) now

end Sound

end Interleaving

end Tabular
