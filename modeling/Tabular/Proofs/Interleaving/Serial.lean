import Tabular.Proofs.Interleaving.Snapshot
import Tabular.Proofs.Interleaving.Steps

/-!
# Tabular.Proofs.Interleaving.Serial — units of work one after another

`World.shelf` are the tables as a transaction that begins sees them.  Main statement: `no_lost_update`, if
units of work replace no rows but those that they have read, interleaving them comes to the same as running
those that committed one after another, in the order of the commits.
-/

namespace Tabular.Interleaving

/-- The tables as a transaction that begins at a time sees them. -/
def World.shelf (w : World) (now : Nat) : Shelf := fun table =>
  (w.store.tables.getD table ∅).filterMap fun _ versions => versions.visible? (w.coordinator.begin now).1

theorem World.row?_shelf (w : World) (now : Nat) :
    (w.shelf now).row? = fun row => w.store.row? row (w.coordinator.begin now).1 := by
  funext row
  rw [Shelf.row?, shelf, VersionedStore.getElem?_filterMap_visible?]
  rfl

variable {ι : Type} [DecidableEq ι] {works : ι → Work Elsewhere Unit}
  {steps : ι → List ReadModifyWrite} {runnerOf : ι → Nat} {start : World} {s : System fun _ : ι => Unit}
  {φ : ι → Phase} {i : ι} {tx : Transaction} {later part : History ι}

omit [DecidableEq ι] in
/-- What one more execution commits is laid over what there was. -/
theorem World.after_cons (is : List ι) :
    start.after φ (i :: is) = (start.after φ is).overlaid (φ i).cells := by
  funext row
  simp only [World.after, Contents.overlaid, Cells.latest, List.findSome?_cons]
  cases (φ i).cells row <;> rfl

omit [DecidableEq ι] in
/-- Executions that commit no cell of a row leave it as it was. -/
theorem World.after_append {newer : List ι} {row : Change}
    (hnewer : ∀ k ∈ newer, (φ k).cells row = none) (older : List ι) :
    start.after φ (newer ++ older) row = start.after φ older row := by
  have hnone : newer.findSome? (fun k => (φ k).cells row) = none := List.findSome?_eq_none_iff.2 hnewer
  simp only [World.after, Contents.overlaid, Cells.latest, List.findSome?_append, hnone, Option.none_or]

namespace Seeing

/-- What was committed since an execution began does not matter to the rows that it commits. -/
theorem after_eq_of_cells (h : Seeing works start s φ) {session : Nat}
    (hhistory : s.history =
      later ++ (i, .asked (.coordinator (.commit session tx)) (.ok true)) :: part)
    {row : Change} (hrow : ((φ i).cells row).isSome) :
    start.after φ part.committers row = start.after φ (s.history.before i) row := by
  obtain ⟨between, session', earlier, rfl⟩ := h.exists_begin hhistory
  have hbefore : s.history.before i = History.committers earlier := by
    have hsplit : s.history =
        (later ++ (i, .asked (.coordinator (.commit session tx)) (.ok true)) :: between) ++
          (i, .asked (.coordinator (.begin session')) (.ok tx)) :: earlier := by
      simp [hhistory]
    rw [h.before_eq hsplit ⟨session', .head _⟩, History.before_cons_begin]
  have hbetween : ∀ k ∈ History.committers between, (φ k).cells row = none := by
    intro k hk
    by_contra hkrow
    have hnone := h.cells_eq_none_of_between hhistory hk (Option.isSome_iff_ne_none.2 hkrow)
    rw [hnone] at hrow
    cases hrow
  rw [hbefore, History.committers_append]
  exact World.after_append hbetween _

/-- Units of work got the answers of the snapshot. -/
theorem faithful (h : Seeing works start s φ) {step : Step} (hstep : step ∈ s.history.of i) :
    Faithful start.schemas (start.after φ (s.history.before i)) step := by
  have hmem := History.mem_of.1 hstep
  unfold Faithful
  split
  · exact h.found i _ _ hmem
  · exact (h.answered i _ _ _ _ hmem).2
  · trivial

/-- A commit makes of the rows what its unit of work makes of them. -/
theorem perform_commit (h : Seeing works start s φ)
    (hworks : ∀ i, works i = ReadModifyWrite.all (steps i))
    (hfits : ∀ i, ∀ step ∈ steps i, step.Fits start.schemas) {session : Nat}
    (hhistory : s.history =
      later ++ (i, .asked (.coordinator (.commit session tx)) (.ok true)) :: part)
    {shelf : Shelf} (hshelf : shelf.row? = start.after φ part.committers) :
    ∃ shelf' : Shelf, shelf.perform start.schemas (ReadModifyWrite.all (steps i)) = .ok shelf' ∧
      shelf'.row? = start.after φ (i :: part.committers) := by
  obtain ⟨held, hi⟩ := h.committed_of_head hhistory
  have hcells : (φ i).cells = .held held := by rw [hi]; rfl
  have hconduct := h.conduct i
  rw [hi] at hconduct
  obtain ⟨after, inner, before, session', a, hsteps, hleads⟩ := hconduct.buffered
  have hknown : ∀ step ∈ inner,
      Faithful start.schemas (start.after φ (s.history.before i)) step := by
    intro step hstep
    refine h.faithful ?_
    rw [hsteps]
    exact List.mem_append_right _ (List.mem_append_left _ hstep)
  rw [hworks i] at hleads
  obtain ⟨-, hsame⟩ := (performs_all Typed.empty (hfits i)).leads hleads hknown rfl
  have hagree : ∀ row, (Cells.held held row).isSome →
      start.after φ part.committers row = start.after φ (s.history.before i) row :=
    fun row hrow => h.after_eq_of_cells hhistory (hcells ▸ hrow)
  obtain ⟨shelf', hperform, hshelf'⟩ := hsame (start.after φ part.committers) shelf hagree
    (by rw [hshelf, Cells.held_empty]; rfl)
  refine ⟨shelf', ?_, ?_⟩
  · rw [Shelf.perform, hperform]
  · rw [hshelf', World.after_cons, hcells]

/-- Running what was committed one after another, in the order of the commits, comes to the same rows. -/
theorem performAll_committers (h : Seeing works start s φ)
    (hworks : ∀ i, works i = ReadModifyWrite.all (steps i))
    (hfits : ∀ i, ∀ step ∈ steps i, step.Fits start.schemas) {shelf : Shelf}
    (hshelf : shelf.row? = start.contents) (hhistory : s.history = later ++ part) :
    ∃ shelf' : Shelf, shelf.performAll start.schemas
        (part.committers.reverse.map fun i => ReadModifyWrite.all (steps i)) = .ok shelf' ∧
      shelf'.row? = start.after φ part.committers := by
  induction part generalizing later with
  | nil => exact ⟨shelf, rfl, hshelf⟩
  | cons entry part ih =>
    obtain ⟨i, step⟩ := entry
    have hpart : s.history = (later ++ [(i, step)]) ++ part := by simp [hhistory]
    obtain ⟨before, hbefore, hrows⟩ := ih hpart
    by_cases hstep : History.commits step = true
    · obtain ⟨session, tx, rfl⟩ := History.commits_eq_true_iff.1 hstep
      obtain ⟨shelf', hperform, hshelf'⟩ := h.perform_commit hworks hfits hhistory hrows
      refine ⟨shelf', ?_, hshelf'⟩
      have hcons : History.committers
          ((i, .asked (.coordinator (.commit session tx)) (.ok true)) :: part) =
            i :: History.committers part := rfl
      rw [hcons, List.reverse_cons, List.map_append]
      exact (Shelf.performAll_concat hbefore _).trans hperform
    · have hskip : History.committers ((i, step) :: part) = History.committers part :=
        List.filterMap_cons_none (if_neg hstep)
      rw [hskip]
      exact ⟨before, hbefore, hrows⟩

/-- A transaction that begins sees the shelf that has the rows that were committed. -/
theorem row?_shelf (h : Seeing works start s φ) (now : Nat) :
    (s.world.shelf now).row? = start.after φ s.history.committers := by
  rw [World.row?_shelf]
  exact funext fun row => h.row?_begin now row

/-- What transactions see in the end is what comes of the units of work that committed, one after
another. -/
theorem performAll_shelf (h : Seeing works start s φ)
    (hworks : ∀ i, works i = ReadModifyWrite.all (steps i))
    (hfits : ∀ i, ∀ step ∈ steps i, step.Fits start.schemas) (now now' : Nat) :
    (start.shelf now).performAll start.schemas
        (s.history.committers.reverse.map fun i => ReadModifyWrite.all (steps i)) =
      .ok (s.world.shelf now') := by
  have hbegin : Seeing works start (.start works start) fun _ => .idle [] := .of_quiet h.quiet
  have hstart : (start.shelf now).row? = start.contents := hbegin.row?_shelf now
  have hhistory : s.history = [] ++ s.history := rfl
  obtain ⟨shelf, hperform, hshelf⟩ := h.performAll_committers hworks hfits hstart hhistory
  rw [hperform, Shelf.ext_row? (hshelf.trans (h.row?_shelf now').symm)]

end Seeing

/-- **No update is lost.**  Take any executions over one coordinator and one store whose units of work are
lists of read-modify-writes, interleaved in any way, with whatever failures.  When all have ended, those
that committed are those that answered a value, and the tables as a transaction that begins sees them are
what comes of their units of work on plain tables, one after another in the order of their commits.  In
particular, if all units of work are the tool's increments, every counter has gone up by the number of
increments of it that answered a value. -/
theorem no_lost_update (hstart : start.Quiet) (hworks : ∀ i, works i = ReadModifyWrite.all (steps i))
    (hfits : ∀ i, ∀ step ∈ steps i, step.Fits start.schemas)
    (hs : System.Reaches runnerOf (.start works start) s) (hended : ∀ i, ∃ r, s.program i = .done r) :
    (s.history.committers.Nodup ∧ ∀ i, i ∈ s.history.committers ↔ s.program i = .done (.ok ())) ∧
    (∀ now now', (start.shelf now).performAll start.schemas
        (s.history.committers.reverse.map fun i => ReadModifyWrite.all (steps i)) =
      .ok (s.world.shelf now')) ∧
    ∀ counter : ι → String, (∀ i, works i = Tool.increment (counter i)) →
      start.schemas "counters" = some ⟨Tool.counters, rfl⟩ → ∀ name now now',
        Tool.count (s.world.shelf now') name = Tool.count (start.shelf now) name +
          Int64.ofNat ((s.history.committers.map counter).count name) := by
  obtain ⟨φ, h, -⟩ := (Seeing.of_quiet hstart).reaches hs
  refine ⟨⟨h.nodup_committers, fun i => ?_⟩, h.performAll_shelf hworks hfits, ?_⟩
  · obtain ⟨result, hdone⟩ := hended i
    rw [h.mem_committers_iff_of_done hdone, hdone]
    constructor
    · rintro ⟨_, rfl⟩
      rfl
    · intro hok
      cases hok
      exact ⟨(), rfl⟩
  · intro counter hincrements hschema name now now'
    have hcounting : ∀ i, works i = ReadModifyWrite.all [Tool.counting (counter i)] :=
      fun i => (hincrements i).trans (Tool.all_counting _).symm
    have hperform := h.performAll_shelf hcounting
      (fun i step hstep => List.mem_singleton.1 hstep ▸ Tool.fits_counting hschema) now now'
    have hnames : (s.history.committers.reverse.map fun i =>
        (ReadModifyWrite.all [Tool.counting (counter i)] : Work Id Unit)) =
          (s.history.committers.reverse.map counter).map Tool.increment := by
      rw [List.map_map]
      exact List.map_congr_left fun i _ => Tool.all_counting _
    rw [hnames] at hperform
    rw [Tool.count_performAll hschema hperform, List.map_reverse, List.count_reverse]

/-- Of two increments that overlap one is refused, and the counter counts the other one. -/
theorem no_lost_update_overlapping : ∃ s : System fun _ : Bool => Unit,
    System.Reaches Bool.toNat (.start (fun _ => Tool.increment "visits") (.fresh Tool.counters)) s ∧
      s.program true = .done (.ok ()) ∧ s.program false ≠ .done (.ok ()) ∧
        Tool.count ((World.fresh Tool.counters).shelf 0) "visits" = 0 ∧
          Tool.count (s.world.shelf 0) "visits" = 1 := by
  obtain ⟨_, hs, -, s, hs', hended, hdone, hcommitters⟩ := increments_overlap
  have hworks : ∀ _ : Bool, (Tool.increment "visits" : Work Elsewhere Unit) =
      ReadModifyWrite.all [Tool.counting "visits"] :=
    fun _ => (Tool.all_counting "visits").symm
  have hfits : ∀ _ : Bool, ∀ step ∈ [Tool.counting "visits"],
      step.Fits (World.fresh Tool.counters).schemas :=
    fun _ step hstep => List.mem_singleton.1 hstep ▸ Tool.fits_counting rfl
  obtain ⟨⟨-, hiff⟩, -, hcounts⟩ :=
    no_lost_update (World.quiet_fresh Tool.counters) hworks hfits (hs.trans hs') hended
  have hcount := hcounts (fun _ => "visits") (fun _ => rfl) rfl "visits" 0 0
  have hzero : Tool.count ((World.fresh Tool.counters).shelf 0) "visits" = 0 := by
    rw [Tool.count, World.row?_shelf]
    rfl
  have hrefused : s.program false ≠ .done (.ok ()) := by
    rw [Ne, ← hiff, hcommitters]
    decide
  rw [hcommitters, hzero] at hcount
  exact ⟨s, hs.trans hs', hdone, hrefused, hzero, hcount⟩

end Tabular.Interleaving
