import Tabular.Proofs.Interleaving.Conduct
import Tabular.Proofs.Interleaving.Execution

/-!
# Tabular.Proofs.Interleaving.Sound — what holds of executions in every interleaving

`Sound start s φ` relates a system to the phases of its executions: which transactions the coordinator
knows, which of them it has released or invalidated, what is unfinished, and which cells the store holds
at every version.  Main statements: `Sound.step`, every step of an execution keeps the relation, and
`sound_of_reaches`, it holds in every interleaving.
-/

namespace Tabular.Interleaving

open Interaction (Follows)
open Coordinator (Log Tracks Reveals)

variable {ι : Type} [DecidableEq ι] {α : ι → Type}

/-- How a system and the phases of its executions depend on each other. -/
structure Sound (works : (i : ι) → Work Elsewhere (α i)) (start : World) (s : System α) (φ : ι → Phase) :
    Prop where
  quiet : start.Quiet
  obeys : ∀ i, Obeys (works i) Phase.Final (φ i) (s.program i)
  conduct : ∀ i, Conduct (works i) (s.history.of i) (φ i)
  tracks : Tracks s.world.coordinator s.history.log
  reveals : Reveals start.coordinator s.world.coordinator s.history.log
  /-- The transactions are those of the executions. -/
  handedOut : ∀ tx, s.history.log.HandedOut tx ↔ ∃ i, (φ i).tx? = some tx
  distinct : ∀ i j tx tx', (φ i).tx? = some tx → (φ j).tx? = some tx' →
    tx.writePointer = tx'.writePointer → i = j
  /-- Only what is committed or has left no cells is released. -/
  released : ∀ p, s.history.log.Released p → ∃ i tx, tx.writePointer = p ∧
    ((∃ held, φ i = .committed tx held) ∨ φ i = .ended tx .empty)
  committed : ∀ i tx held, φ i = .committed tx held → s.history.log.Committed tx.writePointer
  recorded : ∀ i tx held, (φ i).announced? = some (tx, held) →
    s.history.log.recorded tx.writePointer = Participant.changeSet held.values
  condemned : ∀ p, s.history.log.Condemned p → ∃ i tx cells, tx.writePointer = p ∧ φ i = .ended tx cells
  /-- What waits to be settled has ended, and is marked as rolled back only if it left no cells. -/
  orphans : ∀ orphan, (∃ r, orphan ∈ s.world.unfinished r) ∨ (∃ i, orphan ∈ (φ i).hands) →
    ∃ i cells, φ i = .ended orphan.tx cells ∧ (orphan.rolledBack = true → cells = .empty)
  /-- The cells of a transaction in the store are those that its phase says. -/
  stored : ∀ i tx, (φ i).tx? = some tx → ∀ row,
    s.world.store.cell? row tx.writePointer = (φ i).cells row
  /-- No other version changes. -/
  unowned : ∀ p, (∀ i tx, (φ i).tx? = some tx → tx.writePointer ≠ p) → ∀ row,
    s.world.store.cell? row p = start.store.cell? row p
  tables : ∀ table, table ∈ s.world.store.tables ↔ table ∈ start.store.tables
  schemas : s.world.schemas = start.schemas
  found : ∀ i table schema, (i, .asked (.find table) (.ok schema)) ∈ s.history →
    start.schemas table = some schema

namespace Sound

theorem start (works : (i : ι) → Work Elsewhere (α i)) {w : World} (h : w.Quiet) :
    Sound works w (.start works w) fun _ => .idle [] where
  quiet := h
  obeys i := obeys_executing (works i)
  conduct i := .here
  tracks := h.coordinator.tracks
  reveals := h.coordinator.reveals
  handedOut tx := by simp [System.start, History.log, Log.HandedOut, Phase.tx?]
  distinct _ _ _ _ h := nomatch h
  released p hp := by simp [System.start, History.log, Log.Released] at hp
  committed _ _ _ h := nomatch h
  recorded _ _ _ h := nomatch h
  condemned p hp := by simp [System.start, History.log, Log.Condemned] at hp
  orphans orphan horphan := by simp [System.start, h.settled, Phase.hands] at horphan
  stored _ _ h := nomatch h
  unowned _ _ _ := rfl
  tables _ := Iff.rfl
  schemas := rfl
  found _ _ _ h := nomatch h

variable {works : (i : ι) → Work Elsewhere (α i)} {start : World} {s : System α} {φ : ι → Phase}

theorem began (h : Sound works start s φ) {i : ι} {tx : Transaction} (hi : (φ i).tx? = some tx) :
    s.history.log.Began tx.writePointer :=
  ((h.handedOut tx).2 ⟨i, hi⟩).began

/-! ### One step -/

section Step

variable {i : ι} {step : Step} {φ' : Phase} {w : World} {r : Nat} {j : ι} {tx : Transaction}

theorem update_ended {cells : Cells} (hmove : Move (works i) (φ i) step φ')
    (hj : φ j = .ended tx cells) : Function.update φ i φ' j = .ended tx cells := by
  by_cases hij : j = i
  · subst hij
    rw [hj] at hmove
    rw [Function.update_self, hmove.eq_of_ended]
  · rw [Function.update_of_ne hij, hj]

theorem update_committed {held : Participants} (hmove : Move (works i) (φ i) step φ')
    (hj : φ j = .committed tx held) : Function.update φ i φ' j = .committed tx held := by
  by_cases hij : j = i
  · subst hij
    rw [hj] at hmove
    rw [Function.update_self, hmove.eq_of_committed]
  · rw [Function.update_of_ne hij, hj]

/-- Every execution keeps its transaction, and one may get a new one. -/
theorem update_tx? (hmove : Move (works i) (φ i) step φ') :
    (∃ session tx, step = .asked (.coordinator (.begin session)) (.ok tx) ∧ φ i = .idle [] ∧
      φ' = .working tx []) ∨
    ((∀ j, (Function.update φ i φ' j).tx? = (φ j).tx?) ∧
      ∀ session tx, step ≠ .asked (.coordinator (.begin session)) (.ok tx)) := by
  refine hmove.tx?_eq.imp_right fun ⟨heq, hne⟩ => ⟨fun j => ?_, hne⟩
  by_cases hij : j = i
  · subst hij
    rw [Function.update_self, heq]
  · rw [Function.update_of_ne hij]

theorem tx?_update (hmove : Move (works i) (φ i) step φ') (hj : (φ j).tx? = some tx) :
    (Function.update φ i φ' j).tx? = some tx := by
  rcases update_tx? hmove with ⟨session, tx', rfl, hi, rfl⟩ | ⟨heq, -⟩
  · have hij : j ≠ i := by
      rintro rfl
      rw [hi] at hj
      cases hj
    rw [Function.update_of_ne hij, hj]
  · rw [heq, hj]

omit [DecidableEq ι] in
/-- What a step does to the store: nothing, or it sets one cell of the transaction, as its phase says. -/
theorem store_step (hadmits : s.world.Admits r step w) (hmove : Move (works i) (φ i) step φ') :
    (∀ table, table ∈ w.store.tables ↔ table ∈ s.world.store.tables) ∧
    ((w.store = s.world.store ∧ φ'.cells = (φ i).cells) ∨
      ∃ tx row cell, (φ i).tx? = some tx ∧ φ'.cells = Function.update (φ i).cells row cell ∧
        ∀ other p, w.store.cell? other p =
          if other = row ∧ p = tx.writePointer then cell else s.world.store.cell? other p) := by
  by_cases hstep : ∀ (call : VersionedCall) (a : call.Answer), step ≠ .asked (.store call) (.ok a)
  · have hsame := hadmits.store_eq hstep
    exact ⟨fun table => by rw [hsame], .inl ⟨hsame, hmove.cells_eq hstep⟩⟩
  · simp only [not_forall, Classical.not_not] at hstep
    obtain ⟨call, a, rfl⟩ := hstep
    have hperform := hadmits.perform_eq
    rcases hmove.store with ⟨hcells, ⟨table, key, tx, rfl⟩ | ⟨table, tx, rfl⟩⟩ |
      ⟨tx, htx, row, ⟨cell, rfl, hcells⟩ | ⟨rfl, hcells⟩⟩
    · have hsame := (VersionedStore.perform_read hperform).1
      exact ⟨fun table => by rw [hsame], .inl ⟨hsame, hcells⟩⟩
    · have hsame := VersionedStore.perform_scan hperform
      exact ⟨fun table => by rw [hsame], .inl ⟨hsame, hcells⟩⟩
    · obtain ⟨hwrite, htables⟩ := VersionedStore.cell?_write hperform
      exact ⟨htables, .inr ⟨tx, row, some cell, htx, hcells, hwrite⟩⟩
    · obtain ⟨hundo, htables⟩ := VersionedStore.cell?_undo hperform
      exact ⟨htables, .inr ⟨tx, row, none, htx, hcells, hundo⟩⟩

omit [DecidableEq ι] in
theorem leaves_reply? {w : World} {step : Step} (h : w.Leaves step) : History.reply? step = none := by
  unfold World.Leaves at h
  split at h <;> first | rfl | cases h

variable (h : Sound works start s φ) (hmove : Move (works i) (φ i) step φ')

include h

theorem coordinator_step (hadmits : s.world.Admits r step w) :
    Tracks w.coordinator (History.log ((i, step) :: s.history)) ∧
      Reveals start.coordinator w.coordinator (History.log ((i, step) :: s.history)) := by
  cases hadmits with
  | leave hleaves =>
    rw [History.log_cons_of_none (leaves_reply? hleaves)]
    exact ⟨h.tracks, h.reveals⟩
  | @coordinator call answer now hanswer =>
    subst hanswer
    have htracks := h.tracks.respond Coordinator.forgets_prune now call
    rw [Coordinator.respondBy_prune] at htracks
    exact ⟨htracks, h.reveals.respond h.tracks now call⟩
  | store hs => exact ⟨h.tracks, h.reveals⟩
  | unfinished change => exact ⟨h.tracks, h.reveals⟩

/-- A transaction that begins gets a write pointer that no other has, and that is nowhere in the store. -/
theorem new_pointer {session : Nat}
    (hadmits : s.world.Admits r (.asked (.coordinator (.begin session)) (.ok tx)) w) :
    (∀ j tx', (φ j).tx? = some tx' → tx'.writePointer < tx.writePointer) ∧
      ∀ row, s.world.store.cell? row tx.writePointer = none := by
  have hpointer : tx.writePointer = s.world.coordinator.nextPointer := by
    cases hadmits with
    | leave hleaves => exact hleaves.elim
    | coordinator now hanswer =>
      rw [(Coordinator.respond_begin_eq_ok hanswer).1, Coordinator.begin_writePointer]
  have hlt : ∀ j tx', (φ j).tx? = some tx' → tx'.writePointer < tx.writePointer := by
    intro j tx' hj
    rw [hpointer]
    exact h.tracks.began_lt (h.began hj)
  refine ⟨hlt, fun row => ?_⟩
  rw [h.unowned _ (fun j tx' hj => Nat.ne_of_lt (hlt j tx' hj))]
  have hold := h.quiet.stored_lt row tx.writePointer
  have hfirst := h.reveals.first_le
  cases hcell : start.store.cell? row tx.writePointer with
  | none => rfl
  | some cell =>
    have := hold (by rw [hcell]; rfl)
    omega

include hmove

theorem handedOut_step (tx : Transaction) :
    (History.log ((i, step) :: s.history)).HandedOut tx ↔
      ∃ j, (Function.update φ i φ' j).tx? = some tx := by
  rcases update_tx? hmove with ⟨session, tx', rfl, hi, rfl⟩ | ⟨heq, hne⟩
  · rw [History.log_cons_of_reply rfl, Log.handedOut_cons, h.handedOut]
    constructor
    · rintro (⟨_, heq⟩ | ⟨j, hj⟩)
      · cases heq
        exact ⟨i, by rw [Function.update_self]; rfl⟩
      · exact ⟨j, tx?_update hmove hj⟩
    · rintro ⟨j, hj⟩
      by_cases hij : j = i
      · subst hij
        rw [Function.update_self] at hj
        cases hj
        exact .inl ⟨session, rfl⟩
      · rw [Function.update_of_ne hij] at hj
        exact .inr ⟨j, hj⟩
  · simp only [heq]
    rw [← h.handedOut]
    rcases History.log_cons i step s.history with ⟨-, hlog⟩ | ⟨call, answer, rfl, hlog⟩
    · rw [hlog]
    · rw [hlog, Log.handedOut_cons, or_iff_right]
      rintro ⟨session, heq⟩
      cases heq
      exact hne session tx rfl

theorem distinct_step (j k : ι) (tx tx' : Transaction) (hadmits : s.world.Admits r step w)
    (hj : (Function.update φ i φ' j).tx? = some tx) (hk : (Function.update φ i φ' k).tx? = some tx')
    (heq : tx.writePointer = tx'.writePointer) : j = k := by
  rcases update_tx? hmove with ⟨session, new, rfl, hi, rfl⟩ | ⟨hsame, -⟩
  · -- a new transaction has a larger write pointer than all before
    have hnew := (h.new_pointer hadmits).1
    by_cases hji : j = i
    · by_cases hki : k = i
      · rw [hji, hki]
      · subst hji
        rw [Function.update_self] at hj
        rw [Function.update_of_ne hki] at hk
        cases hj
        have := hnew k tx' hk
        omega
    · rw [Function.update_of_ne hji] at hj
      by_cases hki : k = i
      · subst hki
        rw [Function.update_self] at hk
        cases hk
        have := hnew j tx hj
        omega
      · rw [Function.update_of_ne hki] at hk
        exact h.distinct j k tx tx' hj hk heq
  · rw [hsame] at hj hk
    exact h.distinct j k tx tx' hj hk heq

theorem released_step (p : Nat) (hp : (History.log ((i, step) :: s.history)).Released p) :
    ∃ j tx, tx.writePointer = p ∧ ((∃ held, Function.update φ i φ' j = .committed tx held) ∨
      Function.update φ i φ' j = .ended tx .empty) := by
  have hold : s.history.log.Released p → ∃ j tx, tx.writePointer = p ∧
      ((∃ held, Function.update φ i φ' j = .committed tx held) ∨
        Function.update φ i φ' j = .ended tx .empty) := by
    intro hp
    obtain ⟨j, tx, htx, ⟨held, hj⟩ | hj⟩ := h.released p hp
    · exact ⟨j, tx, htx, .inl ⟨held, update_committed hmove hj⟩⟩
    · exact ⟨j, tx, htx, .inr (update_ended hmove hj)⟩
  rcases History.log_cons i step s.history with ⟨-, hlog⟩ | ⟨call, answer, rfl, hlog⟩
  · rw [hlog] at hp
    exact hold hp
  · rw [hlog, Log.released_cons] at hp
    rcases hp with hp | hp
    · rcases hmove.releases hp with ⟨tx, held, rfl, htx⟩ | ⟨tx, rfl, htx⟩ | ⟨orphan, hmem, hback, htx⟩
      · exact ⟨i, tx, htx, .inl ⟨held, Function.update_self _ _ _⟩⟩
      · exact ⟨i, tx, htx, .inr (Function.update_self _ _ _)⟩
      · obtain ⟨j, cells, hj, hcells⟩ := h.orphans orphan (.inr ⟨i, hmem⟩)
        rw [hcells hback] at hj
        exact ⟨j, orphan.tx, htx, .inr (update_ended hmove hj)⟩
    · exact hold hp

theorem committed_step (j : ι) (tx : Transaction) (held : Participants)
    (hj : Function.update φ i φ' j = .committed tx held) :
    (History.log ((i, step) :: s.history)).Committed tx.writePointer := by
  have hold : s.history.log.Committed tx.writePointer →
      (History.log ((i, step) :: s.history)).Committed tx.writePointer := by
    intro hcommitted
    rcases History.log_cons i step s.history with ⟨-, hlog⟩ | ⟨call, answer, -, hlog⟩
    · rwa [hlog]
    · rw [hlog, Log.committed_cons]
      exact .inr hcommitted
  by_cases hji : j = i
  · subst hji
    rw [Function.update_self] at hj
    subst hj
    rcases hmove.commits_of_committed with hj | ⟨session, rfl⟩
    · exact hold (h.committed j tx held hj)
    · rw [History.log_cons_of_reply rfl, Log.committed_cons]
      exact .inl rfl
  · rw [Function.update_of_ne hji] at hj
    exact hold (h.committed j tx held hj)

theorem recorded_step (j : ι) (tx : Transaction) (held : Participants)
    (hj : (Function.update φ i φ' j).announced? = some (tx, held)) :
    (History.log ((i, step) :: s.history)).recorded tx.writePointer =
      Participant.changeSet held.values := by
  rcases hmove.announced?_eq with ⟨session, own, changed, rfl, hown, rfl⟩ | ⟨hkeeps, hstep⟩
  · rw [History.log_cons_of_reply rfl]
    by_cases hji : j = i
    · subst hji
      rw [Function.update_self] at hj
      cases hj
      rw [Log.recorded_cons_announced rfl, if_pos rfl]
    · rw [Function.update_of_ne hji] at hj
      rw [Log.recorded_cons_of_ne, h.recorded j tx held hj]
      intro changes hfact
      injection hfact with hpointer
      exact hji (h.distinct j i tx own (Phase.tx?_of_announced? hj) hown hpointer.symm)
  · have hold : (φ j).announced? = some (tx, held) := by
      by_cases hji : j = i
      · subst hji
        rw [Function.update_self] at hj
        exact hkeeps tx held hj
      · rwa [Function.update_of_ne hji] at hj
    rw [← h.recorded j tx held hold]
    rcases History.log_cons i step s.history with ⟨-, hlog⟩ | ⟨call, answer, rfl, hlog⟩
    · rw [hlog]
    · rw [hlog, Log.recorded_cons_of_ne]
      intro changes hfact
      obtain ⟨session, tx', -, heq⟩ := Log.exists_of_fact_announced hfact
      cases heq
      exact hstep session tx' changes rfl

theorem condemned_step (p : Nat) (hp : (History.log ((i, step) :: s.history)).Condemned p) :
    ∃ j tx cells, tx.writePointer = p ∧ Function.update φ i φ' j = .ended tx cells := by
  have hold : s.history.log.Condemned p →
      ∃ j tx cells, tx.writePointer = p ∧ Function.update φ i φ' j = .ended tx cells := by
    intro hp
    obtain ⟨j, tx, cells, htx, hj⟩ := h.condemned p hp
    exact ⟨j, tx, cells, htx, update_ended hmove hj⟩
  rcases History.log_cons i step s.history with ⟨-, hlog⟩ | ⟨call, answer, rfl, hlog⟩
  · rw [hlog] at hp
    exact hold hp
  · rw [hlog, Log.condemned_cons] at hp
    rcases hp with hp | hp
    · rcases hmove.condemns hp with ⟨tx, cells, rfl, htx⟩ | ⟨orphan, hmem, htx⟩
      · exact ⟨i, tx, cells, htx, Function.update_self _ _ _⟩
      · obtain ⟨j, cells, hj, -⟩ := h.orphans orphan (.inr ⟨i, hmem⟩)
        exact ⟨j, orphan.tx, cells, htx, update_ended hmove hj⟩
    · exact hold hp

theorem orphans_step (hadmits : s.world.Admits r step w) (orphan : Unfinished)
    (horphan : (∃ r, orphan ∈ w.unfinished r) ∨ ∃ j, orphan ∈ (Function.update φ i φ' j).hands) :
    ∃ j cells, Function.update φ i φ' j = .ended orphan.tx cells ∧
      (orphan.rolledBack = true → cells = .empty) := by
  have hold : (∃ r, orphan ∈ s.world.unfinished r) ∨ (∃ j, orphan ∈ (φ j).hands) →
      ∃ j cells, Function.update φ i φ' j = .ended orphan.tx cells ∧
        (orphan.rolledBack = true → cells = .empty) := by
    intro horphan
    obtain ⟨j, cells, hj, hcells⟩ := h.orphans orphan horphan
    exact ⟨j, cells, update_ended hmove hj, hcells⟩
  rcases horphan with ⟨r', horphan⟩ | ⟨j, horphan⟩
  · rcases hadmits.mem_unfinished horphan with horphan | ⟨change, rfl, horphan⟩
    · exact hold (.inl ⟨r', horphan⟩)
    · rcases hmove.mem_change horphan with horphan | horphan | ⟨cells, rfl, hcells⟩
      · exact hold (.inl ⟨r, horphan⟩)
      · exact hold (.inr ⟨i, horphan⟩)
      · exact ⟨i, cells, Function.update_self _ _ _, hcells⟩
  · by_cases hji : j = i
    · subst hji
      rw [Function.update_self] at horphan
      rcases hmove.mem_hands horphan with horphan | ⟨change, listed, rfl, horphan⟩
      · exact hold (.inr ⟨j, horphan⟩)
      · rw [hadmits.listed_eq] at horphan
        exact hold (.inl ⟨r, horphan⟩)
    · rw [Function.update_of_ne hji] at horphan
      exact hold (.inr ⟨j, horphan⟩)

theorem stored_step (hadmits : s.world.Admits r step w) (j : ι) (tx : Transaction)
    (hj : (Function.update φ i φ' j).tx? = some tx) (row : Change) :
    w.store.cell? row tx.writePointer = (Function.update φ i φ' j).cells row := by
  rcases update_tx? hmove with ⟨session, new, rfl, hi, rfl⟩ | ⟨hsame, -⟩
  · have hnew := (h.new_pointer hadmits).2
    rw [hadmits.store_eq (by nofun)]
    by_cases hji : j = i
    · subst hji
      rw [Function.update_self] at hj ⊢
      cases hj
      exact hnew row
    · rw [Function.update_of_ne hji] at hj ⊢
      exact h.stored j tx hj row
  · rw [hsame] at hj
    rcases (store_step hadmits hmove).2 with ⟨hstore, hcells⟩ | ⟨own, set, cell, hown, hcells, hstore⟩
    · rw [hstore, h.stored j tx hj row]
      by_cases hji : j = i
      · subst hji
        rw [Function.update_self, hcells]
      · rw [Function.update_of_ne hji]
    · rw [hstore]
      by_cases hji : j = i
      · subst hji
        have heq : own = tx := Option.some.inj (hown.symm.trans hj)
        subst heq
        rw [Function.update_self, hcells, h.stored j own hj row]
        by_cases hrow : row = set
        · subst hrow
          rw [if_pos ⟨rfl, rfl⟩, Function.update_self]
        · rw [if_neg (fun hboth => hrow hboth.1), Function.update_of_ne hrow]
      · have hne : tx.writePointer ≠ own.writePointer :=
          fun heq => hji (h.distinct j i tx own hj hown heq)
        rw [if_neg (fun hboth => hne hboth.2), Function.update_of_ne hji, h.stored j tx hj row]

theorem unowned_step (hadmits : s.world.Admits r step w) (p : Nat)
    (hp : ∀ j tx, (Function.update φ i φ' j).tx? = some tx → tx.writePointer ≠ p) (row : Change) :
    w.store.cell? row p = start.store.cell? row p := by
  have hp' : ∀ j tx, (φ j).tx? = some tx → tx.writePointer ≠ p :=
    fun j tx hj => hp j tx (tx?_update hmove hj)
  rw [← h.unowned p hp' row]
  rcases (store_step hadmits hmove).2 with ⟨hstore, -⟩ | ⟨own, set, cell, hown, -, hstore⟩
  · rw [hstore]
  · rw [hstore, if_neg (fun hboth => hp' i own hown hboth.2.symm)]

omit hmove in
theorem found_step (hadmits : s.world.Admits r step w) (j : ι) (table : String)
    (schema : { schema : TableSchema // schema.name = table })
    (hfound : (j, .asked (.find table) (.ok schema)) ∈ (i, step) :: s.history) :
    start.schemas table = some schema := by
  rcases List.mem_cons.1 hfound with heq | hmem
  · cases heq
    rw [← h.schemas]
    cases hadmits with
    | leave hleaves => exact hleaves
  · exact h.found j table schema hmem

end Step

/-- Every step of an execution keeps the relation, with the phase that the step moves it to. -/
theorem step (h : Sound works start s φ) {i : ι} {step : Step} {r : Nat} {w : World}
    {p : Program (Except StoreError (α i))} (htakes : (s.program i).Takes step p)
    (hadmits : s.world.Admits r step w) :
    ∃ φ', Move (works i) (φ i) step φ' ∧
      Sound works start ⟨w, Function.update s.program i p, (i, step) :: s.history⟩
        (Function.update φ i φ') := by
  obtain ⟨φ', hmove, hobeys⟩ := (h.obeys i).takes htakes trivial
  refine ⟨φ', hmove, ?_⟩
  constructor
  case quiet => exact h.quiet
  case obeys =>
    intro j
    by_cases hji : j = i
    · subst hji
      simpa using hobeys
    · simpa [hji] using h.obeys j
  case conduct =>
    intro j
    by_cases hji : j = i
    · subst hji
      rw [History.of_cons_self, Function.update_self]
      exact (h.conduct j).step hmove
    · rw [History.of_cons_of_ne (Ne.symm hji), Function.update_of_ne hji]
      exact h.conduct j
  case tracks => exact (h.coordinator_step hadmits).1
  case reveals => exact (h.coordinator_step hadmits).2
  case handedOut => exact h.handedOut_step hmove
  case distinct => exact fun j k tx tx' hj hk => h.distinct_step hmove j k tx tx' hadmits hj hk
  case released => exact h.released_step hmove
  case committed => exact h.committed_step hmove
  case recorded => exact h.recorded_step hmove
  case condemned => exact h.condemned_step hmove
  case orphans => exact h.orphans_step hmove hadmits
  case stored => exact h.stored_step hmove hadmits
  case unowned => exact h.unowned_step hmove hadmits
  case tables => exact fun table => ((store_step hadmits hmove).1 table).trans (h.tables table)
  case schemas => exact hadmits.schemas_eq.trans h.schemas
  case found => exact h.found_step hadmits

theorem reach (h : Sound works start s φ) (available : Bool) :
    Sound works start
      { s with world := { s.world with coordinator := { s.world.coordinator with available } } } φ where
  quiet := h.quiet
  obeys := h.obeys
  conduct := h.conduct
  tracks := h.tracks.reach available
  reveals := h.reveals.reach available
  handedOut := h.handedOut
  distinct := h.distinct
  released := h.released
  committed := h.committed
  recorded := h.recorded
  condemned := h.condemned
  orphans := h.orphans
  stored := h.stored
  unowned := h.unowned
  tables := h.tables
  schemas := h.schemas
  found := h.found

/-- Along a run the relation holds, and what has committed stays so. -/
theorem reaches {runnerOf : ι → Nat} {s' : System α} (h : Sound works start s φ)
    (hs : System.Reaches runnerOf s s') :
    ∃ ψ, Sound works start s' ψ ∧ ∀ i tx held, φ i = .committed tx held → ψ i = .committed tx held := by
  induction hs with
  | refl => exact ⟨φ, h, fun _ _ _ => id⟩
  | tail _ hnext ih =>
    obtain ⟨ψ, hψ, hstays⟩ := ih
    cases hnext with
    | step i htakes hadmits =>
      obtain ⟨φ', hmove, hstep⟩ := hψ.step htakes hadmits
      refine ⟨_, hstep, fun j tx held hj => ?_⟩
      exact update_committed hmove (hstays j tx held hj)
    | reach available => exact ⟨ψ, hψ.reach available, hstays⟩

end Sound

/-- In every interleaving that starts quietly, systems and the phases of their executions fit. -/
theorem sound_of_reaches {works : (i : ι) → Work Elsewhere (α i)} {runnerOf : ι → Nat} {w : World}
    {s : System α} (h : w.Quiet) (hs : System.Reaches runnerOf (.start works w) s) :
    ∃ φ, Sound works w s φ := by
  obtain ⟨φ, hφ, -⟩ := (Sound.start works h).reaches hs
  exact ⟨φ, hφ⟩

end Tabular.Interleaving
