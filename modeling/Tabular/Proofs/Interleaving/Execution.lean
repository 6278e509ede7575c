import Tabular.Proofs.Interleaving.Work

/-!
# Tabular.Proofs.Interleaving.Execution — every execution moves through the phases

One lemma for each part of a coordinated execution says which phases it goes through, whatever it is
answered.  Main statement: `obeys_executing`, an execution makes nothing but moves, and ends well only
with its transaction committed.
-/

namespace Tabular.Interleaving

open Execution (Performs)
open Interaction (Follows)

/-- Whether a program, from a phase on, makes nothing but moves, and `post` holds in the end. -/
abbrev Obeys {α β : Type} (work : Work Elsewhere α) (post : Phase → β → Prop) (φ : Phase)
    (p : Program β) : Prop :=
  Follows (Move work) (fun _ => True) post φ p

variable {α β : Type} {work : Work Elsewhere α} {tx : Transaction} {held : Participants}
  {cells cells' cells'' : Cells} {φ : Phase}

/-! ### Writing -/

/-- Whether a row is one of those that participants say are written. -/
def Covers (participants : List Participant) (row : Change) : Prop :=
  ∃ p ∈ participants, row.table = p.schema.name ∧ row.key ∈ p.persisted

theorem obeys_writeCells (table : String) (entries : List (RowKey × Option Row)) (written : List RowKey)
    (hentries : ∀ entry ∈ entries, Cells.held held ⟨table, entry.1⟩ = some entry.2) :
    Obeys work
      (fun φ result => ∃ cells', φ = .writing tx held cells' ∧
        cells.Wrote held (fun row => row.table = table ∧ row.key ∈ result.2) cells' ∧
        (∀ key ∈ written, key ∈ result.2) ∧
        (result.1 = .ok () → ∀ entry ∈ entries, cells' ⟨table, entry.1⟩ = some entry.2))
      (.writing tx held cells)
      (Participant.writeCells shared.store table tx.writePointer entries written) := by
  induction entries generalizing cells written with
  | nil => exact ⟨cells, rfl, fun row => .inl rfl, fun _ h => h, fun _ _ h => nomatch h⟩
  | cons entry rest ih =>
    obtain ⟨key, cell⟩ := entry
    refine Follows.ask fun answer _ => ?_
    cases answer with
    | error e =>
      refine ⟨_, .writeFails ⟨table, key⟩ cell e, cells, rfl, fun row => .inl rfl, fun _ h => h, ?_⟩
      exact nofun
    | ok u =>
      have hcell := hentries _ List.mem_cons_self
      refine ⟨_, .write hcell, ?_⟩
      refine (ih (key :: written) fun entry h => hentries entry (List.mem_cons_of_mem _ h)).mono ?_
      rintro φ result ⟨cells', hφ, hwrote, hwritten, hall⟩
      have hrow : cells' ⟨table, key⟩ = some cell := by
        rcases hwrote ⟨table, key⟩ with h | h
        · rw [h, Function.update_self]
        · rw [h.1, hcell]
      refine ⟨cells', hφ, fun row => ?_, fun k h => hwritten k (List.mem_cons_of_mem _ h), ?_⟩
      · by_cases hkey : row = ⟨table, key⟩
        · subst hkey
          exact .inr ⟨hrow.trans hcell.symm, rfl, hwritten key List.mem_cons_self⟩
        · have := hwrote row
          rwa [Function.update_of_ne hkey] at this
      · intro hok entry hentry
        rcases List.mem_cons.1 hentry with rfl | hentry
        · exact hrow
        · exact hall hok entry hentry

theorem obeys_persist (p : Participant)
    (hheld : ∀ key, Cells.held held ⟨p.schema.name, key⟩ = p.writes[key]?) :
    Obeys work
      (fun φ result => ∃ cells', φ = .writing tx held cells' ∧
        cells.Wrote held (Covers [result.2]) cells' ∧
        (result.1 = .ok () → ∀ key, p.writes[key]?.isSome →
          cells' ⟨p.schema.name, key⟩ = Cells.held held ⟨p.schema.name, key⟩))
      (.writing tx held cells) (p.persist shared.store tx) := by
  have hentries : ∀ entry ∈ p.writes.toList,
      Cells.held held ⟨p.schema.name, entry.1⟩ = some entry.2 := by
    intro entry hentry
    rw [hheld, ← Std.ExtTreeMap.mem_toList_iff_getElem?_eq_some]
    exact hentry
  refine Follows.bind (obeys_writeCells p.schema.name _ p.persisted hentries) ?_
  rintro φ ⟨result, persisted⟩ ⟨cells', hφ, hwrote, -, hall⟩
  refine ⟨cells', hφ, hwrote.mono fun row hrow => ⟨_, List.mem_singleton_self _, hrow⟩, ?_⟩
  intro hok key hkey
  obtain ⟨cell, hcell⟩ := Option.isSome_iff_exists.1 hkey
  rw [hheld, hcell]
  exact hall hok (key, cell) (Std.ExtTreeMap.mem_toList_iff_getElem?_eq_some.2 hcell)

/-- What `persistAll` writes are the changes of the participants, in rows that they remember. -/
theorem obeys_persistAll (participants : List Participant)
    (hheld : ∀ p ∈ participants, ∀ key, Cells.held held ⟨p.schema.name, key⟩ = p.writes[key]?) :
    Obeys work
      (fun φ result => ∃ cells', φ = .writing tx held cells' ∧
        cells.Wrote held (Covers result.2) cells' ∧
        (result.1 = .ok () → ∀ p ∈ participants, ∀ key, p.writes[key]?.isSome →
          cells' ⟨p.schema.name, key⟩ = Cells.held held ⟨p.schema.name, key⟩))
      (.writing tx held cells) (Participant.persistAll shared.store tx participants) := by
  induction participants generalizing cells with
  | nil => exact ⟨cells, rfl, fun row => .inl rfl, fun _ _ h => nomatch h⟩
  | cons p rest ih =>
    refine Follows.bind (obeys_persist p (hheld p List.mem_cons_self)) ?_
    rintro φ ⟨result, p'⟩ ⟨cells', rfl, hwrote, hall⟩
    cases result with
    | error e =>
      refine ⟨cells', rfl, hwrote.mono ?_, nofun⟩
      rintro row ⟨q, hq, hrow⟩
      exact ⟨q, List.mem_cons.2 (.inl (List.mem_singleton.1 hq)), hrow⟩
    | ok u =>
      refine Follows.bind (ih fun q hq => hheld q (List.mem_cons_of_mem _ hq)) ?_
      rintro φ ⟨result, rest'⟩ ⟨cells'', rfl, hwrote', hall'⟩
      refine ⟨cells'', rfl, (hwrote.trans hwrote').mono ?_, ?_⟩
      · rintro row (⟨q, hq, hrow⟩ | ⟨q, hq, hrow⟩)
        · exact ⟨q, List.mem_cons.2 (.inl (List.mem_singleton.1 hq)), hrow⟩
        · exact ⟨q, List.mem_cons_of_mem _ hq, hrow⟩
      · intro hok q hq key hkey
        rcases List.mem_cons.1 hq with rfl | hq
        · exact hwrote'.eq_held (hall rfl key hkey)
        · exact hall' hok q hq key hkey

/-! ### Undoing -/

theorem obeys_undoCells (table : String) (keys : List RowKey) (h : φ.Holds tx cells) :
    Obeys work
      (fun φ result => ∃ cells', φ.Holds tx cells' ∧ cells.Undone cells' ∧
        (result.1 = .ok () → ∀ key ∈ keys, cells' ⟨table, key⟩ = none))
      φ (Participant.undoCells shared.store table tx.writePointer keys) := by
  induction keys generalizing φ cells with
  | nil => exact ⟨cells, h, fun row => .inl rfl, fun _ _ h => nomatch h⟩
  | cons key rest ih =>
    refine Follows.ask fun answer _ => ?_
    cases answer with
    | error e =>
      exact ⟨_, .undoFails h ⟨table, key⟩ e, cells, Phase.holds_failing, fun row => .inl rfl, nofun⟩
    | ok u =>
      refine ⟨_, .undo h ⟨table, key⟩, (ih Phase.holds_failing).mono ?_⟩
      rintro φ' result ⟨cells', hφ', hundone, hall⟩
      have hfirst : cells.Undone (Function.update cells ⟨table, key⟩ none) := by
        intro row
        by_cases hrow : row = ⟨table, key⟩
        · exact .inr (by rw [hrow, Function.update_self])
        · exact .inl (Function.update_of_ne hrow _ _)
      refine ⟨cells', hφ', hfirst.trans hundone, ?_⟩
      intro hok k hk
      rcases List.mem_cons.1 hk with rfl | hk
      · exact hundone.eq_none (Function.update_self _ _ _)
      · exact hall hok k hk

theorem obeys_rollback (p : Participant) (h : φ.Holds tx cells) :
    Obeys work
      (fun φ result => ∃ cells', φ.Holds tx cells' ∧ cells.Undone cells' ∧
        (result.1 = .ok () → ∀ key ∈ p.persisted, cells' ⟨p.schema.name, key⟩ = none))
      φ (p.rollback shared.store tx) := by
  refine Follows.bind (obeys_undoCells p.schema.name p.persisted h) ?_
  rintro φ' ⟨result, persisted⟩ hφ'
  exact hφ'

/-- If `rollbackAll` succeeds, nothing is left in the rows that the participants remember. -/
theorem obeys_rollbackAll (participants : List Participant) (h : φ.Holds tx cells) :
    Obeys work
      (fun φ result => ∃ cells', φ.Holds tx cells' ∧ cells.Undone cells' ∧
        (result.1 = .ok () → ∀ row, Covers participants row → cells' row = none))
      φ (Participant.rollbackAll shared.store tx participants) := by
  induction participants generalizing φ cells with
  | nil =>
    refine ⟨cells, h, fun row => .inl rfl, ?_⟩
    rintro - row ⟨p, hp, -⟩
    cases hp
  | cons p rest ih =>
    refine Follows.bind (obeys_rollback p h) ?_
    rintro φ' ⟨result, p'⟩ ⟨cells', hφ', hundone, hall⟩
    have hrest : Obeys work
        (fun φ outcome => ∃ cells', φ.Holds tx cells' ∧ cells.Undone cells' ∧
          (outcome.1 = .ok () → ∀ row, Covers (p :: rest) row → cells' row = none))
        φ' (do
          let r ← Participant.rollbackAll shared.store tx rest
          return (Participant.firstFailure result r.1, p' :: r.2)) := by
      refine Follows.bind (ih hφ') ?_
      rintro φ'' ⟨others, rest'⟩ ⟨cells'', hφ'', hundone', hall'⟩
      refine ⟨cells'', hφ'', hundone.trans hundone', ?_⟩
      intro hok row hrow
      cases result with
      | error e => cases hok
      | ok u =>
        obtain ⟨q, hq, htable, hkey⟩ := hrow
        rcases List.mem_cons.1 hq with rfl | hq
        · obtain ⟨table, key⟩ := row
          cases htable
          exact hundone'.eq_none (hall rfl key hkey)
        · exact hall' hok row ⟨q, hq, htable, hkey⟩
    cases result with
    | error e => exact hrest
    | ok u => exact hrest

/-! ### Settling -/

section Settle

variable {σ : Type v} {move : σ → Step → σ → Prop} {known : Step → Prop} {s : σ}

/-- Settling a transaction is one call on the session, which settles it or fails. -/
theorem follows_settle {orphan : Unfinished} {post : σ → Except StoreError Unit → Prop} (session : Nat)
    (hsettle : ∀ call, Settles orphan call → call.session? = some session →
      ∀ answer : Except StoreError call.Answer, ∃ s', move s (.asked (.coordinator call) answer) s' ∧
        post s' (answer.map fun _ => ())) :
    Follows move known post s (shared.settle session orphan).run := by
  unfold Coordinated.settle
  split
  case isTrue hback =>
    refine Follows.ask fun answer _ => ?_
    obtain ⟨s', hmove, hpost⟩ := hsettle _ (.abort session hback) rfl answer
    refine ⟨s', hmove, ?_⟩
    cases answer <;> exact hpost
  case isFalse hback =>
    refine Follows.ask fun answer _ => ?_
    obtain ⟨s', hmove, hpost⟩ := hsettle _ (.invalidate session (Bool.eq_false_iff.2 hback)) rfl answer
    refine ⟨s', hmove, ?_⟩
    cases answer <;> exact hpost

end Settle

theorem obeys_settleAll (session : Nat) (hands : List Unfinished) :
    Obeys work (fun φ _ => φ = .idle []) (.idle hands) (shared.settleAll session hands).run := by
  induction hands with
  | nil => exact rfl
  | cons orphan rest ih =>
    have hsettle : Obeys work
        (fun φ result => φ = .idle (if result.isOk then rest else orphan :: rest))
        (.idle (orphan :: rest)) (shared.settle session orphan).run :=
      follows_settle session fun call h _ answer => by
        cases answer with
        | ok a => exact ⟨_, .settle h a, rfl⟩
        | error e => exact ⟨_, .settleFails h e, rfl⟩
    refine Follows.outcome hsettle ?_
    rintro φ result rfl
    cases result with
    | ok u => exact ih
    | error e => exact Follows.ask fun listed _ => ⟨_, .putBack (fun _ => rfl) listed, rfl⟩

theorem obeys_settleUnfinished (session : Nat) :
    Obeys work (fun φ _ => φ = .idle []) (.idle []) (shared.settleUnfinished session).run :=
  Follows.ask fun listed _ => ⟨_, .take (fun _ => rfl) listed, obeys_settleAll session listed⟩

/-! ### Ending a transaction -/

/-- Whether a transaction is under way, with cells in rows that its participants remember only. -/
def Phase.Remembered (φ : Phase) (tx : Transaction) (participants : List Participant) : Prop :=
  ∃ cells, φ.Holds tx cells ∧ ∀ row, (cells row).isSome → Covers participants row

theorem obeys_abandon (session : Nat) (usable : Bool) {participants : List Participant}
    (h : φ.Remembered tx participants) :
    Obeys work (fun φ _ => ∃ cells, φ = .ended tx cells) φ
      (shared.abandon session usable tx participants) := by
  obtain ⟨cells, hφ, hcovers⟩ := h
  refine Follows.bind (obeys_rollbackAll participants hφ) ?_
  rintro φ' ⟨result, participants'⟩ ⟨cells', hφ', hundone, hall⟩
  have hback : result.isOk = true → cells' = .empty := by
    intro hok
    cases result with
    | error e => cases hok
    | ok u =>
      funext row
      by_cases hrow : (cells row).isSome
      · exact hall rfl row (hcovers row hrow)
      · exact hundone.eq_none (by simpa using hrow)
  cases usable with
  | false => exact Follows.ask fun listed _ => ⟨_, .leave hφ' hback (fun _ => rfl) listed, _, rfl⟩
  | true =>
    have hsettle : Obeys work
        (fun φ result => φ = if result.isOk then .ended tx cells' else .failing tx cells')
        φ' (shared.settle session ⟨tx, result.isOk⟩).run :=
      follows_settle session fun call h _ answer => by
        cases answer with
        | ok a => exact ⟨_, .endIt hφ' h hback a, rfl⟩
        | error e => exact ⟨_, .endItFails hφ' h e, rfl⟩
    refine Follows.bind hsettle ?_
    rintro φ'' settled rfl
    cases settled with
    | ok u => exact ⟨cells', rfl⟩
    | error e =>
      exact Follows.ask fun listed _ =>
        ⟨_, .leave Phase.holds_failing hback (fun _ => rfl) listed, _, rfl⟩

/-- Whether a run on a session ended well with its transaction committed, or badly without. -/
def Ended (φ : Phase) (ending : Ending) : Prop := φ.Final ending.result

theorem obeys_failWith (session : Nat) (usable : Bool) {participants : List Participant} (e : StoreError)
    (h : φ.Remembered tx participants) :
    Obeys work (fun φ ending => Ended φ ending ∧ ending.result = .error e) φ
      (shared.failWith session usable tx participants e) := by
  refine Follows.bind (obeys_abandon session usable h) ?_
  rintro φ' reusable ⟨cells, rfl⟩
  exact ⟨.inr ⟨tx, cells, rfl⟩, rfl⟩

theorem obeys_confirm (session changeCount : Nat) {participants : List Participant}
    (hcells : cells = .held held) (hcovers : ∀ row, (cells row).isSome → Covers participants row) :
    Obeys work Ended (.writing tx held cells)
      (shared.confirm session tx participants changeCount) := by
  have hfailing : ∀ usable e, Obeys work Ended (.failing tx cells)
      (shared.failWith session usable tx participants e) := fun usable e =>
    (obeys_failWith session usable e ⟨cells, Phase.holds_failing, hcovers⟩).mono fun _ _ h => h.1
  refine Follows.ask fun answer _ => ?_
  cases answer with
  | error e => exact ⟨_, .commitFails (by simp) session, hfailing _ _⟩
  | ok accepted =>
    cases accepted with
    | false => exact ⟨_, .commitFails (by simp) session, hfailing _ _⟩
    | true => exact ⟨_, .commit hcells session, tx, held, rfl⟩

theorem obeys_commit (session : Nat) {steps : List Step} {a : α}
    (h : (working work tx).Leads steps (.done (.ok a, held))) (hfresh : Fresh held) :
    Obeys work Ended (.working tx steps) (shared.commit session tx held.values) := by
  have hnone : ∀ usable e, Obeys work Ended (.failing tx .empty)
      (shared.failWith session usable tx held.values e) := fun usable e =>
    (obeys_failWith session usable e ⟨.empty, Phase.holds_failing, nofun⟩).mono fun _ _ h => h.1
  refine Follows.ask fun answer _ => ?_
  cases answer with
  | error e => exact ⟨_, .announceFails (by simp) session _, hnone _ _⟩
  | ok accepted =>
    cases accepted with
    | false => exact ⟨_, .announceFails (by simp) session _, hnone _ _⟩
    | true =>
      refine ⟨_, .announce h session, ?_⟩
      refine Follows.bind (p := Participant.persistAll shared.store tx held.values)
        (obeys_persistAll held.values fun p hp key => hfresh.held_eq hp key) ?_
      rintro φ ⟨result, participants⟩ ⟨cells, rfl, hwrote, hall⟩
      have hcovers : ∀ row, (cells row).isSome → Covers participants row := by
        intro row hrow
        rcases hwrote row with hsame | ⟨-, hcovers⟩
        · rw [hsame] at hrow
          cases hrow
        · exact hcovers
      cases result with
      | error e =>
        exact (obeys_failWith session true _ ⟨cells, Phase.holds_writing, hcovers⟩).mono fun _ _ h => h.1
      | ok u =>
        refine obeys_confirm session _ ?_ hcovers
        funext row
        rcases hwrote row with hsame | ⟨heq, -⟩
        · cases hrow : Cells.held held row with
          | none => rw [hsame, Cells.empty]
          | some cell =>
            obtain ⟨p, hp, hname, hkey⟩ := hfresh.exists_of_held (by rw [hrow]; rfl)
            rw [← hrow]
            obtain ⟨table, key⟩ := row
            subst hname
            exact hall rfl p hp key hkey
        · exact heq

/-! ### The execution -/

/-- Whether a runner, from a phase on, makes nothing but moves around the unit of work, and `post` holds in the
end. -/
abbrev ObeysAround (work : Work Elsewhere α) (post : Phase → β → Progress α → Prop) (φ : Phase)
    (x : ExecutionM Program β) (progress : Progress α) : Prop :=
  Performs (Follows (Move work) fun _ => True) (lifted work) post φ x progress

/-- Whether a run with the unit of work ended as the phase says, with a value if it ended well. -/
def Told (φ : Phase) (ending : Ending) (progress : Progress α) : Prop :=
  Ended φ ending ∧ (ending.result = .ok () → progress.value.isSome)

theorem obeys_inTransaction (session : Nat) :
    ObeysAround work Told (.working tx []) (shared.inTransaction session tx) { } := by
  refine Performs.report (Performs.bind (Performs.invoke
    ((obeys_working .here (fresh_perform work Fresh.empty)).mono ?_)))
  rintro φ ⟨result, held⟩ ⟨steps, rfl, hleads, hfresh⟩
  cases result with
  | ok a =>
    refine Performs.lifted ((obeys_commit session hleads hfresh).mono ?_)
    exact fun φ ending hended => ⟨hended, fun _ => rfl⟩
  | error failure =>
    have hnothing : (Phase.working tx steps).Remembered tx held.values :=
      ⟨.empty, Phase.holds_working, nofun⟩
    refine Performs.report (Performs.lifted ((obeys_failWith session true _ hnothing).mono ?_))
    rintro φ ending ⟨hended, herror⟩
    exact ⟨hended, fun hok => nomatch hok.symm.trans herror⟩

theorem obeys_onSession (session : Nat) :
    ObeysAround work Told (.idle []) (shared.onSession session) { } := by
  refine Performs.lift ((obeys_settleUnfinished session).mono ?_)
  rintro φ settled rfl
  cases settled with
  | error e => exact ⟨.inl rfl, nofun⟩
  | ok u =>
    refine Performs.lift (Follows.ask fun answer _ => ?_)
    cases answer with
    | error e => exact ⟨_, .beginFails session e, .inl rfl, nofun⟩
    | ok tx => exact ⟨_, .begin session tx, obeys_inTransaction session⟩

theorem obeys_execution :
    ObeysAround work (fun φ r progress => φ.Final r ∧ (r = .ok () → progress.value.isSome)) (.idle [])
      shared.execution { } := by
  have hacquire : Obeys work (fun φ _ => φ = .idle []) (.idle []) shared.sessions.acquire.run :=
    Follows.ask fun _ _ => ⟨_, .acquire _, rfl⟩
  refine Performs.lift (hacquire.mono ?_)
  rintro φ acquired rfl
  cases acquired with
  | error e => exact ⟨.inl rfl, nofun⟩
  | ok session =>
    refine Performs.bind ((obeys_onSession session).mono ?_)
    rintro φ ending progress htold
    exact Performs.lift (Follows.ask fun _ _ => ⟨_, .release htold.1.over _ _, htold⟩)

/-- **Every execution moves through the phases.**  Whatever it is answered, it makes nothing but moves,
and it ends well only with its transaction committed. -/
theorem obeys_executing (work : Work Elsewhere α) :
    Obeys work Phase.Final (.idle []) (executing work) := by
  refine Performs.run (obeys_execution.mono ?_)
  rintro φ result ⟨performed, value⟩ ⟨hfinal, hvalue⟩
  match result, value with
  | .error e, _ => exact hfinal
  | .ok (), some a => exact hfinal
  | .ok (), none => exact nomatch hvalue rfl

end Tabular.Interleaving
