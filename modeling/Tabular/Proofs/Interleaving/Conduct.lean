import Tabular.Proofs.Interleaving.Phase

/-!
# Tabular.Proofs.Interleaving.Conduct — what the steps of an execution tell of its phase

`Conduct work steps φ` says that moves have brought an execution to the phase `φ`, with the given steps.
Its transaction, whether its changes were announced and what they are, and whether they were committed
can then be read off the steps.
-/

namespace Tabular.Interleaving

/-- Whether moves for the steps, the latest first, bring an execution from its first phase to `φ`. -/
abbrev Conduct {α : Type} (work : Work Elsewhere α) (steps : List Step) (φ : Phase) : Prop :=
  Interaction.Moves (Move work) (.idle []) steps φ

namespace Conduct

variable {α : Type} {work : Work Elsewhere α} {steps : List Step} {φ : Phase} {tx : Transaction}
  {held : Participants}

/-- The transaction of an execution is the one that its begin was answered with. -/
theorem began_iff (h : Conduct work steps φ) :
    (∃ session, Interaction.Step.asked (.coordinator (.begin session)) (.ok tx) ∈ steps) ↔
      φ.tx? = some tx := by
  induction h with
  | here => simp [Phase.tx?]
  | @step steps φ φ' step hmoves hmove ih =>
    rcases hmove.tx?_eq with ⟨session, tx', rfl, rfl, rfl⟩ | ⟨heq, hne⟩
    · -- there was no transaction before, so this begin is the only one
      have hnone : ¬ ∃ session,
          Interaction.Step.asked (.coordinator (.begin session)) (.ok tx) ∈ steps := by
        rw [ih]
        exact nofun
      constructor
      · rintro ⟨session', hmem⟩
        rcases List.mem_cons.1 hmem with heq | hmem
        · cases heq
          rfl
        · exact (hnone ⟨session', hmem⟩).elim
      · rintro ⟨⟩
        exact ⟨session, List.mem_cons_self⟩
    · rw [heq, ← ih]
      refine exists_congr fun session => ?_
      rw [List.mem_cons]
      exact or_iff_right fun hstep => hne session tx hstep.symm

theorem steps_eq_of_working {inner : List Step} (h : Conduct work steps (.working tx inner)) :
    ∃ session earlier,
      steps = inner ++ .asked (.coordinator (.begin session)) (.ok tx) :: earlier := by
  generalize hφ : Phase.working tx inner = φ at h
  induction h generalizing inner with
  | here => cases hφ
  | @step steps φ φ' step hmoves hmove ih =>
    subst hφ
    cases hmove
    case release hover => exact hover.elim
    case begin session => exact ⟨session, steps, rfl⟩
    case look inner hlook =>
      obtain ⟨session, earlier, rfl⟩ := ih rfl
      exact ⟨session, earlier, rfl⟩

theorem buffered_of_writing {cells : Cells} (h : Conduct work steps (.writing tx held cells)) :
    History.Buffered work steps tx held := by
  generalize hφ : Phase.writing tx held cells = φ at h
  induction h generalizing cells with
  | here => cases hφ
  | @step steps φ φ' step hmoves hmove ih =>
    subst hφ
    cases hmove
    case release hover => exact hover.elim
    case announce inner a session hleads =>
      obtain ⟨session', earlier, rfl⟩ := steps_eq_of_working hmoves
      exact ⟨[_], inner, earlier, session', a, rfl, hleads⟩
    case write => exact (ih rfl).cons _
    case writeFails => exact (ih rfl).cons _

/-- What an execution has committed is what its unit of work held back. -/
theorem buffered (h : Conduct work steps (.committed tx held)) :
    History.Buffered work steps tx held := by
  generalize hφ : Phase.committed tx held = φ at h
  induction h with
  | here => cases hφ
  | @step steps φ φ' step hmoves hmove ih =>
    subst hφ
    cases hmove
    case release => exact (ih rfl).cons _
    case commit => exact (buffered_of_writing hmoves).cons _

/-- An execution has committed if one of its steps is a commit that was answered with yes. -/
theorem commit_mem_iff (h : Conduct work steps φ) :
    (∃ session, Interaction.Step.asked (.coordinator (.commit session tx)) (.ok true) ∈ steps) ↔
      ∃ held, φ = .committed tx held := by
  induction h with
  | here => simp
  | @step steps φ φ' step hmoves hmove ih =>
    simp only [List.mem_cons, exists_or, ih]
    constructor
    · rintro (⟨session, rfl⟩ | ⟨held, rfl⟩)
      · obtain ⟨held, -, rfl⟩ := hmove.of_commit
        exact ⟨held, rfl⟩
      · exact ⟨held, hmove.eq_of_committed⟩
    · rintro ⟨held, rfl⟩
      rcases hmove.commits_of_committed with rfl | ⟨session, rfl⟩
      · exact .inr ⟨held, rfl⟩
      · exact .inl ⟨session, rfl⟩

/-- While the unit of work runs its changes are not announced. -/
theorem not_announces_of_working {inner : List Step} (h : Conduct work steps (.working tx inner)) :
    ∀ step ∈ steps, History.announces step = false := by
  suffices hidle : ∀ φ, Conduct work steps φ →
      (∃ hands, φ = .idle hands) ∨ (∃ tx inner, φ = .working tx inner) →
        ∀ step ∈ steps, History.announces step = false from
    hidle _ h (.inr ⟨tx, inner, rfl⟩)
  clear h
  intro φ hφ
  induction hφ with
  | here => exact fun _ => nofun
  | @step steps φ φ' step hmoves hmove ih =>
    intro hφ'
    have hearly : History.announces step = false ∧
        ((∃ hands, φ = .idle hands) ∨ ∃ tx inner, φ = .working tx inner) := by
      cases hmove
      case release hover => exact ⟨rfl, hφ'⟩
      case settle hcall a => cases hcall <;> exact ⟨rfl, .inl ⟨_, rfl⟩⟩
      case settleFails hcall e => cases hcall <;> exact ⟨rfl, .inl ⟨_, rfl⟩⟩
      case look tx inner hlook =>
        refine ⟨?_, .inr ⟨tx, inner, rfl⟩⟩
        unfold History.announces
        split
        · exact hlook.elim
        · rfl
      all_goals
        first
        | exact ⟨rfl, .inl ⟨_, rfl⟩⟩
        | rcases hφ' with ⟨_, ⟨⟩⟩ | ⟨_, _, ⟨⟩⟩
    exact List.forall_mem_cons.2 ⟨hearly.1, ih hearly.2⟩

/-- As long as its changes were not announced, an execution has no cell in the store. -/
theorem cells_eq_empty (h : Conduct work steps φ)
    (hsteps : ∀ step ∈ steps, History.announces step = false) :
    φ.cells = .empty ∧ (∀ tx held cells, φ ≠ .writing tx held cells) ∧
      ∀ tx held, φ ≠ .committed tx held := by
  induction h with
  | here => exact ⟨rfl, nofun, nofun⟩
  | @step steps φ φ' step hmoves hmove ih =>
    obtain ⟨hempty, hwriting, hcommitted⟩ := ih fun step hmem => hsteps step (List.mem_cons_of_mem _ hmem)
    have hstep := hsteps step List.mem_cons_self
    cases hmove
    case release => exact ⟨hempty, hwriting, hcommitted⟩
    case announce => cases hstep
    case write => exact (hwriting _ _ _ rfl).elim
    case writeFails => exact (hwriting _ _ _ rfl).elim
    case commit => exact (hwriting _ _ _ rfl).elim
    case commitFails => exact (hwriting _ _ _ rfl).elim
    case undo tx cells row hholds =>
      refine ⟨?_, nofun, nofun⟩
      rw [← hholds.cells_eq, hempty]
      exact Function.update_eq_self row Cells.empty
    case undoFails hholds => exact ⟨hholds.cells_eq.symm.trans hempty, nofun, nofun⟩
    case endIt hholds => exact ⟨hholds.cells_eq.symm.trans hempty, nofun, nofun⟩
    case endItFails hholds => exact ⟨hholds.cells_eq.symm.trans hempty, nofun, nofun⟩
    case leave hholds => exact ⟨hholds.cells_eq.symm.trans hempty, nofun, nofun⟩
    all_goals exact ⟨rfl, nofun, nofun⟩

end Conduct

end Tabular.Interleaving
