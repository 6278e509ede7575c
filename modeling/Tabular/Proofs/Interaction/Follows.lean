import Tabular.Interaction

/-!
# Tabular.Proofs.Interaction.Follows — a small logic for the steps of interactions

`Leads p steps q` says that an interaction took some steps, the latest first, and goes on as `q`.
`Follows move known post s p` says that from `s` on every step of `p` is a move, as long as its answers
are `known`, and that `post` holds where `p` ends.  Rules for sequencing and weakening.  Main statement:
`Follows.leads`, what an interaction follows holds wherever its steps lead.
-/

namespace Tabular.Interaction

variable {Request : Type w} {Answer : Request → Type} {m : Type → Type u} {α β : Type} {σ : Type v}

theorem run_bind {n : Type → Type v} [Monad n] [LawfulMonad n] (lift : {γ : Type} → m γ → n γ)
    (answer : (r : Request) → n (Answer r)) (x : Interaction Answer m α)
    (f : α → Interaction Answer m β) :
    run lift answer (x >>= f) = run lift answer x >>= fun a => run lift answer (f a) := by
  induction x with
  | done a => exact (LawfulMonad.pure_bind a fun a => run lift answer (f a)).symm
  | act x next ih =>
    refine Eq.trans ?_ (LawfulMonad.bind_assoc _ _ _).symm
    exact congrArg _ (funext ih)
  | ask r next ih =>
    refine Eq.trans ?_ (LawfulMonad.bind_assoc _ _ _).symm
    exact congrArg _ (funext ih)

/-- One step of an interaction, with what came of it. -/
inductive Step (Answer : Request → Type) where
  /-- An action, with its outcome. -/
  | met {β : Type} (outcome : β)
  | asked (r : Request) (answer : Answer r)

/-- Whether an interaction may take a step and then goes on as another. -/
inductive Takes : Interaction Answer m α → Step Answer → Interaction Answer m α → Prop where
  | met {β : Type} (x : m β) (next : β → Interaction Answer m α) (outcome : β) :
    Takes (.act x next) (.met outcome) (next outcome)
  | asked (r : Request) (next : Answer r → Interaction Answer m α) (answer : Answer r) :
    Takes (.ask r next) (.asked r answer) (next answer)

/-- Whether an interaction may take steps, the latest first, and then goes on as another. -/
inductive Leads (p : Interaction Answer m α) : List (Step Answer) → Interaction Answer m α → Prop where
  | here : Leads p [] p
  | step {steps : List (Step Answer)} {q q' : Interaction Answer m α} {step : Step Answer} :
    Leads p steps q → Takes q step q' → Leads p (step :: steps) q'

/-- Whether a system gets from one state to another by moves for the steps, the latest first. -/
inductive Moves (move : σ → Step Answer → σ → Prop) (s : σ) : List (Step Answer) → σ → Prop where
  | here : Moves move s [] s
  | step {steps : List (Step Answer)} {t t' : σ} {step : Step Answer} :
    Moves move s steps t → move t step t' → Moves move s (step :: steps) t'

/-- Whether from `s` on every step of an interaction with a known answer is a move, and `post` holds of
the state and the value in the end. -/
def Follows (move : σ → Step Answer → σ → Prop) (known : Step Answer → Prop) (post : σ → α → Prop) :
    σ → Interaction Answer m α → Prop
  | s, .done a => post s a
  | s, .act _ next => ∀ outcome, known (.met outcome) →
      ∃ s', move s (.met outcome) s' ∧ Follows move known post s' (next outcome)
  | s, .ask r next => ∀ answer, known (.asked r answer) →
      ∃ s', move s (.asked r answer) s' ∧ Follows move known post s' (next answer)

namespace Follows

variable {move : σ → Step Answer → σ → Prop} {known : Step Answer → Prop} {post post' : σ → α → Prop}
  {s : σ} {p q : Interaction Answer m α}

/-- What holds after `p` goes on as `f` holds of `p` with that of `f` as what holds in the end. -/
theorem bind_iff {post : σ → β → Prop} {f : α → Interaction Answer m β} :
    Follows move known post s (p >>= f) ↔
      Follows move known (fun s a => Follows move known post s (f a)) s p := by
  induction p generalizing s with
  | done a => exact Iff.rfl
  | act x next ih =>
    refine forall_congr' fun outcome => imp_congr_right fun _ => exists_congr fun s' => ?_
    exact and_congr_right fun _ => ih outcome
  | ask r next ih =>
    refine forall_congr' fun answer => imp_congr_right fun _ => exists_congr fun s' => ?_
    exact and_congr_right fun _ => ih answer

theorem mono (h : Follows move known post s p) (hpost : ∀ s a, post s a → post' s a) :
    Follows move known post' s p := by
  induction p generalizing s with
  | done a => exact hpost s a h
  | act x next ih =>
    intro outcome hknown
    obtain ⟨s', hmove, hnext⟩ := h outcome hknown
    exact ⟨s', hmove, ih outcome hnext⟩
  | ask r next ih =>
    intro answer hknown
    obtain ⟨s', hmove, hnext⟩ := h answer hknown
    exact ⟨s', hmove, ih answer hnext⟩

/-- The rule for sequencing: what holds after the first part is what the second part needs. -/
theorem bind {post : σ → α → Prop} {post' : σ → β → Prop} {f : α → Interaction Answer m β}
    (h : Follows move known post s p)
    (hf : ∀ s a, post s a → Follows move known post' s (f a)) :
    Follows move known post' s (p >>= f) :=
  bind_iff.2 (h.mono hf)

theorem ask {r : Request} {next : Answer r → Interaction Answer m α}
    (h : ∀ answer, known (.asked r answer) →
      ∃ s', move s (.asked r answer) s' ∧ Follows move known post s' (next answer)) :
    Follows move known post s (.ask r next) := h

/-- What makes only moves that another system stays where it is by, leaves that system where it is. -/
theorem stays {τ : Type v'} {move' : τ → Step Answer → τ → Prop} {t : τ}
    (h : Follows move known post s p) (hstays : ∀ s step s', move s step s' → move' t step t) :
    Follows move' known (fun t' _ => t' = t) t p := by
  induction p generalizing s with
  | done a => exact rfl
  | act x next ih =>
    intro outcome hknown
    obtain ⟨s', hmove, hnext⟩ := h outcome hknown
    exact ⟨t, hstays s _ s' hmove, ih outcome hnext⟩
  | ask r next ih =>
    intro answer hknown
    obtain ⟨s', hmove, hnext⟩ := h answer hknown
    exact ⟨t, hstays s _ s' hmove, ih answer hnext⟩

theorem takes {step : Step Answer} (h : Follows move known post s p) (hstep : Takes p step q)
    (hknown : known step) : ∃ s', move s step s' ∧ Follows move known post s' q := by
  cases hstep with
  | met x next outcome => exact h outcome hknown
  | asked r next answer => exact h answer hknown

/-- What an interaction follows holds wherever its steps lead. -/
theorem leads {steps : List (Step Answer)} (h : Follows move known post s p) (hp : Leads p steps q)
    (hknown : ∀ step ∈ steps, known step) :
    ∃ s', Moves move s steps s' ∧ Follows move known post s' q := by
  induction hp with
  | here => exact ⟨s, .here, h⟩
  | step hp hstep ih =>
    obtain ⟨t, hmoves, hq⟩ := ih fun step hmem => hknown step (List.mem_cons_of_mem _ hmem)
    obtain ⟨t', hmove, hq'⟩ := hq.takes hstep (hknown _ List.mem_cons_self)
    exact ⟨t', hmoves.step hmove, hq'⟩

end Follows

end Tabular.Interaction
