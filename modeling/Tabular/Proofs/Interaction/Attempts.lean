import Tabular.Proofs.Runner.Performs

/-!
# Tabular.Proofs.Interaction.Attempts — what attempts and executions follow

Rules of `Interaction.Follows` for the ways in which attempts are put together, beside a state
(`Interaction.Runs`) or not.  Main statement: what interactions follow is a `ProgramLogic`, so that the rules
for executions hold of it.
-/

namespace Tabular.Interaction

variable {Request : Type w} {Answer : Request → Type} {m : Type → Type u} {α β γ : Type} {σ : Type v}
  {move : σ → Step Answer → σ → Prop} {known : Step Answer → Prop} {s : σ}

/-! ### Attempts -/

namespace Follows

variable {x : Attempt (Interaction Answer m) β} {post : σ → Except StoreError β → Prop}
  {post' : σ → Except StoreError γ → Prop}

/-- An attempt that fails ends the whole. -/
theorem andThen {f : β → Attempt (Interaction Answer m) γ} (h : Follows move known post s x.run)
    (hok : ∀ s b, post s (.ok b) → Follows move known post' s (f b).run)
    (herror : ∀ s e, post s (.error e) → post' s (.error e)) :
    Follows move known post' s (x >>= f).run := by
  refine Follows.bind (p := x.run) h ?_
  rintro s (e | b) hpost
  · exact herror s e hpost
  · exact hok s b hpost

/-- Going on with how an attempt ended. -/
theorem outcome {f : Except StoreError β → Attempt (Interaction Answer m) γ}
    (h : Follows move known post s x.run)
    (hf : ∀ s r, post s r → Follows move known post' s (f r).run) :
    Follows move known post' s (x.outcome >>= f).run :=
  Follows.bind (Follows.bind h fun s r hpost => (hf s r hpost : Follows move known post' s _))
    fun _ _ => id

theorem mapError {restate : StoreError → StoreError} {post' : σ → Except StoreError β → Prop}
    (h : Follows move known post s x.run)
    (hpost : ∀ s r, post s r → post' s (r.mapError restate)) :
    Follows move known post' s (x.mapError restate).run :=
  Follows.bind (p := x.run) h fun s r hr => hpost s r hr

/-- A program within an attempt. -/
theorem lift {y : Interaction Answer m β} {post : σ → β → Prop}
    {f : β → Attempt (Interaction Answer m) γ} (h : Follows move known post s y)
    (hf : ∀ s b, post s b → Follows move known post' s (f b).run) :
    Follows move known post' s ((liftM y : Attempt (Interaction Answer m) β) >>= f).run :=
  Follows.bind (Follows.bind h fun s b hpost => (hf s b hpost : Follows move known post' s _))
    fun _ _ => id

end Follows

/-! ### Attempts beside a state -/

variable {τ : Type} {t : τ}

/-- What an attempt beside a state follows; `post` holds of what comes of it and of the state in the end. -/
def Runs (move : σ → Step Answer → σ → Prop) (known : Step Answer → Prop)
    (post : σ → Except StoreError β → τ → Prop) (s : σ)
    (x : Attempt (StateT τ (Interaction Answer m)) β) (t : τ) : Prop :=
  Follows move known (fun s r => post s r.1 r.2) s (x.run t)

namespace Runs

variable {x : Attempt (StateT τ (Interaction Answer m)) β} {post post' : σ → Except StoreError β → τ → Prop}

theorem mono (h : Runs move known post s x t) (hpost : ∀ s r t, post s r t → post' s r t) :
    Runs move known post' s x t :=
  Follows.mono h fun s r => hpost s r.1 r.2

theorem andThen {f : β → Attempt (StateT τ (Interaction Answer m)) γ}
    {post' : σ → Except StoreError γ → τ → Prop} (h : Runs move known post s x t)
    (hok : ∀ s b t, post s (.ok b) t → Runs move known post' s (f b) t)
    (herror : ∀ s e t, post s (.error e) t → post' s (.error e) t) :
    Runs move known post' s (x >>= f) t := by
  refine Follows.bind (p := x.run t) h ?_
  rintro s ⟨e | b, t'⟩ hpost
  · exact herror s e t' hpost
  · exact hok s b t' hpost

/-- Something that does not touch the state. -/
theorem lifted {y : Attempt (Interaction Answer m) β}
    (h : Follows move known (fun s r => post s r t) s y.run) : Runs move known post s y.lifted t :=
  Follows.bind (p := y.run) h fun _ _ => id

/-- Going on with something that is known to have ended so. -/
theorem of_bind {r : Except StoreError β} {f : β → Attempt (StateT τ (Interaction Answer m)) γ}
    {post : σ → Except StoreError γ → τ → Prop} (hok : ∀ b, r = .ok b → Runs move known post s (f b) t)
    (herror : ∀ e, r = .error e → post s (.error e) t) : Runs move known post s (Attempt.of r >>= f) t := by
  cases r with
  | ok b => exact hok b rfl
  | error e => exact herror e rfl

/-- Looking at the state. -/
theorem get {f : τ → Attempt (StateT τ (Interaction Answer m)) γ}
    {post' : σ → Except StoreError γ → τ → Prop} (h : Runs move known post' s (f t) t) :
    Runs move known post' s (MonadState.get >>= f) t := h

end Runs

/-! ### Executions -/

/-- Whether nobody looks at what programs report. -/
class Unread (P : Type → Type v) [Monad P] [Journal P] : Prop where
  report_eq (event : Event) : (report event : P Unit) = pure ()

instance : ProgramLogic (Follows move known : {β : Type} → (σ → β → Prop) → σ → Interaction Answer m β → Prop) where
  mono := Follows.mono
  pure := id
  bind := Follows.bind_iff.2

instance [Journal (Interaction Answer m)] [Unread (Interaction Answer m)] :
    ProgramLogic.Unheard
      (Follows move known : {β : Type} → (σ → β → Prop) → σ → Interaction Answer m β → Prop) where
  report h := by
    rw [Unread.report_eq]
    exact h

end Tabular.Interaction
