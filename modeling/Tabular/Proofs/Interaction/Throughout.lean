import Tabular.Proofs.Interaction.Attempts
import Tabular.Proofs.Interaction.Sharing

/-!
# Tabular.Proofs.Interaction.Throughout — programs that run alone, step by step

`Throughout others fine post p w` says that `fine` holds wherever `p` may get that is begun where the cell
and the others are as in `w`, and `post` where it ends.  One rule for each way of putting programs together.
Main statements: `Throughout.takes`, what holds of a program holds of what is left of it after a step; and
`Interaction.Follows.throughout`, what a program follows it keeps to when it runs alone.
-/

namespace Tabular

namespace Sharing

variable {σ Call V : Type} {Reply : Call → Type} {α β : Type}

instance : Interaction.Unread (Program σ Reply) := ⟨fun _ => rfl⟩

/-- Whether a place lets a program take a step, and is as another then. -/
inductive Meets (others : V → (c : Call) → Reply c → V → Prop) (w : Place σ V) :
    Step σ Reply → Place σ V → Prop where
  | met {β : Type} (outcome : β) : Meets others w (.met outcome) w
  | update (change : σ → σ) :
    Meets others w (.asked (.update change) w.content) { w with content := change w.content }
  | call {c : Call} {reply : Reply c} {v : V} (h : others w.outside c reply v) :
    Meets others w (.asked (.call c) reply) { w with outside := v }

/-- Whether `fine` holds wherever a program may get, and `post` of where it ends and of its value. -/
def Throughout (others : V → (c : Call) → Reply c → V → Prop) (fine : Place σ V → Prop)
    (post : Place σ V → α → Prop) : Program σ Reply α → Place σ V → Prop
  | .done a, w => fine w ∧ post w a
  | .act _ next, w => fine w ∧ ∀ outcome, Throughout others fine post (next outcome) w
  | .ask r next, w =>
    fine w ∧ ∀ answer w', Meets others w (.asked r answer) w' → Throughout others fine post (next answer) w'

variable {others : V → (c : Call) → Reply c → V → Prop} {fine : Place σ V → Prop} {w w' : Place σ V}

namespace Throughout

section Programs

variable {post : Place σ V → α → Prop} {p q : Program σ Reply α}

theorem fine_of (h : Throughout others fine post p w) : fine w := by
  cases p with
  | done a => exact h.1
  | act x next => exact h.1
  | ask r next => exact h.1

/-- What holds of a program holds of what is left of it after a step. -/
theorem takes {step : Step σ Reply} (h : Throughout others fine post p w) (hp : p.Takes step q)
    (hw : Meets others w step w') : Throughout others fine post q w' := by
  cases hp with
  | met x next outcome =>
    cases hw
    exact h.2 outcome
  | asked r next answer => exact h.2 answer w' hw

theorem mono {post' : Place σ V → α → Prop} (h : Throughout others fine post p w)
    (hpost : ∀ w a, post w a → post' w a) : Throughout others fine post' p w := by
  induction p generalizing w with
  | done a => exact ⟨h.1, hpost w a h.2⟩
  | act x next ih => exact ⟨h.1, fun outcome => ih outcome (h.2 outcome)⟩
  | ask r next ih => exact ⟨h.1, fun answer w' hw => ih answer (h.2 answer w' hw)⟩

/-- The rule for sequencing. -/
theorem bind {post' : Place σ V → β → Prop} {f : α → Program σ Reply β} (h : Throughout others fine post p w)
    (hf : ∀ w a, fine w → post w a → Throughout others fine post' (f a) w) :
    Throughout others fine post' (p >>= f) w := by
  induction p generalizing w with
  | done a => exact hf w a h.1 h.2
  | act x next ih => exact ⟨h.1, fun outcome => ih outcome (h.2 outcome)⟩
  | ask r next ih => exact ⟨h.1, fun answer w' hw => ih answer (h.2 answer w' hw)⟩

/-- Changing the content of the cell. -/
theorem modify {change : σ → σ} {post : Place σ V → Unit → Prop} (hfine : fine w)
    (hchanged : fine { w with content := change w.content })
    (hpost : post { w with content := change w.content } ()) :
    Throughout others fine post (cell.modify change : Program σ Reply Unit) w := by
  refine ⟨hfine, fun answer w' hw => ?_⟩
  cases hw
  exact ⟨hchanged, hpost⟩

theorem call {c : Call} {post : Place σ V → Reply c → Prop} (hfine : fine w)
    (h : ∀ reply v, others w.outside c reply v →
      fine { w with outside := v } ∧ post { w with outside := v } reply) :
    Throughout others fine post (Sharing.call c : Program σ Reply (Reply c)) w := by
  refine ⟨hfine, fun answer w' hw => ?_⟩
  cases hw with
  | call hreply => exact h _ _ hreply

end Programs

/-! ### Attempts -/

section Attempts

variable {x : Attempt (Program σ Reply) α} {post : Place σ V → Except StoreError α → Prop}
  {post' : Place σ V → Except StoreError β → Prop}

/-- An attempt that fails ends the whole. -/
theorem andThen {f : α → Attempt (Program σ Reply) β} (h : Throughout others fine post x.run w)
    (hok : ∀ w a, fine w → post w (.ok a) → Throughout others fine post' (f a).run w)
    (herror : ∀ w e, post w (.error e) → post' w (.error e)) :
    Throughout others fine post' (x >>= f).run w := by
  refine bind (p := x.run) h ?_
  rintro w (e | a) hfine hpost
  · exact ⟨hfine, herror w e hpost⟩
  · exact hok w a hfine hpost

/-- A program within an attempt. -/
theorem lift {y : Program σ Reply α} {post : Place σ V → α → Prop} {f : α → Attempt (Program σ Reply) β}
    (h : Throughout others fine post y w)
    (hf : ∀ w a, fine w → post w a → Throughout others fine post' (f a).run w) :
    Throughout others fine post' ((liftM y : Attempt (Program σ Reply) α) >>= f).run w := by
  have hlifted : Throughout others fine (fun w r => ∃ a, r = .ok a ∧ post w a)
      (liftM y : Attempt (Program σ Reply) α).run w :=
    bind h fun w a hfine hpost => ⟨hfine, a, rfl, hpost⟩
  refine hlifted.andThen ?_ ?_
  · rintro w a hfine ⟨_, ⟨⟩, hpost⟩
    exact hf w a hfine hpost
  · rintro w e ⟨_, ⟨⟩, -⟩

/-- Going on with how an attempt ended. -/
theorem outcome {f : Except StoreError α → Attempt (Program σ Reply) β}
    (h : Throughout others fine post x.run w)
    (hf : ∀ w r, fine w → post w r → Throughout others fine post' (f r).run w) :
    Throughout others fine post' (x.outcome >>= f).run w := lift h hf

theorem mapError {restate : StoreError → StoreError} {post' : Place σ V → Except StoreError α → Prop}
    (h : Throughout others fine post x.run w)
    (hpost : ∀ w r, post w r → post' w (r.mapError restate)) :
    Throughout others fine post' (x.mapError restate).run w :=
  bind (p := x.run) h fun w r hfine hr => ⟨hfine, hpost w r hr⟩

end Attempts

end Throughout

end Sharing

namespace Interaction.Follows

open Sharing (Program Place Meets Throughout)

variable {σ Call V : Type} {Reply : Call → Type} {α : Type} {τ : Type v}
  {others : V → (c : Call) → Reply c → V → Prop} {fine : Place σ V → Prop} {w : Place σ V}
  {move : τ → Sharing.Step σ Reply → τ → Prop} {known : Sharing.Step σ Reply → Prop} {post : τ → α → Prop}
  {p : Program σ Reply α} {t : τ} {agrees : τ → Place σ V → Prop}

/-- What a program follows it keeps to when it runs alone, where what it is answered is known and every move
leads from a state that agrees with the place to another one. -/
theorem throughout (h : Follows move known post t p) (hw : agrees t w)
    (hfine : ∀ t w, agrees t w → fine w)
    (hknown : ∀ t w step w', agrees t w → Meets others w step w' → known step)
    (hmove : ∀ t w step t' w', agrees t w → move t step t' → Meets others w step w' → agrees t' w') :
    Throughout others fine (fun w a => ∃ t, agrees t w ∧ post t a) p w := by
  induction p generalizing t w with
  | done a => exact ⟨hfine t w hw, t, hw, h⟩
  | act x next ih =>
    refine ⟨hfine t w hw, fun outcome => ?_⟩
    obtain ⟨t', hstep, hnext⟩ := h outcome (hknown t w _ w hw (.met outcome))
    exact ih outcome hnext (hmove t w _ t' w hw hstep (.met outcome))
  | ask r next ih =>
    refine ⟨hfine t w hw, fun answer w' hmeets => ?_⟩
    obtain ⟨t', hstep, hnext⟩ := h answer (hknown t w _ w' hw hmeets)
    exact ih answer hnext (hmove t w _ t' w' hw hstep hmeets)

end Interaction.Follows

end Tabular
