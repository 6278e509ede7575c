import Tabular.Attempt
import Tabular.Cell
import Tabular.Journal
import Tabular.Proofs.Interaction.Follows

/-!
# Tabular.Proofs.Interaction.Sharing — programs around a cell

A `Program` asks for two things: to change the content of one cell, and calls to others.  As a tree of
what it may ask it can be taken step by step, next to other programs around the same cell, or to its end:
`Ends others p w a w'` says that `p`, begun where the cell and the others are as in `w`, may end with `a`
and leave them as in `w'`.  Main statements: an equivalence for each way of putting programs together,
and `exists_ends`, if others always answer every program ends.
-/

namespace Tabular.Sharing

variable {σ Call V : Type} {Reply : Call → Type} {α β : Type}

/-- What a program asks. -/
inductive Request (σ Call : Type) where
  /-- Changes the content of the cell and answers the content before. -/
  | update (change : σ → σ)
  | call (c : Call)

/-- What is answered. -/
abbrev Request.Answer (Reply : Call → Type) : Request σ Call → Type
  | update _ => σ
  | call c => Reply c

/-- A computation around a cell. -/
abbrev Program (σ : Type) (Reply : Call → Type) : Type → Type 1 :=
  Interaction (Request.Answer (σ := σ) Reply) Id

/-- A step of a program. -/
abbrev Step (σ : Type) (Reply : Call → Type) : Type 1 := Interaction.Step (Request.Answer (σ := σ) Reply)

/-- Nobody looks at the journal. -/
instance : Journal (Program σ Reply) := ⟨fun _ => .done ()⟩

/-- The cell. -/
def cell : Cell (Program σ Reply) σ := ⟨fun change => Interaction.request (Request.update change)⟩

/-- Calls somebody else. -/
def call (c : Call) : Program σ Reply (Reply c) := Interaction.request (Request.call c)

/-! ### What a program may end with -/

/-- The content of a cell, and how others are. -/
structure Place (σ V : Type) where
  content : σ
  outside : V

/-- Whether a program may end with a value and leave a place as another; `others` says what may become of
a call. -/
def Ends (others : V → (c : Call) → Reply c → V → Prop) :
    Program σ Reply α → Place σ V → α → Place σ V → Prop
  | .done a, w, b, w' => b = a ∧ w' = w
  | .act x next, w, b, w' => Ends others (next x) w b w'
  | .ask (.update change) next, w, b, w' =>
    Ends others (next w.content) { w with content := change w.content } b w'
  | .ask (.call c) next, w, b, w' =>
    ∃ reply v, others w.outside c reply v ∧ Ends others (next reply) { w with outside := v } b w'

variable {others : V → (c : Call) → Reply c → V → Prop} {w w' : Place σ V}

/-- If others always answer, every program ends. -/
theorem exists_ends (h : ∀ v c, ∃ reply v', others v c reply v') (p : Program σ Reply α)
    (w : Place σ V) : ∃ a w', Ends others p w a w' := by
  induction p generalizing w with
  | done a => exact ⟨a, w, rfl, rfl⟩
  | act x next ih => exact ih x w
  | ask r next ih =>
    cases r with
    | update change => exact ih w.content { w with content := change w.content }
    | call c =>
      obtain ⟨reply, v, hreply⟩ := h w.outside c
      obtain ⟨a, w', hends⟩ := ih reply { w with outside := v }
      exact ⟨a, w', reply, v, hreply, hends⟩

theorem ends_bind {x : Program σ Reply α} {f : α → Program σ Reply β} {b : β} :
    Ends others (x >>= f) w b w' ↔
      ∃ a w₁, Ends others x w a w₁ ∧ Ends others (f a) w₁ b w' := by
  induction x generalizing w with
  | done a =>
    constructor
    · exact fun h => ⟨a, w, ⟨rfl, rfl⟩, h⟩
    · rintro ⟨_, _, ⟨rfl, rfl⟩, h⟩
      exact h
  | act x next ih => exact ih x
  | ask r next ih =>
    cases r with
    | update change => exact ih w.content
    | call c =>
      constructor
      · rintro ⟨reply, v, hreply, h⟩
        obtain ⟨a, w₁, hnext, hf⟩ := (ih reply).1 h
        exact ⟨a, w₁, ⟨reply, v, hreply, hnext⟩, hf⟩
      · rintro ⟨a, w₁, ⟨reply, v, hreply, hnext⟩, hf⟩
        exact ⟨reply, v, hreply, (ih reply).2 ⟨a, w₁, hnext, hf⟩⟩

theorem ends_map {f : α → β} {x : Program σ Reply α} {b : β} :
    Ends others (f <$> x) w b w' ↔ ∃ a, Ends others x w a w' ∧ b = f a := by
  refine ends_bind.trans ⟨?_, ?_⟩
  · rintro ⟨a, _, hx, rfl, rfl⟩
    exact ⟨a, hx, rfl⟩
  · rintro ⟨a, hx, rfl⟩
    exact ⟨a, w', hx, rfl, rfl⟩

theorem ends_call {c : Call} {reply : Reply c} :
    Ends others (call c) w reply w' ↔
      ∃ v, others w.outside c reply v ∧ w' = { w with outside := v } := by
  constructor
  · rintro ⟨_, v, hreply, rfl, rfl⟩
    exact ⟨v, hreply, rfl⟩
  · rintro ⟨v, hreply, rfl⟩
    exact ⟨reply, v, hreply, rfl, rfl⟩

/-! ### Attempts -/

section Attempts

variable {x : Attempt (Program σ Reply) α} {r : Except StoreError β}

theorem ends_ok {a : α} {r : Except StoreError α} :
    Ends others (pure a : Attempt (Program σ Reply) α).run w r w' ↔ r = .ok a ∧ w' = w := Iff.rfl

theorem ends_throw {e : StoreError} {r : Except StoreError α} :
    Ends others (throw e : Attempt (Program σ Reply) α).run w r w' ↔ r = .error e ∧ w' = w := Iff.rfl

theorem ends_of {q r : Except StoreError α} :
    Ends others (Attempt.of q : Attempt (Program σ Reply) α).run w r w' ↔ r = q ∧ w' = w := Iff.rfl

/-- An attempt that fails ends the whole. -/
theorem ends_andThen {f : α → Attempt (Program σ Reply) β} :
    Ends others (x >>= f).run w r w' ↔
      (∃ a w₁, Ends others x.run w (.ok a) w₁ ∧ Ends others (f a).run w₁ r w') ∨
        ∃ e, Ends others x.run w (.error e) w' ∧ r = .error e := by
  refine (ends_bind (x := x.run) (f := ExceptT.bindCont f)).trans ⟨?_, ?_⟩
  · rintro ⟨e | a, w₁, hx, hf⟩
    · obtain ⟨rfl, rfl⟩ := hf
      exact .inr ⟨e, hx, rfl⟩
    · exact .inl ⟨a, w₁, hx, hf⟩
  · rintro (⟨a, w₁, hx, hf⟩ | ⟨e, hx, rfl⟩)
    · exact ⟨.ok a, w₁, hx, hf⟩
    · exact ⟨.error e, w', hx, rfl, rfl⟩

theorem ends_outcome {f : Except StoreError α → Attempt (Program σ Reply) β} :
    Ends others (x.outcome >>= f).run w r w' ↔
      ∃ q w₁, Ends others x.run w q w₁ ∧ Ends others (f q).run w₁ r w' := by
  rw [ends_andThen]
  refine ⟨?_, ?_⟩
  · rintro (⟨q, w₁, hx, hf⟩ | ⟨e, hx, -⟩)
    · obtain ⟨q', hx, heq⟩ := (ends_map (x := x.run)).1 hx
      cases heq
      exact ⟨q, w₁, hx, hf⟩
    · obtain ⟨q', -, heq⟩ := (ends_map (x := x.run)).1 hx
      cases heq
  · rintro ⟨q, w₁, hx, hf⟩
    exact .inl ⟨q, w₁, (ends_map (x := x.run)).2 ⟨q, hx, rfl⟩, hf⟩

/-- A program within an attempt. -/
theorem ends_lift {y : Program σ Reply α} {f : α → Attempt (Program σ Reply) β} :
    Ends others ((liftM y : Attempt (Program σ Reply) α) >>= f).run w r w' ↔
      ∃ a w₁, Ends others y w a w₁ ∧ Ends others (f a).run w₁ r w' := by
  rw [ends_andThen]
  refine ⟨?_, ?_⟩
  · rintro (⟨a, w₁, hy, hf⟩ | ⟨e, hy, -⟩)
    · obtain ⟨a', hy, heq⟩ := (ends_map (x := y)).1 hy
      cases heq
      exact ⟨a, w₁, hy, hf⟩
    · obtain ⟨a', -, heq⟩ := (ends_map (x := y)).1 hy
      cases heq
  · rintro ⟨a, w₁, hy, hf⟩
    exact .inl ⟨a, w₁, (ends_map (x := y)).2 ⟨a, hy, rfl⟩, hf⟩

theorem ends_mapError {restate : StoreError → StoreError} {r : Except StoreError α} :
    Ends others (x.mapError restate).run w r w' ↔
      ∃ q, Ends others x.run w q w' ∧ r = q.mapError restate := ends_map

/-- Looking at the cell and changing it in one step. -/
theorem ends_updated {change : σ → σ} {f : σ → Attempt (Program σ Reply) β} :
    Ends others ((liftM (cell.update change : Program σ Reply σ) : Attempt (Program σ Reply) σ) >>= f).run
        w r w' ↔
      Ends others (f w.content).run { w with content := change w.content } r w' := Iff.rfl

theorem ends_modified {change : σ → σ} {f : Unit → Attempt (Program σ Reply) β} :
    Ends others ((liftM (cell.modify change : Program σ Reply Unit) :
        Attempt (Program σ Reply) Unit) >>= f).run w r w' ↔
      Ends others (f ()).run { w with content := change w.content } r w' := Iff.rfl

end Attempts

end Tabular.Sharing
