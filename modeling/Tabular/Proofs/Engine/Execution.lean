import Tabular.Proofs.Engine.Reference
import Tabular.Proofs.Engine.Scene
import Tabular.Proofs.Runner.Performs

/-!
# Tabular.Proofs.Engine.Execution — units of work in a process next to units of work on a shelf

`Matches R x state c y shelf post` says that an attempt of a process and one on plain tables end alike: both
well, with `post`, or both with the same error, with the relation `R` between their states.  Tables mimic
plain ones if each operation does; then every unit of work does (`Mimics.perform`).  What yields an answer and
a scene is a `ProgramLogic`, so that the rules for executions hold of it (`YieldsAround`).
-/

namespace Tabular.Bench

variable {α β β' γ γ' : Type} {σ : Type} {i : Option Nat} {c : Scene}

/-- What holds of two outcomes, if both are good; otherwise they are the same error, and `failed` holds. -/
def Alike (failed : Prop) (ended : β → β' → Prop) : Except StoreError β → Except StoreError β' → Prop
  | .ok b, .ok b' => ended b b'
  | .error e, .error e' => e = e' ∧ failed
  | _, _ => False

/-- Whether an attempt in a process and one on plain tables end alike. -/
def Matches (R : σ → Shelf → Scene → Prop) (i : Option Nat) (x : Attempt (StateT σ SiteM) β) (state : σ)
    (c : Scene) (y : Attempt (StateT Shelf Id) β') (shelf : Shelf)
    (post : β → β' → σ → Shelf → Scene → Prop) : Prop :=
  Yields i (x.run.run state) c fun r c' =>
    Alike (R r.2 (y.run.run shelf).2 c') (fun b b' => post b b' r.2 (y.run.run shelf).2 c') r.1
      (y.run.run shelf).1

namespace Matches

variable {R : σ → Shelf → Scene → Prop} {state : σ} {shelf : Shelf}

/-- The rule for sequencing. -/
theorem bind {x : Attempt (StateT σ SiteM) β} {y : Attempt (StateT Shelf Id) β'}
    {f : β → Attempt (StateT σ SiteM) γ} {g : β' → Attempt (StateT Shelf Id) γ'}
    {post : γ → γ' → σ → Shelf → Scene → Prop}
    (h : Matches R i x state c y shelf fun b b' state' shelf' c' =>
      Matches R i (f b) state' c' (g b') shelf' post) :
    Matches R i (x >>= f) state c (y >>= g) shelf post := by
  have hy : (y >>= g).run.run shelf =
      (ExceptT.bindCont g (y.run.run shelf).1).run (y.run.run shelf).2 := rfl
  unfold Matches at h ⊢
  rw [hy]
  revert h
  generalize y.run.run shelf = ended
  obtain ⟨r', shelf'⟩ := ended
  intro h
  show Yields i (x.run.run state >>= fun ended => (ExceptT.bindCont f ended.1).run ended.2) c _
  refine Yields.bind (h.mono ?_)
  rintro ⟨r, state'⟩ c' hr
  match r, r', hr with
  | .ok b, .ok b', hr => exact hr
  | .error e, .error e', hr => exact Yields.pure hr

theorem mono {x : Attempt (StateT σ SiteM) β} {y : Attempt (StateT Shelf Id) β'}
    {post post' : β → β' → σ → Shelf → Scene → Prop} (h : Matches R i x state c y shelf post)
    (hpost : ∀ b b' state shelf c, post b b' state shelf c → post' b b' state shelf c) :
    Matches R i x state c y shelf post' := by
  refine Yields.mono h fun r c' hr => ?_
  revert hr
  generalize y.run.run shelf = ended
  obtain ⟨r', shelf'⟩ := ended
  obtain ⟨r, state'⟩ := r
  intro hr
  match r, r', hr with
  | .ok b, .ok b', hr => exact hpost b b' state' shelf' c' hr
  | .error e, .error e', hr => exact hr

/-- Looking at the state of the tables. -/
theorem get {f : σ → Attempt (StateT σ SiteM) β} {y : Attempt (StateT Shelf Id) β'}
    {post : β → β' → σ → Shelf → Scene → Prop} (h : Matches R i (f state) state c y shelf post) :
    Matches R i (get >>= f) state c y shelf post := h

/-- Looking at the shelf. -/
theorem shelved {x : Attempt (StateT σ SiteM) β} {g : Shelf → Attempt (StateT Shelf Id) β'}
    {post : β → β' → σ → Shelf → Scene → Prop} (h : Matches R i x state c (g shelf) shelf post) :
    Matches R i x state c (MonadState.get >>= g) shelf post := h

/-- What has ended well goes on. -/
theorem ok {b : β} {f : β → Attempt (StateT σ SiteM) γ} {y : Attempt (StateT Shelf Id) γ'}
    {post : γ → γ' → σ → Shelf → Scene → Prop} (h : Matches R i (f b) state c y shelf post) :
    Matches R i (Attempt.of (.ok b) >>= f) state c y shelf post := h

variable {post : β → β' → σ → Shelf → Scene → Prop}

theorem pure {b : β} {b' : β'} (h : post b b' state shelf c) :
    Matches R i (pure b) state c (pure b') shelf post :=
  Yields.pure (b := (Except.ok b, state)) h

/-- Something that does not touch the state of the tables, with nothing next to it. -/
theorem lifted {x : Attempt SiteM β} {f : β → Attempt (StateT σ SiteM) γ}
    {y : Attempt (StateT Shelf Id) γ'} {post : γ → γ' → σ → Shelf → Scene → Prop}
    (h : Yields i x.run c fun r c' => Matches R i (Attempt.of r >>= f) state c' y shelf post) :
    Matches R i (x.lifted >>= f) state c y shelf post := by
  show Yields i (x.run >>= fun r => (Attempt.of r >>= f).run.run state) c _
  exact Yields.bind h

/-- The same, where nothing follows. -/
theorem ending {x : Attempt SiteM β} {y : Attempt (StateT Shelf Id) β'}
    {post : β → β' → σ → Shelf → Scene → Prop}
    (h : Yields i x.run c fun r c' => Matches R i (Attempt.of r) state c' y shelf post) :
    Matches R i x.lifted state c y shelf post := by
  rw [← bind_pure x.lifted]
  refine lifted (h.mono fun r c' hr => ?_)
  rwa [bind_pure]

theorem reporting {event : Event} {f : Unit → Attempt (StateT σ SiteM) β} {y : Attempt (StateT Shelf Id) β'}
    (h : Matches R i (f ()) state c y shelf post) :
    Matches R i ((report event : Attempt (StateT σ SiteM) Unit) >>= f) state c y shelf post := by
  show Yields i ((report event : SiteM Unit) >>= fun u => (f u).run.run state) c _
  exact Yields.bind (Yields.report h)

/-- The same outcome on both sides. -/
theorem of {r : Except StoreError β} {post : β → β → σ → Shelf → Scene → Prop}
    (hok : ∀ b, r = .ok b → post b b state shelf c) (herror : R state shelf c) :
    Matches R i (Attempt.of r) state c (Attempt.of r) shelf post := by
  cases r with
  | ok b => exact Yields.pure (b := (Except.ok b, state)) (hok b rfl)
  | error e => exact Yields.pure (b := (Except.error e, state)) ⟨rfl, herror⟩

end Matches

/-! ### Units of work -/

/-- Whether tables answer like plain ones that their state is related to. -/
def Mimics (R : σ → Shelf → Scene → Prop) (i : Option Nat) (schemas : Schemas)
    (attempt : (call : TableCall) → Attempt (StateT σ SiteM) call.Answer) : Prop :=
  ∀ (call : TableCall) (state : σ) (shelf : Shelf) (c : Scene), R state shelf c →
    Matches R i (attempt call) state c (Shelf.attempt schemas call) shelf
      fun answer answer' state' shelf' c' => answer = answer' ∧ R state' shelf' c'

namespace Mimics

variable {R : σ → Shelf → Scene → Prop} {schemas : Schemas}
  {attempt : (call : TableCall) → Attempt (StateT σ SiteM) call.Answer} {state : σ} {shelf : Shelf}

theorem answer (h : Mimics R i schemas attempt) (call : TableCall) (hR : R state shelf c) :
    Yields i ((attempt call).run.run state) c fun r c' =>
      r.1 = ((Shelf.tables schemas call).run shelf).1 ∧
        R r.2 ((Shelf.tables schemas call).run shelf).2 c' := by
  refine Yields.mono (h call state shelf c hR) ?_
  rintro ⟨r, state'⟩ c' hr
  show r = ((Shelf.attempt schemas call).run.run shelf).1 ∧ _
  revert hr
  generalize hended : (Shelf.attempt schemas call).run.run shelf = ended
  obtain ⟨r', shelf'⟩ := ended
  have hshelf : ((Shelf.tables schemas call).run shelf).2 = shelf' := congrArg Prod.snd hended
  rw [hshelf]
  intro hr
  match r, r', hr with
  | .ok _, .ok _, ⟨rfl, hR'⟩ => exact ⟨rfl, hR'⟩
  | .error _, .error _, ⟨rfl, hR'⟩ => exact ⟨rfl, hR'⟩

/-- Every unit of work does on tables that mimic plain ones what it does on those. -/
theorem perform (h : Mimics R i schemas attempt) (work : Work Id α) (hR : R state shelf c) :
    Yields i ((Work.perform (fun call => (attempt call).run) work.hoist).run state) c fun r c' =>
      r.1 = ((work.perform (Shelf.tables schemas)).run shelf).1 ∧
        R r.2 ((work.perform (Shelf.tables schemas)).run shelf).2 c' := by
  induction work generalizing state shelf c with
  | done r => exact Yields.pure (b := (r, state)) ⟨rfl, hR⟩
  | act x next ih => exact ih x hR
  | ask call next ih =>
    show Yields i ((attempt call).run.run state >>= fun ended =>
      (Work.perform (fun call => (attempt call).run) (next ended.1).hoist).run ended.2) c _
    refine Yields.bind ((h.answer call hR).mono ?_)
    rintro ⟨r, state'⟩ c' ⟨hr, hR'⟩
    cases hr
    exact ih _ hR'

end Mimics

/-! ### Executions -/

/-- What `Yields` says, in the order in which a program logic says it. -/
abbrev Yielding (i : Option Nat) {β : Type} (post : Scene → β → Prop) (c : Scene) (x : SiteM β) : Prop :=
  Yields i x c fun b c' => post c' b

instance : ProgramLogic (Yielding i) where
  mono h hpost := Yields.mono h fun b c' => hpost c' b
  pure h := Yields.pure h
  bind h := Yields.bind h

instance : ProgramLogic.Unheard (Yielding i) where
  report h := Yields.report h

/-- Whether what a runner does around a unit of work ends with an answer, a progress of the work and a scene
of which `post` holds. -/
abbrev YieldsAround (i : Option Nat) (work : Work SiteM α) (x : ExecutionM SiteM β) (progress : Progress α)
    (c : Scene) (post : β → Progress α → Scene → Prop) : Prop :=
  Execution.Performs (Yielding i) work (fun c' b progress => post b progress c') c x progress

/-- Running an execution with the unit of work. -/
theorem YieldsAround.run {work : Work SiteM α} {x : Execution SiteM} {post : Except StoreError α → Scene → Prop}
    (h : YieldsAround i work x { } c fun r progress c' => post (Execution.conclude r progress.value) c') :
    Yields i (x.run work).run c post :=
  Execution.Performs.run (E := Yielding i) h

end Tabular.Bench
