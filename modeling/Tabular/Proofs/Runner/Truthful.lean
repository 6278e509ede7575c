import Mathlib.Tactic.Choose
import Tabular.Bench.Repeated
import Tabular.Proofs.Runner.Performs

/-!
# Tabular.Proofs.Runner.Truthful — what running a unit of work tells, whatever the runner does

`Execution.watch` runs an execution with a unit of work and notes, in their order, the calls of the work,
where it is performed, how it ended, what each call was answered, and how the execution ended.
`Execution.Truthful` says what the notes and the answer of a run have to do with each other.  Main
statement: `Execution.run_truthful`, watching changes nothing and every run is truthful.
-/

namespace Tabular

variable {m : Type → Type u} {α : Type}

/-! ### Watching a run -/

namespace Execution

/-- What is noted of a run. -/
inductive Note (α : Type) where
  /-- The runner calls the unit of work. -/
  | called
  /-- The unit of work is begun. -/
  | begun
  /-- It has ended so. -/
  | finished (result : Except Failure α)
  /-- The call is answered so. -/
  | answered (answer : Except Failure Unit)
  /-- The runner is done. -/
  | ended (ended : Except StoreError Unit)

/-- Acts in `m`, with the notes so far beside it. -/
abbrev Noted (α : Type) (m : Type → Type u) := StateT (List (Note α)) m

def note [Monad m] (n : Note α) : Noted α m Unit := modify (· ++ [n])

end Execution

open Execution (Note Noted note)

/-- The unit of work, noting how it ends. -/
def Work.finishing [Monad m] : Work m α → Work (Noted α m) α
  | .done result => .act (note (.finished result)) fun _ => .done result
  | .act x next => .act (StateT.lift x) fun b => Work.finishing (next b)
  | .ask call next => .ask call fun answer => Work.finishing (next answer)

/-- The unit of work, noting when it begins and how it ends. -/
def Work.watched [Monad m] (work : Work m α) : Work (Noted α m) α :=
  .act (note .begun) fun _ => work.finishing

/-- The same tables in a run that is watched. -/
def Tables.beside {σ : Type} [Monad m] (tables : Tables m σ) : Tables (Noted α m) σ :=
  fun call state => StateT.lift (tables call state)

def Invocation.beside [Monad m] (i : Invocation m) : Invocation (Noted α m) :=
  { i with tables := i.tables.beside }

namespace Execution

/-- The execution, noting its calls, their answers and how it ends. -/
def watched [Monad m] : Execution m → Execution (Noted α m)
  | .done ended => .act (note (.ended ended)) fun _ => .done ended
  | .act x next => .act (StateT.lift x) fun b => watched (next b)
  | .ask i next => .act (note .called) fun _ => .ask i.beside fun outcome =>
      .act (note (.answered outcome.1)) fun _ => watched (next outcome)

/-- Runs a unit of work; answers what the run answers, and the notes. -/
def watch [Monad m] (execution : Execution m) (work : Work m α) :
    m (Except StoreError α × List (Note α)) :=
  ((execution.watched.run work.watched).run).run []

/-! ### Truthful answers -/

/-- What is noted of a call at which the work is performed. -/
def performing (result : Except Failure α) : List (Note α) :=
  [.called, .begun, .finished result, .answered (result.map fun _ => ())]

/-- What is noted of a call that is refused. -/
def refusing : List (Note α) :=
  [.called, .answered (.error (.error (.transactionAborted "unit of work invoked more than once")))]

/-- The calls of a runner: how the work ended at the first, and how many followed. -/
inductive Calls (α : Type) where
  | never
  | first (result : Except Failure α) (later : Nat)

/-- What is noted of calls if the work is performed at the first and every later one is refused. -/
def Calls.notes : Calls α → List (Note α)
  | never => []
  | first result later => performing result ++ (List.replicate later refusing).flatten

/-- Whether what a run notes and what it answers is as it should be. -/
structure Truthful (answer : Except StoreError α) (notes : List (Note α)) : Prop where
  /-- The work is performed at the first call, if there is one, and never again. -/
  course : ∃ (calls : Calls α) (ended : Except StoreError Unit), notes = calls.notes ++ [.ended ended]
  /-- A value is answered exactly if the runner ended well, and the work with that value. -/
  ok_iff (a : α) : answer = .ok a ↔ .ended (.ok ()) ∈ notes ∧ .finished (.ok a) ∈ notes
  /-- An error of the runner is answered as it is. -/
  failed {e : StoreError} : .ended (.error e) ∈ notes → answer = .error e
  /-- If the runner ended well, but the work not or never, this is answered. -/
  lost : .ended (.ok ()) ∈ notes → (∀ a, .finished (.ok a) ∉ notes) →
    answer = .error (.transactionAborted "unit of work produced no result")

/-! ### The steps of a run -/

def Calls.progress : Calls α → Progress α
  | never => { }
  | first result _ => after result

variable [Monad m]

/-- What comes of an execution that is watched, how far the work has come, and the notes. -/
def conductWatched (work : Work m α) (execution : Execution m) (progress : Progress α)
    (notes : List (Note α)) : m ((Except StoreError Unit × Progress α) × List (Note α)) :=
  (conduct work.watched execution.watched progress).run notes

variable {work : Work m α} {progress : Progress α} {notes : List (Note α)} {i : Invocation m}
  {next : i.Outcome → Execution m}

variable [LawfulMonad m]

@[simp] theorem run_beside {σ : Type} (tables : Tables m σ) (call : TableCall) (state : σ)
    (notes : List (Note α)) :
    ((tables.beside call).run state).run notes = (fun r => (r, notes)) <$> (tables call).run state := by
  rw [← bind_pure_comp]
  rfl

theorem perform_finishing {σ : Type} (work : Work m α) (tables : Tables m σ) (state : σ)
    (notes : List (Note α)) :
    ((work.finishing.perform tables.beside).run state).run notes =
      (fun r => (r, notes ++ [.finished r.1])) <$> (work.perform tables).run state := by
  unfold Work.perform
  induction work generalizing state with
  | done result => simp [Work.finishing, Interaction.run, note]
  | act x next ih => simp [Work.finishing, Interaction.run, ih]
  | ask call next ih => simp [Work.finishing, Interaction.run, ih]

/-- The work does what it does, and two things are noted. -/
theorem perform_watched {σ : Type} (work : Work m α) (tables : Tables m σ) (state : σ)
    (notes : List (Note α)) :
    ((work.watched.perform tables.beside).run state).run notes =
      (fun r => (r, notes ++ [.begun, .finished r.1])) <$> (work.perform tables).run state := by
  have h := perform_finishing work tables state (notes ++ [.begun])
  unfold Work.perform at *
  simp [Work.watched, Interaction.run, note, h]

theorem conductWatched_done (ended : Except StoreError Unit) :
    conductWatched work (.done ended) progress notes =
      pure ((ended, progress), notes ++ [.ended ended]) := by
  simp [conductWatched, watched, conduct_act, conduct_done, note]

theorem conductWatched_act {β : Type} (x : m β) (next : β → Execution m) :
    conductWatched work (.act x next) progress notes =
      x >>= fun b => conductWatched work (next b) progress notes := by
  simp [conductWatched, watched, conduct_act]

theorem conductWatched_first (h : progress.performed = false) :
    conductWatched work (.ask i next) progress notes = (work.perform i.tables).run i.start >>= fun r =>
      conductWatched work (next (r.1.map fun _ => (), r.2)) (after r.1) (notes ++ performing r.1) := by
  have hperform := perform_watched work i.tables i.start (notes ++ [.called])
  simp only [conductWatched, watched, conduct_act, conduct_first h]
  simp [Invocation.beside, hperform, performing, note]

theorem conductWatched_later (h : progress.performed = true) :
    conductWatched work (.ask i next) progress notes =
      conductWatched work (next (.error (.error repeated), i.start)) progress (notes ++ refusing) := by
  simp only [conductWatched, watched, conduct_act, conduct_later h]
  simp [Invocation.beside, refusing, repeated, note]

/-! ### Watching changes nothing, and what is noted -/

theorem fst_conductWatched (execution : Execution m) (progress : Progress α) (notes : List (Note α)) :
    Prod.fst <$> conductWatched work execution progress notes = conduct work execution progress := by
  induction execution generalizing progress notes with
  | done ended => simp [conductWatched_done, conduct_done]
  | act x next ih => simp [conductWatched_act, conduct_act, ih]
  | ask i next ih =>
    cases h : progress.performed with
    | false => simp [conductWatched_first h, conduct_first h, ih]
    | true => simp [conductWatched_later h, conduct_later h, ih]

/-- Once the work was performed, every call is refused. -/
theorem exists_later (work : Work m α) (h : progress.performed = true) (execution : Execution m)
    (notes : List (Note α)) :
    ∃ told : m (Nat × Except StoreError Unit), conductWatched work execution progress notes =
      (fun t => ((t.2, progress), notes ++ (List.replicate t.1 refusing).flatten ++ [.ended t.2])) <$> told := by
  induction execution generalizing notes with
  | done ended => exact ⟨pure (0, ended), by simp [conductWatched_done]⟩
  | act x next ih =>
    choose told htold using fun b => ih b notes
    refine ⟨x >>= told, ?_⟩
    rw [conductWatched_act, map_bind]
    exact bind_congr htold
  | ask i next ih =>
    obtain ⟨told, htold⟩ := ih (.error (.error repeated), i.start) (notes ++ refusing)
    refine ⟨(fun t => (t.1 + 1, t.2)) <$> told, ?_⟩
    rw [conductWatched_later h, htold, Functor.map_map]
    simp [List.replicate_succ]

/-- What an execution notes and how far the work has come is settled by the calls. -/
theorem exists_calls (work : Work m α) (execution : Execution m) :
    ∃ told : m (Calls α × Except StoreError Unit), conductWatched work execution { } [] =
      (fun t => ((t.2, t.1.progress), t.1.notes ++ [.ended t.2])) <$> told := by
  induction execution with
  | done ended => exact ⟨pure (.never, ended), by simp [conductWatched_done, Calls.progress, Calls.notes]⟩
  | act x next ih =>
    choose told htold using ih
    refine ⟨x >>= told, ?_⟩
    rw [conductWatched_act, map_bind]
    exact bind_congr htold
  | ask i next ih =>
    -- From here on the work was performed, which is no longer the case that the induction is about.
    have hperformed : ∀ ended : Except Failure α, (after ended).performed = true := fun _ => rfl
    choose told htold using fun r : Except Failure α × i.State =>
      exists_later work (hperformed r.1) (next (r.1.map fun _ => (), r.2)) ([] ++ performing r.1)
    refine ⟨(work.perform i.tables).run i.start >>= fun r => (fun t => (.first r.1 t.1, t.2)) <$> told r, ?_⟩
    rw [conductWatched_first rfl, map_bind]
    refine bind_congr fun r => ?_
    rw [htold, Functor.map_map]
    rfl

/-! ### From the notes to the answer -/

theorem watch_eq_conclude (execution : Execution m) (work : Work m α) :
    watch execution work =
      (fun p => (conclude p.1.1 p.1.2.value, p.2)) <$> conductWatched work execution { } [] := by
  rw [watch, run_eq_conclude, StateT.run_map]
  rfl

theorem Calls.truthful (calls : Calls α) (ended : Except StoreError Unit) :
    Truthful (conclude ended calls.progress.value) (calls.notes ++ [.ended ended]) := by
  have hended : ∀ {ended'}, .ended ended' ∈ calls.notes ++ [.ended ended] ↔ ended' = ended := by
    cases calls <;> simp [notes, performing, refusing]
  have hfinished : ∀ {a}, .finished (.ok a) ∈ calls.notes ++ [.ended ended] ↔
      calls.progress.value = some a := by
    rcases calls with _ | ⟨_ | _, _⟩ <;>
      simp [notes, performing, refusing, progress, after, Except.toOption, eq_comm]
  refine { course := ⟨calls, ended, rfl⟩, ok_iff := fun a => ?_, failed := fun hmem => ?_,
           lost := fun hmem hnone => ?_ }
  · rw [hended, hfinished]
    cases ended <;> cases calls.progress.value <;> simp [conclude]
  · cases hended.1 hmem
    rfl
  · cases hended.1 hmem
    have hvalue : calls.progress.value = none :=
      Option.eq_none_iff_forall_ne_some.2 fun a ha => hnone a (hfinished.2 ha)
    rw [hvalue]
    rfl

/-- **Whatever a runner does, running a unit of work tells the truth about it.**  However often it calls the
work, whatever it makes of the answers and whatever it ends with: a run that is watched goes as it does otherwise,
and always the work is performed at the first call and at no other, later calls are told so, and the run answers
a value precisely if the runner ended well and the work with that value; else it answers the runner's error,
or that the work had no result. -/
theorem run_truthful (execution : Execution m) (work : Work m α) :
    Prod.fst <$> watch execution work = (execution.run work).run ∧
      ∃ told : m { p : Except StoreError α × List (Note α) // Truthful p.1 p.2 },
        watch execution work = Subtype.val <$> told := by
  rw [watch_eq_conclude, run_eq_conclude]
  constructor
  · rw [← fst_conductWatched execution { } [], Functor.map_map, Functor.map_map]
  · obtain ⟨told, htold⟩ := exists_calls work execution
    refine ⟨(fun t => ⟨(conclude t.2 t.1.progress.value, t.1.notes ++ [.ended t.2]), t.1.truthful t.2⟩) <$> told, ?_⟩
    rw [htold, Functor.map_map, Functor.map_map]

/-- A runner that calls the work three times: it is performed once, and two calls are refused. -/
theorem run_truthful_repeated :
    (watch (Bench.repeated true 3) (Bench.counting none)).run 0 =
        ((.ok 7, performing (.ok 7) ++ refusing ++ refusing ++ [.ended (.ok ())]), 1) ∧
      Truthful (.ok 7) (performing (.ok 7) ++ refusing ++ refusing ++ [.ended (.ok ())]) := by
  refine ⟨rfl, ?_⟩
  obtain ⟨told, htold⟩ := (run_truthful (Bench.repeated true 3) (Bench.counting none)).2
  have hrun : ((watch (Bench.repeated true 3) (Bench.counting none)).run 0).1 = (told.run 0).1.1 :=
    congrArg Prod.fst (congrFun htold 0)
  have htruthful := (told.run 0).1.2
  rw [← hrun] at htruthful
  exact htruthful

/-- A runner that ignores the failure of the work: the run does not answer that it went well. -/
example : ((Bench.repeated true 2).run (Work.fail (.panic none) : Work Id Nat)).run =
    .error withoutResult := rfl

end Execution

end Tabular
