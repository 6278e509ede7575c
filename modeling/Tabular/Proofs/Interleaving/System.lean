import Mathlib.Logic.Function.Basic
import Mathlib.Logic.Relation
import Tabular.Proofs.Coordinator.Visibility
import Tabular.Proofs.Interaction.Follows
import Tabular.Proofs.Versioned.Visible
import Tabular.Runner.Coordinated

/-!
# Tabular.Proofs.Interleaving.System — executions that share a coordinator and a store

`shared` is a coordinated runner whose collaborators only ask: an execution over it is the tree of all it
may ask for.  A `World` answers: the coordinator and the store as they are, with failures of the store
that change nothing, the catalog with fixed schemas, and the list of unfinished transactions of each
runner.  In a `System` any number of executions take their steps in any order (`System.Next`), and every
step is recorded.
-/

namespace Tabular.Interleaving

/-- What an execution asks of what it shares with others. -/
inductive SharedCall where
  | acquire
  | release (session : Nat) (reusable : Bool)
  | coordinator (call : CoordinatorCall)
  | store (call : VersionedCall)
  /-- The schema of a table, which has its name. -/
  | find (table : String)
  /-- Changes the list of unfinished transactions and answers the list before. -/
  | unfinished (change : List Unfinished → List Unfinished)

/-- What is answered. -/
abbrev SharedCall.Answer : SharedCall → Type
  | acquire => Except StoreError Nat
  | release _ _ => Unit
  | coordinator call => Except StoreError call.Answer
  | store call => Except StoreError call.Answer
  | find table => Except StoreError { schema : TableSchema // schema.name = table }
  | unfinished _ => List Unfinished

/-- Something that is done elsewhere; nothing is known of its outcome. -/
def Elsewhere (_ : Type) : Type := Unit

/-- A computation over what is shared. -/
abbrev Program : Type → Type 1 := Interaction SharedCall.Answer Elsewhere

/-- A step of a program. -/
abbrev Step : Type 1 := Interaction.Step SharedCall.Answer

/-- Nobody looks at the journal. -/
instance : Journal Program := ⟨fun _ => .done ()⟩

/-- The catalog that asks for schemas and knows nothing else. -/
def sharedCatalog : Catalog Program where
  kind := .versioned
  register schema := throw (.tableAlreadyExists schema.name)
  find table := Subtype.val <$> ExceptT.mk (Interaction.request (SharedCall.find table))
  findWith _ load := load
  remove table := throw (.tableNotFound table)
  tableNames := return []

/-- The runner whose collaborators are asked. -/
def shared : Coordinated Program where
  sessions :=
    { strategy := .pool
      acquire := ExceptT.mk (Interaction.request SharedCall.acquire)
      release := fun session reusable => Interaction.request (SharedCall.release session reusable) }
  coordinator call := ExceptT.mk (Interaction.request (SharedCall.coordinator call))
  store call := ExceptT.mk (Interaction.request (SharedCall.store call))
  catalog := sharedCatalog
  unfinished := ⟨fun change => Interaction.request (SharedCall.unfinished change)⟩

/-- A unit of work, which asks for nothing but table operations, as one in a program. -/
def lifted {α : Type} (work : Work Elsewhere α) : Work Program α :=
  Interaction.run (m := Elsewhere)
    (n := Interaction (fun call : TableCall => Except StoreError call.Answer) Program)
    (fun x => .act (.act x .done) .done) Interaction.request work

/-- A unit of work in a transaction, up to its result and the changes that it holds back. -/
def working {α : Type} (work : Work Elsewhere α) (tx : Transaction) :
    Program (Except Failure α × Participants) :=
  ((lifted work).perform (shared.tables tx)).run ∅

/-- An execution of a unit of work. -/
def executing {α : Type} (work : Work Elsewhere α) : Program (Except StoreError α) :=
  (shared.execution.run (lifted work)).run

/-! ### The world -/

/-- What executions share. -/
structure World where
  coordinator : Coordinator
  store : VersionedStore
  schemas : (table : String) → Option { schema : TableSchema // schema.name = table }
  unfinished : Nat → List Unfinished

/-- The steps that change nothing in a world, if it admits them: the store and the catalog may fail at
any time, and nothing is known of sessions and of what is done elsewhere. -/
def World.Leaves (w : World) : Step → Prop
  | .met _ => True
  | .asked .acquire _ => True
  | .asked (.release _ _) _ => True
  | .asked (.store _) (.error _) => True
  | .asked (.find table) (.ok schema) => w.schemas table = some schema
  | .asked (.find _) (.error _) => True
  | _ => False

/-- Whether a world lets an execution of a runner take a step, and is as `w'` then. -/
inductive World.Admits (w : World) (runner : Nat) : Step → World → Prop where
  | leave {step : Step} (h : w.Leaves step) : Admits w runner step w
  | coordinator {call : CoordinatorCall} {answer : Except StoreError call.Answer} (now : Nat)
    (h : (w.coordinator.respond now call).1 = answer) :
    Admits w runner (.asked (.coordinator call) answer)
      { w with coordinator := (w.coordinator.respond now call).2 }
  | store {call : VersionedCall} {a : call.Answer} {s : VersionedStore}
    (h : w.store.perform call = .ok (a, s)) :
    Admits w runner (.asked (.store call) (.ok a)) { w with store := s }
  | unfinished (change : List Unfinished → List Unfinished) :
    Admits w runner (.asked (.unfinished change) (w.unfinished runner))
      { w with unfinished := Function.update w.unfinished runner (change (w.unfinished runner)) }

section Admits

variable {w w' : World} {runner : Nat} {step : Step}

theorem World.Admits.schemas_eq (h : w.Admits runner step w') : w'.schemas = w.schemas := by
  cases h <;> rfl

/-- What is unfinished has been so before, or was put on the list by the step. -/
theorem World.Admits.mem_unfinished (h : w.Admits runner step w') {orphan : Unfinished} {r : Nat}
    (horphan : orphan ∈ w'.unfinished r) :
    orphan ∈ w.unfinished r ∨ ∃ change, step = .asked (.unfinished change) (w.unfinished runner) ∧
      orphan ∈ change (w.unfinished runner) := by
  cases h with
  | leave => exact .inl horphan
  | coordinator => exact .inl horphan
  | store => exact .inl horphan
  | unfinished change =>
    by_cases hr : r = runner
    · subst hr
      exact .inr ⟨change, rfl, by simpa using horphan⟩
    · exact .inl (by simpa [hr] using horphan)

theorem World.Admits.listed_eq {change : List Unfinished → List Unfinished} {listed : List Unfinished}
    (h : w.Admits runner (.asked (.unfinished change) listed) w') : listed = w.unfinished runner := by
  cases h with
  | leave hleaves => exact hleaves.elim
  | unfinished => rfl

/-- The store changes by its own calls only, unless they fail. -/
theorem World.Admits.store_eq (h : w.Admits runner step w')
    (hstep : ∀ (call : VersionedCall) (a : call.Answer), step ≠ .asked (.store call) (.ok a)) :
    w'.store = w.store := by
  cases h with
  | store => exact (hstep _ _ rfl).elim
  | _ => rfl

theorem World.Admits.perform_eq {call : VersionedCall} {a : call.Answer}
    (h : w.Admits runner (.asked (.store call) (.ok a)) w') :
    w.store.perform call = .ok (a, w'.store) := by
  cases h with
  | leave hleaves => exact hleaves.elim
  | store hs => exact hs

end Admits

/-- Whether nothing is under way in a world, and all it holds is older than the next pointer. -/
structure World.Quiet (w : World) : Prop where
  coordinator : w.coordinator.Quiet
  stored_lt : ∀ row p, (w.store.cell? row p).isSome → p < w.coordinator.nextPointer
  settled : ∀ runner, w.unfinished runner = []

/-! ### Histories -/

variable {ι : Type}

/-- The steps that executions took, the latest first. -/
abbrev History (ι : Type) := List (ι × Step)

namespace History

/-- The steps of one execution. -/
def of [DecidableEq ι] (i : ι) (h : History ι) : List Step :=
  h.filterMap fun entry => if entry.1 = i then some entry.2 else none

/-- What a step tells of the coordinator. -/
def reply? : Step → Option Coordinator.Reply
  | .asked (.coordinator call) answer => some ⟨call, answer⟩
  | _ => none

/-- What the coordinator was asked and answered. -/
def log (h : History ι) : Coordinator.Log := h.filterMap fun entry => reply? entry.2

section Cons

variable [DecidableEq ι] {i j : ι} {step : Step} {h : History ι}

theorem of_cons_self : of i ((i, step) :: h) = step :: of i h := by simp [of]

theorem of_cons_of_ne (hne : i ≠ j) : of j ((i, step) :: h) = of j h := by simp [of, hne]

theorem mem_of : step ∈ of i h ↔ (i, step) ∈ h := by
  rw [of, List.mem_filterMap]
  constructor
  · rintro ⟨⟨k, step'⟩, hmem, hstep⟩
    by_cases hk : k = i
    · subst hk
      rw [if_pos rfl] at hstep
      cases hstep
      exact hmem
    · rw [if_neg hk] at hstep
      cases hstep
  · exact fun hmem => ⟨(i, step), hmem, if_pos rfl⟩

omit [DecidableEq ι] in
theorem log_cons_of_reply {r : Coordinator.Reply} (hr : reply? step = some r) :
    log ((i, step) :: h) = r :: log h :=
  List.filterMap_cons_some hr

omit [DecidableEq ι] in
theorem log_cons_of_none (hr : reply? step = none) : log ((i, step) :: h) = log h :=
  List.filterMap_cons_none hr

end Cons

theorem log_append (later h : History ι) : log (later ++ h) = log later ++ log h :=
  List.filterMap_append

theorem eq_of_reply? {step : Step} {r : Coordinator.Reply} (h : reply? step = some r) :
    step = .asked (.coordinator r.call) r.answer := by
  unfold reply? at h
  split at h
  · cases h
    rfl
  · cases h

theorem mem_log {h : History ι} {call : CoordinatorCall} {answer : Except StoreError call.Answer} :
    ⟨call, answer⟩ ∈ log h ↔ ∃ i, (i, .asked (.coordinator call) answer) ∈ h := by
  rw [log, List.mem_filterMap]
  constructor
  · rintro ⟨⟨i, step⟩, hmem, hstep⟩
    cases eq_of_reply? hstep
    exact ⟨i, hmem⟩
  · rintro ⟨i, hmem⟩
    exact ⟨_, hmem, rfl⟩

/-- A step tells nothing of the coordinator, or what it was asked and answered. -/
theorem log_cons (i : ι) (step : Step) (h : History ι) :
    (reply? step = none ∧ log ((i, step) :: h) = log h) ∨
      ∃ call answer, step = .asked (.coordinator call) answer ∧
        log ((i, step) :: h) = ⟨call, answer⟩ :: log h := by
  cases hr : reply? step with
  | none => exact .inl ⟨rfl, log_cons_of_none hr⟩
  | some r => exact .inr ⟨r.call, r.answer, eq_of_reply? hr, log_cons_of_reply hr⟩

/-- Whether a step is a commit that was answered with yes. -/
def commits : Step → Bool
  | .asked (.coordinator (.commit _ _)) (.ok true) => true
  | _ => false

/-- Whether a step is an announcement of changes that was accepted. -/
def announces : Step → Bool
  | .asked (.coordinator (.canCommit _ _ _)) (.ok true) => true
  | _ => false

theorem commits_eq_true_iff {step : Step} : commits step = true ↔
    ∃ session tx, step = .asked (.coordinator (.commit session tx)) (.ok true) := by
  constructor
  · intro h
    unfold commits at h
    split at h
    · exact ⟨_, _, rfl⟩
    · cases h
  · rintro ⟨session, tx, rfl⟩
    rfl

/-- The executions whose commit was answered with yes, the latest first. -/
def committers (h : History ι) : List ι :=
  h.filterMap fun entry => if commits entry.2 then some entry.1 else none

theorem committers_append (later h : History ι) :
    committers (later ++ h) = committers later ++ committers h :=
  List.filterMap_append

/-- What came before an entry is part of a history. -/
theorem subset_of_eq_append_cons {h later part : History ι} {entry : ι × Step}
    (heq : h = later ++ entry :: part) : part ⊆ h := by
  rw [heq]
  exact fun earlier hmem => List.mem_append_right _ (List.mem_cons_of_mem _ hmem)

theorem mem_committers {h : History ι} {i : ι} : i ∈ h.committers ↔
    ∃ session tx, (i, .asked (.coordinator (.commit session tx)) (.ok true)) ∈ h := by
  rw [committers, List.mem_filterMap]
  constructor
  · rintro ⟨⟨j, step⟩, hmem, hstep⟩
    split at hstep
    · rename_i hcommits
      cases hstep
      obtain ⟨session, tx, rfl⟩ := commits_eq_true_iff.1 hcommits
      exact ⟨session, tx, hmem⟩
    · cases hstep
  · rintro ⟨session, tx, hmem⟩
    exact ⟨_, hmem, rfl⟩

/-- What holds of the committer of every commit and each one before it holds along all of them. -/
theorem pairwise_committers {P : ι → ι → Prop} {h : History ι}
    (hP : ∀ later j session tx part,
      h = later ++ (j, .asked (.coordinator (.commit session tx)) (.ok true)) :: part →
        ∀ k ∈ committers part, P j k) : h.committers.Pairwise P := by
  induction h with
  | nil => exact .nil
  | cons entry part ih =>
    have hpart : (committers part).Pairwise P := by
      refine ih fun later j session tx part' heq => ?_
      exact hP (entry :: later) j session tx part' (by rw [heq]; rfl)
    obtain ⟨j, step⟩ := entry
    by_cases hstep : commits step = true
    · obtain ⟨session, tx, rfl⟩ := commits_eq_true_iff.1 hstep
      exact .cons (hP [] j session tx part rfl) hpart
    · have hskip : committers ((j, step) :: part) = committers part :=
        List.filterMap_cons_none (if_neg hstep)
      rwa [hskip]

/-- Whether a step is a begin that was answered with a transaction. -/
def begins : Step → Bool
  | .asked (.coordinator (.begin _)) (.ok _) => true
  | _ => false

/-- The executions that had committed when an execution began its transaction, the latest first. -/
def before [DecidableEq ι] (i : ι) : History ι → List ι
  | [] => []
  | (j, step) :: earlier => if j = i ∧ begins step then committers earlier else before i earlier

section Before

variable [DecidableEq ι] {i j : ι} {step : Step} {h : History ι}

theorem before_cons_begin {session : Nat} {tx : Transaction} :
    before i ((i, .asked (.coordinator (.begin session)) (.ok tx)) :: h) = committers h := by
  simp [before, begins]

theorem before_cons
    (hstep : j = i → ∀ session tx, step ≠ .asked (.coordinator (.begin session)) (.ok tx)) :
    before i ((j, step) :: h) = before i h := by
  rw [before, if_neg]
  rintro ⟨rfl, hbegins⟩
  unfold begins at hbegins
  split at hbegins
  · exact hstep rfl _ _ rfl
  · cases hbegins

theorem before_append {later : History ι}
    (hlater : ∀ session tx, (i, .asked (.coordinator (.begin session)) (.ok tx)) ∉ later) :
    before i (later ++ h) = before i h := by
  induction later with
  | nil => rfl
  | cons entry later ih =>
    obtain ⟨j, step⟩ := entry
    rw [List.cons_append, before_cons, ih]
    · exact fun session tx hmem => hlater session tx (List.mem_cons_of_mem _ hmem)
    · rintro rfl session tx rfl
      exact hlater session tx List.mem_cons_self

theorem before_suffix (i : ι) (h : History ι) : before i h <:+ committers h := by
  induction h with
  | nil => exact List.suffix_rfl
  | cons entry earlier ih =>
    have hcons : committers earlier <:+ committers (entry :: earlier) := by
      rw [← List.singleton_append, committers_append]
      exact List.suffix_append _ _
    rw [before]
    split
    · exact hcons
    · exact ih.trans hcons

end Before

/-- Whether an execution began a transaction. -/
def Began (h : History ι) (i : ι) (tx : Transaction) : Prop :=
  ∃ session, (i, .asked (.coordinator (.begin session)) (.ok tx)) ∈ h

/-- Whether an execution was allowed to commit its changes. -/
def Announced (h : History ι) (i : ι) : Prop := ∃ step, (i, step) ∈ h ∧ announces step = true

/-- Whether a unit of work ended well in a transaction of an execution that took the given steps, with
the given changes held back. -/
def Buffered {α : Type} (work : Work Elsewhere α) (steps : List Step) (tx : Transaction)
    (held : Participants) : Prop :=
  ∃ later inner earlier session a,
    steps = later ++ (inner ++ .asked (.coordinator (.begin session)) (.ok tx) :: earlier) ∧
      (working work tx).Leads inner (.done (.ok a, held))

theorem Buffered.cons {α : Type} {work : Work Elsewhere α} {steps : List Step} {held : Participants}
    (h : Buffered work steps tx held) (step : Step) : Buffered work (step :: steps) tx held := by
  obtain ⟨later, inner, earlier, session, a, rfl, hleads⟩ := h
  exact ⟨step :: later, inner, earlier, session, a, rfl, hleads⟩

end History

/-! ### The system -/

variable [DecidableEq ι] {α : ι → Type}

/-- Executions of units of work with results of the given types, and what they share. -/
structure System (α : ι → Type) where
  world : World
  /-- What each execution is still to do. -/
  program : (i : ι) → Program (Except StoreError (α i))
  history : History ι

namespace System

/-- The system before the first step. -/
def start (works : (i : ι) → Work Elsewhere (α i)) (w : World) : System α :=
  ⟨w, fun i => executing (works i), []⟩

/-- What may happen next: an execution takes a step, or the coordinator can be reached from now on or no
longer.  `runnerOf` says which runner an execution belongs to. -/
inductive Next (runnerOf : ι → Nat) (s : System α) : System α → Prop where
  | step (i : ι) {step : Step} {p : Program (Except StoreError (α i))} {w : World} :
    (s.program i).Takes step p → s.world.Admits (runnerOf i) step w →
      Next runnerOf s ⟨w, Function.update s.program i p, (i, step) :: s.history⟩
  | reach (available : Bool) :
    Next runnerOf s
      { s with world := { s.world with coordinator := { s.world.coordinator with available } } }

/-- Whether a system may come to be as another in the course of time. -/
abbrev Reaches (runnerOf : ι → Nat) : System α → System α → Prop :=
  Relation.ReflTransGen (Next runnerOf)

section Reaches

variable {runnerOf : ι → Nat} {s : System α} {P : System α → Prop}

/-- A run may begin with a call that an execution is about to make. -/
theorem exists_reaches_of_ask (i : ι) (call : SharedCall) (answer : call.Answer)
    {next : call.Answer → Program (Except StoreError (α i))} {w : World}
    (hp : s.program i = .ask call next) (hadmits : s.world.Admits (runnerOf i) (.asked call answer) w)
    (h : ∃ t, Reaches runnerOf
      ⟨w, Function.update s.program i (next answer), (i, .asked call answer) :: s.history⟩ t ∧ P t) :
    ∃ t, Reaches runnerOf s t ∧ P t := by
  obtain ⟨t, hst, ht⟩ := h
  refine ⟨t, .head (.step i ?_ hadmits) hst, ht⟩
  rw [hp]
  exact .asked call next answer

/-- A run may begin with the coordinator becoming available, or not. -/
theorem exists_reaches_of_reach (available : Bool)
    (h : ∃ t, Reaches runnerOf
      { s with world := { s.world with coordinator := { s.world.coordinator with available } } } t ∧
        P t) :
    ∃ t, Reaches runnerOf s t ∧ P t := by
  obtain ⟨t, hst, ht⟩ := h
  exact ⟨t, .head (.reach available) hst, ht⟩

/-- Every execution has come to where it is by its steps. -/
theorem leads_of_reaches {works : (i : ι) → Work Elsewhere (α i)} {w : World}
    (hs : Reaches runnerOf (.start works w) s) (i : ι) :
    (executing (works i)).Leads (s.history.of i) (s.program i) := by
  induction hs with
  | refl => exact .here
  | tail _ hnext ih =>
    cases hnext with
    | step j htakes hadmits =>
      by_cases hji : j = i
      · subst hji
        simpa [History.of_cons_self] using ih.step htakes
      · simpa [History.of_cons_of_ne hji, Function.update_of_ne (Ne.symm hji)] using ih
    | reach available => exact ih

end Reaches

end System

end Tabular.Interleaving
