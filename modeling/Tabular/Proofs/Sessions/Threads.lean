import Mathlib.Logic.Relation
import Tabular.Proofs.Interaction.Underway
import Tabular.Sessions.PerThread

/-!
# Tabular.Proofs.Sessions.Threads — threads that borrow their own sessions

In a `Process` any number of threads acquire sessions and release them, and threads end.  Every access to
what the threads share is one step, the opening of a session another, and the steps of different threads
come in any order (`Process.Next`).  Main statement: `Next.turn`, which says once what a step can be.
-/

namespace Tabular.ThreadSessions

open Sharing

/-! ### Acquiring a session -/

/-- A computation of a thread, which shares the sessions and calls the coordinator. -/
abbrev ThreadProgram : Type → Type 1 :=
  Program ThreadSessions fun c : CoordinatorCall => Except StoreError c.Answer

/-- A step of a thread. -/
abbrev ThreadStep : Type 1 := Step ThreadSessions fun c : CoordinatorCall => Except StoreError c.Answer

/-- The session of a thread. -/
def source (thread : Nat) : SessionSource ThreadProgram :=
  SessionSource.perThread (fun c => ExceptT.mk (call c)) cell (pure thread)

/-- An acquisition by a thread. -/
def acquiring (thread : Nat) : ThreadProgram (Except StoreError Nat) := (source thread).acquire.run

/-- What is left of an acquisition once a session is open. -/
def counting (session : Nat) : ThreadProgram (Except StoreError Nat) :=
  .ask (.update (·.countOpened)) fun _ => .done (.ok session)

/-- What is left of an acquisition once no session could be opened. -/
def closing (thread : Nat) (e : StoreError) : ThreadProgram (Except StoreError Nat) :=
  .ask (.update (·.close thread)) fun _ => .done (.error e)

/-- What is left of an acquisition by a thread that has no session. -/
def opening (thread : Nat) : ThreadProgram (Except StoreError Nat) :=
  .ask (.call .connect) fun
    | .ok session => counting session
    | .error e => closing thread e

theorem acquiring_eq (thread : Nat) :
    acquiring thread = .ask (.update (·.lend thread)) fun before =>
      match before.slots.get? thread with
      | some (some session) => .done (.ok session)
      | some none => .done (.error (SessionSource.alreadyLent thread))
      | none => opening thread := by
  refine congrArg (Interaction.ask _) (funext fun before => ?_)
  dsimp only [Interaction.bind, Function.comp_apply, ExceptT.bindCont]
  cases before.slots.get? thread with
  | none =>
    refine congrArg (Interaction.ask _) (funext fun answer => ?_)
    cases answer with
    | ok session => rfl
    | error e => rfl
  | some slot =>
    cases slot with
    | none => rfl
    | some session => rfl

/-- What was answered to the calls for a session. -/
def connects : List ThreadStep → List (Except StoreError Nat)
  | .asked (.call .connect) result :: earlier => result :: connects earlier
  | _ :: earlier => connects earlier
  | [] => []

/-! ### Threads -/

/-- What a thread has done. -/
inductive Entry where
  /-- An acquisition ended, after some steps. -/
  | acquired (steps : List ThreadStep) (result : Except StoreError Nat)
  | released (session : Nat) (reusable : Bool)
  | exited

/-- What a thread has done, the latest first. -/
abbrev Log := List Entry

namespace Log

/-- The sessions that a thread has acquired and has yet to release. -/
def lent : Log → List Nat
  | .acquired _ (.ok session) :: earlier => session :: lent earlier
  | .released session _ :: earlier => (lent earlier).erase session
  | _ :: earlier => lent earlier
  | [] => []

/-- Whether a thread has not ended. -/
def running : Log → Bool
  | .exited :: _ => false
  | _ :: earlier => running earlier
  | [] => true

/-- The session that a thread has released as one that can be used again, and has not acquired since. -/
def kept : Log → Option Nat
  | .acquired _ (.ok _) :: _ => none
  | .acquired _ (.error _) :: earlier => kept earlier
  | .released session reusable :: earlier => if reusable && running earlier then some session else none
  | .exited :: _ => none
  | [] => none

end Log

/-- The threads of a process. -/
structure Process where
  sessions : ThreadSessions
  /-- The acquisition that each thread is in the middle of. -/
  busy : Underway Nat ThreadSessions (fun c : CoordinatorCall => Except StoreError c.Answer)
    (Except StoreError Nat)
  /-- All sessions that were ever opened. -/
  opened : List Nat
  log : Nat → Log

namespace Process

/-- No thread has done anything yet. -/
def start : Process := ⟨{ }, .nobody, [], fun _ => []⟩

/-- Whether a thread runs and has a session, be it lent or not. -/
def Owns (s : Process) (thread : Nat) : Prop :=
  (s.log thread).running ∧ ((s.log thread).lent ≠ [] ∨ (s.log thread).kept ≠ none)

/-- Whether a session was opened for a thread, which has yet to count it. -/
abbrev Counting (s : Process) (thread session : Nat) : Prop :=
  s.busy.At (fun steps _ => steps.head? = some (.asked (.call .connect) (.ok session))) thread

/-- The process once a thread has done something. -/
def note (s : Process) (thread : Nat) (entry : Entry) : Process :=
  { s with log := Function.update s.log thread (entry :: s.log thread) }

/-- The process with a thread in the middle of an acquisition. -/
def setBusy (s : Process) (thread : Nat) (steps : List ThreadStep)
    (p : ThreadProgram (Except StoreError Nat)) : Process :=
  { s with busy := s.busy.put thread steps p }

/-- The process once the acquisition of a thread has ended. -/
def finish (s : Process) (thread : Nat) (steps : List ThreadStep) (result : Except StoreError Nat) :
    Process :=
  { s.note thread (.acquired steps result) with busy := s.busy.finish thread }

/-- What comes of a step of a thread, which goes on with the rest of the acquisition. -/
def goOn (s : Process) (thread : Nat) (steps : List ThreadStep) :
    ThreadProgram (Except StoreError Nat) → Process
  | .done result => s.finish thread steps result
  | p => s.setBusy thread steps p

/-- What may happen next.  Every session that is opened is a new one.  A thread releases only what it has
acquired, while it runs or when it ends, be its own session already gone or not. -/
inductive Next (s : Process) : Process → Prop where
  | begin (i : Nat) (hfree : s.busy i = none) (hruns : (s.log i).running) :
    Next s (s.setBusy i [] (acquiring i))
  | access (i : Nat) {steps : List ThreadStep} {p q : ThreadProgram (Except StoreError Nat)}
    {change : ThreadSessions → ThreadSessions} (hbusy : s.busy i = some (steps, p))
    (htakes : p.Takes (.asked (.update change) s.sessions) q) :
    Next s
      (goOn { s with sessions := change s.sessions } i (.asked (.update change) s.sessions :: steps) q)
  | connect (i : Nat) {steps : List ThreadStep} {p q : ThreadProgram (Except StoreError Nat)}
    {result : Except StoreError Nat} (hbusy : s.busy i = some (steps, p))
    (htakes : p.Takes (.asked (.call .connect) result) q)
    (hnew : ∀ session, result = .ok session → session ∉ s.opened) :
    Next s
      (goOn { s with opened := result.toOption.toList ++ s.opened } i
        (.asked (.call .connect) result :: steps) q)
  | release (i session : Nat) (reusable : Bool) {change : ThreadSessions → ThreadSessions}
    (hfree : s.busy i = none) (hlent : session ∈ (s.log i).lent)
    (htakes : ((source i).release session reusable).Takes (.asked (.update change) s.sessions) (.done ())) :
    Next s (note { s with sessions := change s.sessions } i (.released session reusable))
  | exit (i : Nat) (hfree : s.busy i = none) (hruns : (s.log i).running) :
    Next s (note { s with sessions := s.sessions.close i } i .exited)

/-- Whether a process may come to be as another in the course of time. -/
abbrev Reaches : Process → Process → Prop := Relation.ReflTransGen Next

/-! ### What a step can be -/

/-- Where the acquisition of a thread can be, with the steps it has taken. -/
inductive Stage (i : Nat) : List ThreadStep → ThreadProgram (Except StoreError Nat) → Prop where
  | start : Stage i [] (acquiring i)
  | opening (before : ThreadSessions) : Stage i [.asked (.update (·.lend i)) before] (opening i)
  | counting (session : Nat) (before : ThreadSessions) :
    Stage i [.asked (.call .connect) (.ok session), .asked (.update (·.lend i)) before] (counting session)
  | closing (e : StoreError) (before : ThreadSessions) :
    Stage i [.asked (.call .connect) (.error e), .asked (.update (·.lend i)) before] (closing i e)

/-- The steps that there are. -/
inductive Turn (s : Process) : Process → Prop where
  | begin (i : Nat) (hfree : s.busy i = none) (hruns : (s.log i).running) :
    Turn s (s.setBusy i [] (acquiring i))
  | reuse (i : Nat) (hbusy : s.busy i = some ([], acquiring i)) {session : Nat}
    (hslot : s.sessions.slots[i]? = some (some session)) :
    Turn s
      (finish { s with sessions := s.sessions.lend i } i [.asked (.update (·.lend i)) s.sessions]
        (.ok session))
  | refuse (i : Nat) (hbusy : s.busy i = some ([], acquiring i))
    (hslot : s.sessions.slots[i]? = some none) :
    Turn s
      (finish { s with sessions := s.sessions.lend i } i [.asked (.update (·.lend i)) s.sessions]
        (.error (SessionSource.alreadyLent i)))
  | reserve (i : Nat) (hbusy : s.busy i = some ([], acquiring i)) (hslot : s.sessions.slots[i]? = none) :
    Turn s
      (setBusy { s with sessions := s.sessions.lend i } i [.asked (.update (·.lend i)) s.sessions]
        (opening i))
  | connect (i : Nat) {before : ThreadSessions}
    (hbusy : s.busy i = some ([.asked (.update (·.lend i)) before], opening i)) (session : Nat)
    (hnew : session ∉ s.opened) :
    Turn s
      (setBusy { s with opened := session :: s.opened } i
        [.asked (.call .connect) (.ok session), .asked (.update (·.lend i)) before] (counting session))
  | fail (i : Nat) {before : ThreadSessions}
    (hbusy : s.busy i = some ([.asked (.update (·.lend i)) before], opening i)) (e : StoreError) :
    Turn s
      (s.setBusy i [.asked (.call .connect) (.error e), .asked (.update (·.lend i)) before] (closing i e))
  | count (i session : Nat) {before : ThreadSessions}
    (hbusy : s.busy i = some ([.asked (.call .connect) (.ok session), .asked (.update (·.lend i)) before],
      counting session)) :
    Turn s
      (finish { s with sessions := s.sessions.countOpened } i
        [.asked (.update (·.countOpened)) s.sessions, .asked (.call .connect) (.ok session),
          .asked (.update (·.lend i)) before] (.ok session))
  | close (i : Nat) (e : StoreError) {before : ThreadSessions}
    (hbusy : s.busy i = some ([.asked (.call .connect) (.error e), .asked (.update (·.lend i)) before],
      closing i e)) :
    Turn s
      (finish { s with sessions := s.sessions.close i } i
        [.asked (.update (·.close i)) s.sessions, .asked (.call .connect) (.error e),
          .asked (.update (·.lend i)) before] (.error e))
  | giveBack (i session : Nat) (hfree : s.busy i = none) (hlent : session ∈ (s.log i).lent) :
    Turn s (note { s with sessions := s.sessions.giveBack i session } i (.released session true))
  | discard (i session : Nat) (hfree : s.busy i = none) (hlent : session ∈ (s.log i).lent) :
    Turn s (note { s with sessions := s.sessions.close i } i (.released session false))
  | exit (i : Nat) (hfree : s.busy i = none) (hruns : (s.log i).running) :
    Turn s (note { s with sessions := s.sessions.close i } i .exited)

variable {s t : Process}

/-- What an access to the sessions can be. -/
theorem turn_of_access {i : Nat} {steps : List ThreadStep} {p q : ThreadProgram (Except StoreError Nat)}
    {change : ThreadSessions → ThreadSessions} (hstage : Stage i steps p)
    (hbusy : s.busy i = some (steps, p)) (htakes : p.Takes (.asked (.update change) s.sessions) q) :
    Turn s
      (goOn { s with sessions := change s.sessions } i
        (.asked (.update change) s.sessions :: steps) q) := by
  cases hstage with
  | start =>
    have htakes' := htakes
    rw [acquiring_eq] at htakes'
    cases htakes'
    dsimp only
    rcases hslot : s.sessions.slots[i]? with _ | _ | session
    · rw [Std.ExtTreeMap.get?_eq_getElem?, hslot]
      exact .reserve i hbusy hslot
    · rw [Std.ExtTreeMap.get?_eq_getElem?, hslot]
      exact .refuse i hbusy hslot
    · rw [Std.ExtTreeMap.get?_eq_getElem?, hslot]
      exact .reuse i hbusy hslot
  | opening before => cases htakes
  | counting session before =>
    cases htakes
    exact .count i session hbusy
  | closing e before =>
    cases htakes
    exact .close i e hbusy

/-- What the opening of a session can be. -/
theorem turn_of_connect {i : Nat} {steps : List ThreadStep} {p q : ThreadProgram (Except StoreError Nat)}
    {result : Except StoreError Nat} (hstage : Stage i steps p) (hbusy : s.busy i = some (steps, p))
    (htakes : p.Takes (.asked (.call .connect) result) q)
    (hnew : ∀ session, result = .ok session → session ∉ s.opened) :
    Turn s
      (goOn { s with opened := result.toOption.toList ++ s.opened } i
        (.asked (.call .connect) result :: steps) q) := by
  cases hstage with
  | start =>
    rw [acquiring_eq] at htakes
    cases htakes
  | opening before =>
    cases htakes
    cases result with
    | ok session => exact .connect i hbusy session (hnew session rfl)
    | error e => exact .fail i hbusy e
  | counting session before => cases htakes
  | closing e before => cases htakes

/-- What a step can be, if every acquisition is where it can be. -/
theorem Next.turn (h : Next s t) (hstage : s.busy.All Stage) : Turn s t := by
  cases h with
  | begin i hfree hruns => exact .begin i hfree hruns
  | access i hbusy htakes => exact turn_of_access (hstage i _ _ hbusy) hbusy htakes
  | connect i hbusy htakes hnew => exact turn_of_connect (hstage i _ _ hbusy) hbusy htakes hnew
  | release i session reusable hfree hlent htakes =>
    cases reusable with
    | true =>
      cases htakes
      exact .giveBack i session hfree hlent
    | false =>
      cases htakes
      exact .discard i session hfree hlent
  | exit i hfree hruns => exact .exit i hfree hruns

end Process

end Tabular.ThreadSessions
