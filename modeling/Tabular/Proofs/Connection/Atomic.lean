import Tabular.Proofs.Connection.Execution
import Tabular.Proofs.Work.Samples

/-!
# Tabular.Proofs.Connection.Atomic — executions on a connection are all or nothing

`Sound` relates a system to the phase of its execution: which connections are held, what its connection
keeps aside, which steps it has taken and what they left behind.  Main statement: `execution_all_or_nothing`,
whatever others do in between, an execution that answers a value has committed all changes of its unit of
work in one step, one that answers an error has changed no committed row, and either way its connection is
given back with no transaction open.
-/

namespace Tabular.Connection

open Database (Seated Reflects Log Entry Turn Frame)
open Samples (accounts account closing)

variable {α : Type} {cached : Bool} {work : Work Id α} {s : System α} {φ φ' : Phase} {session : Nat}
  {steps : List Step} {step : Step} {db after : Database}

/-! ### One step on the database -/

theorem Admits.perform_eq {call : RelationalCall} {answer : Except StoreError call.Answer}
    (h : Admits db (.asked (.perform call) answer) after) :
    answer = (db.perform call).1 ∧ after = (db.perform call).2 := by
  cases h
  exact ⟨rfl, rfl⟩

theorem Admits.close_eq (h : Admits db (.asked (.close session) ()) after) : after = db.close session := by
  cases h
  rfl

/-- Whether a connection has a transaction open, and keeps aside in it what its steps tell. -/
structure Keeps (db : Database) (session : Nat) (steps : List Step) : Prop where
  isOpen : (db.staged? session).isSome
  reflects : Reflects (db.staged? session) ((told steps).pending session)

theorem reflects_perform (call : RelationalCall)
    (h : Reflects (db.staged? session) ((told steps).pending session)) :
    Reflects ((db.perform call).2.staged? session)
      ((told (.asked (.perform call) (db.perform call).1 :: steps)).pending session) := by
  rw [show (db.perform call).2.staged? session = _ from Database.staged?_act db (.call call) session]
  exact h.turn _

theorem Turn.isSome_staged {turn : Turn} {staged : Option Staged} (h : turn ≠ .ended)
    (hsome : staged.isSome) : (turn.staged staged).isSome := by
  cases turn with
  | opened => rfl
  | ended => exact absurd rfl h
  | changed row cell => simpa [Turn.staged] using hsome
  | nothing => exact hsome

/-- Using a connection does not end its transaction. -/
theorem Uses.turn_ne {call : RelationalCall} {answer : Except StoreError call.Answer}
    (h : Uses session (.asked (.perform call) answer)) :
    (Entry.answered call answer).turn session ≠ .ended := by
  intro hturn
  cases call with
  | read | scan => cases hturn
  | upsert s schema row =>
    cases answer with
    | error e => cases hturn
    | ok =>
      simp only [Entry.turn] at hturn
      split at hturn
      · split at hturn <;> cases hturn
      · cases hturn
  | delete s schema key =>
    cases answer with
    | error e => cases hturn
    | ok =>
      simp only [Entry.turn] at hturn
      split at hturn <;> cases hturn
  | _ => exact h.elim

/-- Using a connection in a transaction leaves all tables alone. -/
theorem Uses.tables_eq {call : RelationalCall} {answer : Except StoreError call.Answer}
    (h : Uses session (.asked (.perform call) answer)) (hopen : (db.staged? session).isSome) :
    (db.perform call).2.tables = db.tables := by
  have hprivate : (Database.Action.call call).Private db session →
      (db.perform call).2.tables = db.tables := Database.tables_act_of_private
  cases call with
  | read | scan => rfl
  | upsert s schema row =>
    cases (h : s = session)
    exact hprivate ⟨rfl, hopen⟩
  | delete s schema key =>
    cases (h : s = session)
    exact hprivate ⟨rfl, hopen⟩
  | _ => exact h.elim

theorem Uses.session?_eq {call : RelationalCall} {answer : Except StoreError call.Answer}
    (h : Uses session (.asked (.perform call) answer)) : call.session? = some session := by
  cases call with
  | read | scan | upsert | delete => exact congrArg some h
  | _ => exact h.elim

/-- What using a connection in a transaction does: nothing that others could tell. -/
theorem Uses.admits (huses : Uses session step) (hadmits : Admits db step after)
    (h : Keeps db session steps) :
    Keeps after session (step :: steps) ∧ Frame db after ∧ after.tables = db.tables := by
  cases hadmits with
  | close | inTransaction => exact huses.elim
  | cache change before => exact ⟨⟨h.isOpen, h.reflects⟩, ⟨rfl, rfl, rfl⟩, rfl⟩
  | perform call =>
    refine ⟨⟨?_, reflects_perform call h.reflects⟩, Frame.of_perform db huses.session?_eq,
      huses.tables_eq h.isOpen⟩
    rw [show (db.perform call).2.staged? session = _ from Database.staged?_act db (.call call) session]
    exact Turn.isSome_staged huses.turn_ne h.isOpen

/-- The steps that close a connection leave no transaction open and all tables alone. -/
theorem Tidies.admits (htidies : Tidies session step) (hadmits : Admits db step after)
    (h : db.staged? session = none) :
    after.staged? session = none ∧ Frame db after ∧ after.tables = db.tables := by
  cases hadmits with
  | close | cache => exact htidies.elim
  | inTransaction => exact ⟨h, ⟨rfl, rfl, rfl⟩, rfl⟩
  | perform call =>
    cases call with
    | rollback s =>
      cases (htidies : s = session)
      exact ⟨Database.staged?_setStaged_self _ _ _, ⟨rfl, rfl, rfl⟩, rfl⟩
    | _ => exact htidies.elim

/-! ### Where an execution is -/

/-- The steps by which an execution begins its transaction on a connection, the latest first. -/
def begun (session : Nat) : List Step :=
  [.asked (.perform (.begin session)) (.ok ()), .asked (.perform .connect) (.ok session)]

/-- The steps that end a transaction, make sure that none is open and close the connection. -/
def Closes (session : Nat) : Step → Prop
  | .asked (.perform (.commit s)) _ => s = session
  | .asked (.perform (.rollback s)) _ => s = session
  | .asked (.inTransaction s) _ => s = session
  | .asked (.close s) _ => s = session
  | _ => False

/-- Whether an execution took steps to begin its transaction, then those of its unit of work, and then some
to close its connection. -/
structure Took (session : Nat) (steps closing taken : List Step) : Prop where
  eq : taken = closing ++ (steps ++ begun session)
  uses : ∀ step ∈ steps, Uses session step
  closes : ∀ step ∈ closing, Closes session step

theorem Took.closing {closing taken : List Step} (h : Took session steps closing taken)
    (hstep : Closes session step) : Took session steps (step :: closing) (step :: taken) :=
  ⟨congrArg (step :: ·) h.eq, h.uses, List.forall_mem_cons.2 ⟨hstep, h.closes⟩⟩

theorem Tidies.closes (h : Tidies session step) : Closes session step := by
  unfold Tidies at h
  split at h <;> first | exact h | exact h.elim

/-- Whether what a unit of work has changed on a connection was committed in one step, and no other step
changed a table. -/
def CommittedAtOnce (session : Nat) (history : List Moment) : Prop :=
  ∃ later m earlier, history = later ++ m :: earlier ∧
    m.step = .asked (.perform (.commit session)) (.ok ()) ∧
    m.after.contents = m.before.contents.overlaid ((told (earlier.map Moment.step)).own session) ∧
    ∀ other ∈ later ++ earlier, other.Quiet

/-- What an execution with this fate has left behind. -/
def Fate.Left (session : Nat) (history : List Moment) : Fate → Prop
  | committed => CommittedAtOnce session history
  | _ => ∀ m ∈ history, m.Quiet

theorem Fate.Left.cons {history : List Moment} {fate : Fate} {m : Moment}
    (h : fate.Left session history) (hm : m.Quiet) : fate.Left session (m :: history) := by
  cases fate with
  | committed =>
    obtain ⟨later, commit, earlier, rfl, hstep, hcontents, hquiet⟩ := h
    exact ⟨m :: later, commit, earlier, rfl, hstep, hcontents, List.forall_mem_cons.2 ⟨hm, hquiet⟩⟩
  | _ => exact List.forall_mem_cons.2 ⟨hm, h⟩

/-- Whether a database lets a transaction come to this. -/
def Fate.Possible : Fate → Prop
  | unbegun _ => False
  | refused e => ∃ text, e = .connection text
  | _ => True

/-- Whether a connection was given back in the last moment, with no transaction open. -/
def GivenBack (session : Nat) (history : List Moment) : Prop :=
  ∃ m rest, history = m :: rest ∧ m.step = .asked (.close session) () ∧
    m.before.staged? session = none ∧ m.after.sessions.idle = session :: m.before.sessions.idle

namespace Phase

/-- The connection that an execution holds. -/
def held : Phase → List Nat
  | connected session | working session _ | ended session _ _ => [session]
  | _ => []

/-- What a connection keeps aside in a phase of its execution. -/
def Staged (db : Database) (taken : List Step) : Phase → Prop
  | connected session | ended session _ _ => db.staged? session = none
  | working session _ => Keeps db session taken
  | _ => True

/-- Which steps have been taken. -/
def Taken (taken : List Step) : Phase → Prop
  | idle => taken = []
  | turnedAway e => taken = [.asked (.perform .connect) (.error e)]
  | connected session => taken = [.asked (.perform .connect) (.ok session)]
  | working session steps => Took session steps [] taken
  | ended session steps _ | closed session steps _ => ∃ closing, Took session steps closing taken

/-- What the steps have left behind. -/
def Left (history : List Moment) : Phase → Prop
  | ended session _ fate => fate.Left session history
  | closed session _ fate => fate.Left session history ∧ GivenBack session history
  | _ => ∀ m ∈ history, m.Quiet

/-- Whether a database lets an execution come to this. -/
def Possible : Phase → Prop
  | turnedAway e => ∃ waitMs, e = .poolTimeout "sql connection" waitMs
  | ended _ _ fate | closed _ _ fate => fate.Possible
  | _ => True

end Phase

/-- How a system and the phase of its execution depend on each other. -/
structure Sound (cached : Bool) (work : Work Id α) (s : System α) (φ : Phase) : Prop where
  obeys : Obeys cached work (Phase.Final cached work) φ s.program
  seated : Seated s.db (φ.held ++ s.theirs)
  staged : φ.Staged s.db s.steps
  taken : φ.Taken s.steps
  left : φ.Left s.history
  possible : φ.Possible

namespace Sound

theorem start (cached : Bool) (work : Work Id α) {theirs : List Nat} (h : Seated db theirs) :
    Sound cached work (.start cached work db theirs) .idle where
  obeys := obeys_executing cached work
  seated := h
  staged := trivial
  taken := rfl
  left := List.forall_mem_nil _
  possible := trivial

/-- What others do leaves an execution where it is. -/
theorem others {theirs : List Nat} (h : Sound cached work s φ)
    (hothers : Others s.db s.theirs db theirs) : Sound cached work { s with db, theirs } φ := by
  obtain ⟨hseated, hstaged⟩ := hothers.seated h.seated
  refine ⟨h.obeys, hseated, ?_, h.taken, h.left, h.possible⟩
  have hkept := h.staged
  cases φ with
  | connected session | ended session _ _ =>
    exact (hstaged session (List.mem_singleton_self _)).trans hkept
  | working session steps =>
    have hsame := hstaged session (List.mem_singleton_self _)
    exact ⟨hsame ▸ hkept.isOpen, hsame ▸ hkept.reflects⟩
  | _ => trivial

/-- Every step of an execution is a move, and leads to where the move says. -/
theorem own {p : Program (Except StoreError α)} (h : Sound cached work s φ)
    (hmove : Move cached work φ step φ') (hadmits : Admits s.db step db)
    (hobeys : Obeys cached work (Phase.Final cached work) φ' p) :
    Sound cached work ⟨db, s.theirs, p, ⟨step, s.db, db⟩ :: s.history⟩ φ' := by
  obtain ⟨-, hseated, hstaged, htaken, hleft, hpossible⟩ := h
  have hcons : (⟨step, s.db, db⟩ :: s.history : List Moment).map Moment.step = step :: s.steps := rfl
  have hquiet : db.tables = s.db.tables → (∀ m ∈ s.history, m.Quiet) →
      ∀ m ∈ (⟨step, s.db, db⟩ :: s.history : List Moment), m.Quiet :=
    fun hm hrest => List.forall_mem_cons.2 ⟨hm, hrest⟩
  cases hmove with
  | connect session =>
    obtain ⟨hnew, rfl⟩ := hadmits.perform_eq
    refine ⟨hobeys, (hseated.connect hnew.symm).1, ?_, ?_, hquiet ?_ hleft, trivial⟩
    · show s.db.connect.2.staged? session = none
      rw [Database.staged?_connect_ok _ _ _ hnew.symm, if_pos rfl]
    · exact congrArg _ htaken
    · exact s.db.tables_connect
  | turnedAway e =>
    obtain ⟨he, rfl⟩ := hadmits.perform_eq
    obtain ⟨hseated', rfl⟩ := hseated.connect_error he.symm
    exact ⟨hobeys, hseated', trivial, congrArg _ htaken, hquiet s.db.tables_connect hleft, _, rfl⟩
  | begin session =>
    obtain ⟨hok, rfl⟩ := hadmits.perform_eq
    have hbefore : Reflects (s.db.staged? session) ((told s.steps).pending session) := by
      rw [show s.db.staged? session = none from hstaged, show s.steps = _ from htaken]
      simp [told, entry?, Log.pending, Entry.turn, Turn.pending, Reflects]
    have hreflects := reflects_perform (.begin session) hbefore
    rw [← hok] at hreflects
    have hperform := Database.perform_begin hstaged
    refine ⟨hobeys, hseated.frame (Frame.of_perform _ rfl), ⟨?_, hreflects⟩, ?_, hquiet ?_ hleft, trivial⟩
    · rw [hperform]
      exact congrArg Option.isSome (Database.staged?_setStaged_self _ _ _)
    · exact ⟨congrArg _ htaken, List.forall_mem_nil _, List.forall_mem_nil _⟩
    · rw [hperform]
      rfl
  | beginFails session e =>
    obtain ⟨he, -⟩ := hadmits.perform_eq
    rw [Database.perform_begin hstaged] at he
    cases he
  | use huses =>
    obtain ⟨hkeeps, hframe, htables⟩ := huses.admits hadmits hstaged
    refine ⟨hobeys, hseated.frame hframe, hkeeps, ?_, hquiet htables hleft, trivial⟩
    exact ⟨congrArg _ htaken.eq, List.forall_mem_cons.2 ⟨huses, htaken.uses⟩, List.forall_mem_nil _⟩
  | @commit session steps a hworks =>
    obtain ⟨hok, rfl⟩ := hadmits.perform_eq
    refine ⟨hobeys, hseated.frame (Frame.of_perform _ rfl), ?_, ⟨_, htaken.closing rfl⟩, ?_, trivial⟩
    · exact (Database.staged?_commit session).trans (if_pos rfl)
    · exact ⟨[], _, _, rfl, rfl, Database.contents_commit hstaged.reflects hok.symm, hleft⟩
  | @commitFails session steps a hworks e =>
    obtain ⟨he, rfl⟩ := hadmits.perform_eq
    refine ⟨hobeys, hseated.frame (Frame.of_perform _ rfl), ?_, ⟨_, htaken.closing rfl⟩, ?_,
      Database.commit_error he.symm⟩
    · exact (Database.staged?_commit session).trans (if_pos rfl)
    · exact hquiet (Database.tables_commit_of_error he.symm) hleft
  | @rollback session steps failure hworks answer =>
    obtain ⟨-, rfl⟩ := hadmits.perform_eq
    refine ⟨hobeys, hseated.frame (Frame.of_perform _ rfl), ?_, ⟨_, htaken.closing rfl⟩, hquiet rfl hleft,
      trivial⟩
    exact Database.staged?_setStaged_self _ _ _
  | tidy htidies =>
    obtain ⟨hnone, hframe, htables⟩ := htidies.admits hadmits hstaged
    obtain ⟨closing, htook⟩ := htaken
    exact ⟨hobeys, hseated.frame hframe, hnone, ⟨_, htook.closing htidies.closes⟩, hleft.cons htables,
      hpossible⟩
  | close session steps fate =>
    obtain rfl := hadmits.close_eq
    obtain ⟨closing, htook⟩ := htaken
    refine ⟨hobeys, hseated.close, trivial, ⟨_, htook.closing rfl⟩, ?_, hpossible⟩
    exact ⟨hleft.cons rfl, _, _, rfl, rfl, hstaged, rfl⟩

/-- A run leads from one phase to another. -/
theorem reaches {s' : System α} (h : Sound cached work s φ) (hs : System.Reaches s s') :
    ∃ ψ, Sound cached work s' ψ := by
  induction hs with
  | refl => exact ⟨φ, h⟩
  | tail _ hnext ih =>
    obtain ⟨ψ, hψ⟩ := ih
    cases hnext with
    | own htakes hadmits =>
      obtain ⟨ψ', hmove, hobeys⟩ := hψ.obeys.takes htakes trivial
      exact ⟨ψ', hψ.own hmove hadmits hobeys⟩
    | others hothers => exact ⟨ψ, hψ.others hothers⟩

/-- Where an execution is that has ended. -/
theorem final {r : Except StoreError α} (h : Sound cached work s φ) (hdone : s.program = .done r) :
    (∃ e, φ = .turnedAway e ∧ r = .error (Native.intoAborted e)) ∨
      ∃ session steps fate, φ = .closed session steps fate ∧ fate.Answers cached work session steps r := by
  have hfinal : φ.Final cached work r := by
    have hobeys := h.obeys
    rw [hdone] at hobeys
    exact hobeys
  cases φ with
  | turnedAway e => exact .inl ⟨e, rfl, hfinal⟩
  | closed session steps fate => exact .inr ⟨session, steps, fate, rfl, hfinal⟩
  | _ => exact hfinal.elim

end Sound

/-! ### Executions -/

/-- Whether an execution performed its unit of work on a connection, with this result. -/
def Performed (cached : Bool) (work : Work Id α) (session : Nat) (taken : List Step)
    (r : Except Failure α) : Prop :=
  ∃ steps closing, Took session steps closing taken ∧ Works cached work session steps r

theorem Took.not_mem_connect {closing taken : List Step} (h : Took session steps closing taken)
    (answer : Except StoreError Nat) : .asked (.perform .connect) answer ∉ taken.dropLast := by
  have hdrop : taken.dropLast = closing ++ (steps ++ [.asked (.perform (.begin session)) (.ok ())]) := by
    rw [h.eq, begun, List.dropLast_append_of_ne_nil (by simp), List.dropLast_append_of_ne_nil (by simp)]
    rfl
  rw [hdrop]
  intro hmem
  rcases List.mem_append.1 hmem with hclosing | hrest
  · exact h.closes _ hclosing
  rcases List.mem_append.1 hrest with huse | hbegin
  · exact h.uses _ huse
  · cases List.mem_singleton.1 hbegin

theorem Phase.Taken.not_mem_connect {taken : List Step} (h : φ.Taken taken)
    (answer : Except StoreError Nat) : .asked (.perform .connect) answer ∉ taken.dropLast := by
  cases φ with
  | idle | turnedAway | connected =>
    rw [show taken = _ from h]
    exact List.not_mem_nil
  | working session steps => exact Took.not_mem_connect h answer
  | ended | closed =>
    obtain ⟨closing, htook⟩ := h
    exact htook.not_mem_connect answer

/-- **Executions on a connection are all or nothing.**  Take a unit of work that runs over a database, with
its schemas behind a cache or not, in whatever state the database is and whatever others do on their own
connections in between.

* No connection is opened after the first step, also not for schemas that are not cached yet.
* If the execution answers a value, its unit of work ended with that value, and all that it had changed was
  committed in one step; no other step of the execution changed a table.
* If it answers an error, none of its steps changed a table.  The error is that of the unit of work, or the
  unit of work ended well and the transaction was aborted, or there was no connection to be had and nothing
  else was done.
* Where a unit of work was performed, its connection has been given back with no transaction open, and in
  the end the connections in use are those of others. -/
theorem execution_all_or_nothing (cached : Bool) (work : Work Id α) {db : Database} {theirs : List Nat}
    (hseated : Seated db theirs) {s : System α} (hs : System.Reaches (.start cached work db theirs) s) :
    (∀ answer, .asked (.perform .connect) answer ∉ s.steps.dropLast) ∧
    (∀ a, s.program = .done (.ok a) → ∃ session, Performed cached work session s.steps (.ok a) ∧
      CommittedAtOnce session s.history ∧ GivenBack session s.history) ∧
    (∀ e, s.program = .done (.error e) → (∀ m ∈ s.history, m.Quiet) ∧
      ((∃ session, GivenBack session s.history ∧
          ((∃ failure, Performed cached work session s.steps (.error failure) ∧ e = failure.reported) ∨
            ∃ a text, Performed cached work session s.steps (.ok a) ∧ e = .transactionAborted text)) ∨
        ∃ waitMs, e = .poolTimeout "sql connection" waitMs ∧
          s.steps = [.asked (.perform .connect) (.error e)])) ∧
    ∀ r, s.program = .done r → Seated s.db s.theirs := by
  obtain ⟨φ, h⟩ := (Sound.start cached work hseated).reaches hs
  refine ⟨h.taken.not_mem_connect, fun a hdone => ?_, fun e hdone => ?_, fun r hdone => ?_⟩
  · rcases h.final hdone with ⟨e, -, ⟨⟩⟩ | ⟨session, steps, fate, rfl, hanswers⟩
    obtain ⟨closing, htook⟩ := h.taken
    cases fate with
    | committed =>
      obtain ⟨_, ⟨⟩, hworks⟩ := hanswers
      exact ⟨session, ⟨steps, closing, htook, hworks⟩, h.left⟩
    | unbegun e => cases hanswers
    | failed failure => cases hanswers.1
    | refused e => cases hanswers.1
  · rcases h.final hdone with ⟨e, rfl, ⟨⟩⟩ | ⟨session, steps, fate, rfl, hanswers⟩
    · obtain ⟨waitMs, rfl⟩ := h.possible
      exact ⟨h.left, .inr ⟨waitMs, rfl, h.taken⟩⟩
    obtain ⟨closing, htook⟩ := h.taken
    obtain ⟨hquiet, hback⟩ := h.left
    cases fate with
    | committed =>
      obtain ⟨_, ⟨⟩, -⟩ := hanswers
    | unbegun e => exact h.possible.elim
    | failed failure =>
      obtain ⟨⟨⟩, hworks⟩ := hanswers
      exact ⟨hquiet, .inl ⟨session, hback, .inl ⟨failure, ⟨steps, closing, htook, hworks⟩, rfl⟩⟩⟩
    | refused e =>
      obtain ⟨⟨⟩, a, hworks⟩ := hanswers
      obtain ⟨text, rfl⟩ := h.possible
      exact ⟨hquiet, .inl ⟨session, hback, .inr ⟨a, _, ⟨steps, closing, htook, hworks⟩, rfl⟩⟩⟩
  · rcases h.final hdone with ⟨e, rfl, -⟩ | ⟨session, steps, fate, rfl, -⟩
    · exact h.seated
    · exact h.seated

/-! ### An execution among others -/

/-- Somebody else opens an account, the execution closes it, and in between the other one begins to open it
anew.  The catalog is not asked, as its cache knows the table. -/
theorem closing_commits : ∃ s : System Unit,
    System.Reaches (.start true closing (.empty "memory" 2 1000) []) s ∧ s.program = .done (.ok ()) ∧
      s.theirs = [1] := by
  refine System.exists_reaches_of_others (.connect rfl) ?_
  refine System.exists_reaches_of_call (.createTable 1 accounts) 1 rfl List.mem_cons_self ?_
  refine System.exists_reaches_of_call (.upsert 1 accounts account) 1 rfl List.mem_cons_self ?_
  refine System.exists_reaches_of_ask (.perform .connect) (.ok 2) rfl (.perform .connect) ?_
  refine System.exists_reaches_of_ask (.perform (.begin 2)) (.ok ()) rfl (.perform (.begin 2)) ?_
  refine System.exists_reaches_of_call (.begin 1) 1 rfl List.mem_cons_self ?_
  refine System.exists_reaches_of_ask (.cache (·.withSlot "accounts"))
    ((∅ : LookupCache).learn "accounts" (.found accounts)) rfl (.cache _ _) ?_
  refine System.exists_reaches_of_ask (.perform (.delete 2 accounts ⟨[.integer 7]⟩)) (.ok ()) rfl
    (.perform (.delete 2 accounts ⟨[.integer 7]⟩)) ?_
  refine System.exists_reaches_of_call (.upsert 1 accounts account) 1 rfl List.mem_cons_self ?_
  refine System.exists_reaches_of_ask (.perform (.commit 2)) (.ok ()) rfl (.perform (.commit 2)) ?_
  refine System.exists_reaches_of_ask (.close 2) () rfl (.close 2) ?_
  exact ⟨_, .refl, rfl, rfl⟩

/-- The account is closed in one step, and the other connection is the only one that is still in use. -/
theorem execution_all_or_nothing_closing : ∃ (s : System Unit) (session : Nat),
    System.Reaches (.start true closing (.empty "memory" 2 1000) []) s ∧
      CommittedAtOnce session s.history ∧ GivenBack session s.history ∧ s.db.sessions.outstanding = 1 := by
  obtain ⟨s, hs, hdone, htheirs⟩ := closing_commits
  obtain ⟨-, hok, -, hseated⟩ := execution_all_or_nothing true closing (Seated.empty "memory" 2 1000) hs
  obtain ⟨session, -, hcommitted, hback⟩ := hok () hdone
  refine ⟨s, session, hs, hcommitted, hback, ?_⟩
  rw [(hseated _ hdone).outstanding, htheirs]
  rfl

end Tabular.Connection
