import Mathlib.Logic.Relation
import Tabular.Catalog.Cached
import Tabular.Proofs.Connection.Seats
import Tabular.Proofs.Interaction.Attempts
import Tabular.Runner.Native

/-!
# Tabular.Proofs.Connection.System — an execution among other connections

`native` is a runner over a relational database whose collaborators only ask: an execution over it is the
tree of all it may ask for.  In a `System` one execution takes its steps on a database while others do on
their connections whatever they like in between (`Others`), and every step of the execution is recorded
with the database before and after it (`Moment`).
-/

namespace Tabular.Connection

/-- What an execution asks. -/
inductive Request where
  | perform (call : RelationalCall)
  | close (session : Nat)
  | inTransaction (session : Nat)
  /-- Changes the cache of the catalog and answers what it held before. -/
  | cache (change : LookupCache → LookupCache)

/-- What is answered. -/
abbrev Request.Answer : Request → Type
  | perform call => Except StoreError call.Answer
  | close _ => Unit
  | inTransaction _ => Bool
  | cache _ => LookupCache

/-- A computation over a database. -/
abbrev Program : Type → Type 1 := Interaction Request.Answer Id

/-- A step of a program. -/
abbrev Step : Type 1 := Interaction.Step Request.Answer

/-- Nobody looks at the journal. -/
instance : Journal Program := ⟨fun _ => .done ()⟩

instance : Interaction.Unread Program := ⟨fun _ => rfl⟩

/-- The database that is asked. -/
def asked : RelationalAccess Program where
  perform call := ExceptT.mk (Interaction.request (Request.perform call))
  close session := Interaction.request (Request.close session)
  inTransaction session := Interaction.request (Request.inTransaction session)
  describe := return "memory"

/-- The catalog in a table of the database, behind a cache or not. -/
def catalog : (cached : Bool) → Catalog Program
  | true => .cached (.tabled asked) ⟨fun change => Interaction.request (Request.cache change)⟩
  | false => .tabled asked

/-- The runner whose collaborators are asked. -/
def native (cached : Bool) : Native Program := ⟨asked, catalog cached⟩

variable {α : Type}

/-- A unit of work on a connection, up to its result and the schemas that it has opened. -/
def working (cached : Bool) (work : Work Id α) (session : Nat) :
    Program (Except Failure α × OpenedSchemas) :=
  (Work.perform ((native cached).tables session) work.hoist).run ∅

/-- An execution of a unit of work. -/
def executing (cached : Bool) (work : Work Id α) : Program (Except StoreError α) :=
  ((native cached).execution.run work.hoist).run

/-! ### The database -/

/-- Whether a database answers a step so, and is as `after` then.  What the cache holds is up to those who
share it. -/
inductive Admits (db : Database) : Step → Database → Prop where
  | perform (call : RelationalCall) :
    Admits db (.asked (.perform call) (db.perform call).1) (db.perform call).2
  | close (session : Nat) : Admits db (.asked (.close session) ()) (db.close session)
  | inTransaction (session : Nat) :
    Admits db (.asked (.inTransaction session) (db.staged? session).isSome) db
  | cache (change : LookupCache → LookupCache) (before : LookupCache) :
    Admits db (.asked (.cache change) before) db

/-- What others do who hold the given connections: they open and close connections, make any calls on
those they hold, and let commits fail or not. -/
inductive Others (db : Database) (theirs : List Nat) : Database → List Nat → Prop where
  | connect {new : Nat} (h : db.connect.1 = .ok new) : Others db theirs db.connect.2 (new :: theirs)
  | turnedAway {e : StoreError} (h : db.connect.1 = .error e) : Others db theirs db.connect.2 theirs
  | call {call : RelationalCall} {session : Nat} (hcall : call.session? = some session)
    (h : session ∈ theirs) : Others db theirs (db.perform call).2 theirs
  | close {session : Nat} (h : session ∈ theirs) :
    Others db theirs (db.close session) (theirs.erase session)
  | failCommits (fail : Bool) : Others db theirs { db with failCommits := fail } theirs

open Database (Seated)

/-- Others leave the connections alone that are not theirs. -/
theorem Others.seated {db after : Database} {mine theirs theirs' : List Nat}
    (h : Others db theirs after theirs') (hseated : Seated db (mine ++ theirs)) :
    Seated after (mine ++ theirs') ∧ ∀ session ∈ mine, after.staged? session = db.staged? session := by
  have hapart : ∀ session ∈ mine, ∀ other ∈ theirs, other ≠ session := by
    rintro session hmine _ htheirs rfl
    exact (List.disjoint_of_nodup_append (List.Nodup.of_append_left hseated.apart)) hmine htheirs
  cases h with
  | connect hnew =>
    obtain ⟨hseated', hnot⟩ := hseated.connect hnew
    refine ⟨hseated'.perm List.perm_middle.symm, fun session hmine => ?_⟩
    refine Database.staged?_connect_of_ne hnew ?_
    rintro rfl
    exact hnot (List.mem_append_left _ hmine)
  | turnedAway he =>
    exact ⟨(hseated.connect_error he).1, fun session _ => Database.staged?_connect_error _ _ he⟩
  | call hcall hmem =>
    refine ⟨hseated.frame (Database.Frame.of_perform _ hcall), fun session hmine => ?_⟩
    exact Database.staged?_perform_of_ne hcall (hapart session hmine _ hmem)
  | @close other hmem =>
    have hperm : (mine ++ theirs).Perm (other :: (mine ++ theirs.erase other)) :=
      (List.Perm.append_left _ (List.perm_cons_erase hmem)).trans List.perm_middle
    refine ⟨(hseated.perm hperm).close, fun session hmine => ?_⟩
    rw [Database.staged?_close, if_neg (hapart session hmine _ hmem)]
  | failCommits fail => exact ⟨⟨hseated.apart, hseated.lt, hseated.outstanding⟩, fun _ _ => rfl⟩

/-! ### Histories -/

/-- A step of the execution, with the database before and after it. -/
structure Moment where
  step : Step
  before : Database
  after : Database

/-- Whether a moment left all committed rows alone. -/
def Moment.Quiet (m : Moment) : Prop := m.after.tables = m.before.tables

/-- What a step tells of the database. -/
def entry? : Step → Option Database.Entry
  | .asked (.perform call) answer => some (.answered call answer)
  | .asked (.close session) _ => some (.closed session)
  | _ => none

/-- What the steps of an execution tell of the database, the latest first. -/
def told (steps : List Step) : Database.Log := steps.filterMap entry?

/-- An execution of a unit of work that shares a database with others. -/
structure System (α : Type) where
  db : Database
  /-- The connections that others hold. -/
  theirs : List Nat
  /-- What the execution is still to do. -/
  program : Program (Except StoreError α)
  /-- The moments of the execution, the latest first. -/
  history : List Moment

namespace System

/-- The system before the execution begins. -/
def start (cached : Bool) (work : Work Id α) (db : Database) (theirs : List Nat) : System α :=
  ⟨db, theirs, executing cached work, []⟩

/-- The steps that the execution has taken, the latest first. -/
def steps (s : System α) : List Step := s.history.map Moment.step

/-- What may happen next. -/
inductive Next (s : System α) : System α → Prop where
  | own {step : Step} {p : Program (Except StoreError α)} {db : Database} :
    s.program.Takes step p → Admits s.db step db →
      Next s ⟨db, s.theirs, p, ⟨step, s.db, db⟩ :: s.history⟩
  | others {db : Database} {theirs : List Nat} :
    Others s.db s.theirs db theirs → Next s { s with db, theirs }

/-- Whether a system may come to be as another in the course of time. -/
abbrev Reaches : System α → System α → Prop := Relation.ReflTransGen Next

section Reaches

variable {s : System α} {P : System α → Prop}

/-- A run may begin with what the execution is about to ask. -/
theorem exists_reaches_of_ask (request : Request) (answer : request.Answer)
    {next : request.Answer → Program (Except StoreError α)} {db : Database}
    (hp : s.program = .ask request next) (hadmits : Admits s.db (.asked request answer) db)
    (h : ∃ t, Reaches ⟨db, s.theirs, next answer, ⟨.asked request answer, s.db, db⟩ :: s.history⟩ t ∧ P t) :
    ∃ t, Reaches s t ∧ P t := by
  obtain ⟨t, hst, ht⟩ := h
  refine ⟨t, .head (.own ?_ hadmits) hst, ht⟩
  rw [hp]
  exact .asked request next answer

/-- A run may begin with what others do. -/
theorem exists_reaches_of_others {db : Database} {theirs : List Nat} (hothers : Others s.db s.theirs db theirs)
    (h : ∃ t, Reaches { s with db, theirs } t ∧ P t) : ∃ t, Reaches s t ∧ P t := by
  obtain ⟨t, hst, ht⟩ := h
  exact ⟨t, .head (.others hothers) hst, ht⟩

theorem exists_reaches_of_call (call : RelationalCall) (session : Nat)
    (hcall : call.session? = some session) (hmem : session ∈ s.theirs)
    (h : ∃ t, Reaches { s with db := (s.db.perform call).2 } t ∧ P t) : ∃ t, Reaches s t ∧ P t :=
  exists_reaches_of_others (.call hcall hmem) h

end Reaches

end System

end Tabular.Connection
