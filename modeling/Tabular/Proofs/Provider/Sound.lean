import Tabular.Proofs.Provider.Definitions
import Tabular.Proofs.Provider.Performed
import Tabular.Proofs.Work.Samples

/-!
# Tabular.Proofs.Provider.Sound — every row that is stored fits its schema and its key

Main statements: `Sound.next`, all is well after every step of a system if it was before; and
`stored_rows_fit`, what that comes to for the rows that are stored, for those that transactions keep aside and
for what units of work are answered.
-/

namespace Tabular.Provider

open Definition (Backends)
open Interaction (Follows)
open Samples (accounts account)

variable {ι α : Type} [DecidableEq ι] {setup : Setup} {s s' : System ι α} {listed : Schemas}

/-! ### Several at work -/

/-- What is known of a task that is under way while tables are neither created nor dropped. -/
structure Underway (setup : Setup) (listed : Schemas) (held : Option Nat) (r : Running α) : Prop where
  shared : ¬ r.task.Alone
  follows : Follows (Move listed) (Told setup.kind listed) (fun held _ => held = none) held r.program
  told : ∀ step ∈ r.steps, Told setup.kind listed step

/-- Whether all is well while tables are neither created nor dropped: each open transaction is on the connection
of somebody who is at work. -/
structure Shared (setup : Setup) (s : System ι α) (listed : Schemas) (held : ι → Option Nat) : Prop where
  tidy : Tidy setup.kind listed s.place
  underway : ∀ i r, s.busy i = some r → Underway setup listed (held i) r
  accounted : ∀ session, Open s.place.outside session → ∃ i r, s.busy i = some r ∧ held i = some session

/-- Whether all is well while somebody is alone at work. -/
structure Solitary (setup : Setup) (s : System ι α) (i : ι) (r : Running α) : Prop where
  busy : s.busy i = some r
  alone : r.task.Alone
  others : ∀ j, j ≠ i → s.busy j = none
  safely : Safely setup.kind (fun w _ => ∃ listed, Settled setup.kind listed w) r.program s.place

/-- Whether all is well. -/
inductive Sound (setup : Setup) (s : System ι α) : Prop where
  | shared (listed : Schemas) (held : ι → Option Nat) (h : Shared setup s listed held)
  | solitary (i : ι) (r : Running α) (h : Solitary setup s i r)

omit [DecidableEq ι] in
/-- Before anything has happened there are no tables. -/
theorem settled_start (kind : StorageKind) (url : String) (limit waitMs : Nat) :
    Settled kind (fun _ => none) (System.start url limit waitMs : System ι α).place := by
  have hstaged : ∀ session, (Database.empty url limit waitMs).staged? session = none := fun session => by
    simp [Database.staged?, Database.empty]
  refine ⟨⟨fun table => ?_, fun table key row _ hrow => ?_, fun _ _ => rfl⟩, .empty, fun session hopen => ?_⟩
  · cases kind with
    | versioned => simp [System.start, Backends.standing, saidOf]
    | relational => simp [System.start, Backends.standing, saidOf, Database.empty]
  · cases kind with
    | versioned => exact absurd hrow (VersionedStore.not_holds_of_tables (by simp [System.start]))
    | relational =>
      rcases hrow with ⟨rows, hrows, -⟩ | ⟨session, hrow⟩
      · simp [System.start, Database.empty] at hrows
      · have hempty : (System.start url limit waitMs : System ι α).place.outside.database.stagedFor session table = ∅ :=
          Database.stagedFor_of_none (hstaged session)
        rw [hempty] at hrow
        simp at hrow
  · have hnone : (Option.isSome (Option.none : Option Staged)) := hstaged session ▸ hopen
    cases hnone

section Update

variable {busy : ι → Option (Running α)} {held : ι → Option Nat} {i : ι} {x : Option (Running α)}
  {held' : Option Nat}

/-- Somebody else than those who go on as before comes to a place where all is well. -/
theorem underway_update (h : ∀ j r, busy j = some r → Underway setup listed (held j) r)
    (hx : ∀ r, x = some r → Underway setup listed held' r) (j : ι) (r : Running α)
    (hj : Function.update busy i x j = some r) : Underway setup listed (Function.update held i held' j) r := by
  by_cases hji : j = i
  · subst hji
    rw [Function.update_self] at hj ⊢
    exact hx r hj
  · rw [Function.update_of_ne hji] at hj ⊢
    exact h j r hj

/-- Those who hold a connection keep it while somebody goes on who does not hold it. -/
theorem accounted_update {session : Nat} (h : ∃ j r, busy j = some r ∧ held j = some session)
    (hnot : ∀ r, busy i = some r → held i ≠ some session) :
    ∃ j r, Function.update busy i x j = some r ∧ Function.update held i held' j = some session := by
  obtain ⟨j, r, hbusy, hheld⟩ := h
  have hj : j ≠ i := by
    rintro rfl
    exact hnot r hbusy hheld
  exact ⟨j, r, (Function.update_of_ne hj ..).trans hbusy, (Function.update_of_ne hj ..).trans hheld⟩

end Update

namespace Shared

variable {held : ι → Option Nat} {i : ι} {r : Running α} {task : Task α}

omit [DecidableEq ι] in
/-- If nobody is at work, no transaction is open. -/
theorem settled (h : Shared setup s listed held) (hidle : ∀ i, s.busy i = none) :
    Settled setup.kind listed s.place where
  orderly := h.tidy.orderly
  coherent := h.tidy.coherent
  quiet session hopen := by
    obtain ⟨i, r, hbusy, -⟩ := h.accounted session hopen
    rw [hidle] at hbusy
    cases hbusy

omit [DecidableEq ι] in
/-- If nobody is at work, all is well when all is well between changes of the tables. -/
theorem of_settled (h : Settled setup.kind listed s.place) (hidle : ∀ i, s.busy i = none) :
    Shared setup s listed fun _ => none where
  tidy := h.tidy
  underway i r hbusy := by
    rw [hidle] at hbusy
    cases hbusy
  accounted session hopen := absurd hopen (h.quiet session)

/-- Somebody joins those who are at work. -/
theorem begin (h : Shared setup s listed held) (hfree : s.busy i = none) (htask : ¬ task.Alone) :
    Shared setup { s with busy := Function.update s.busy i (some ⟨task, [], task.program setup⟩) } listed
      (Function.update held i none) where
  tidy := h.tidy
  underway := by
    refine underway_update h.underway ?_
    rintro _ ⟨⟩
    refine ⟨htask, ?_, fun step hstep => by cases hstep⟩
    exact Follows.mono (keeps_task h.tidy.orderly.reserved htask) fun _ _ hheld => hheld.1
  accounted session hopen := accounted_update (h.accounted session hopen) fun r hbusy => by
    rw [hfree] at hbusy
    cases hbusy

/-- Somebody takes a step, which is a move. -/
theorem step (h : Shared setup s listed held) {step : Step} {p : Program (Except StoreError (Engine.Answer α))}
    {w : Place} (hbusy : s.busy i = some r) (htakes : r.program.Takes step p)
    (hmeets : Sharing.Meets Answers s.place step w) :
    ∃ held', Shared setup ⟨w, Function.update s.busy i (some ⟨r.task, step :: r.steps, p⟩)⟩ listed held' := by
  have hunder := h.underway i r hbusy
  have htold := h.tidy.told hmeets
  obtain ⟨held', hmove, hfollows⟩ := hunder.follows.takes htakes htold
  obtain ⟨htidy, haccounted⟩ := h.tidy.moved hmove hmeets
  refine ⟨Function.update held i held', htidy, underway_update h.underway ?_, fun session hopen => ?_⟩
  · rintro _ ⟨⟩
    exact ⟨hunder.shared, hfollows, List.forall_mem_cons.2 ⟨htold, hunder.told⟩⟩
  -- A transaction that is open after the step is on the connection of who took it, or was open before.
  · rcases haccounted session hopen with rfl | ⟨hwas, hnot⟩
    · exact ⟨i, _, Function.update_self .., Function.update_self ..⟩
    · exact accounted_update (h.accounted session hwas) fun _ _ => hnot

/-- Whoever is done has closed his connection. -/
theorem finish (h : Shared setup s listed held) {a : Except StoreError (Engine.Answer α)}
    (hbusy : s.busy i = some r) (hdone : r.program = .done a) :
    Shared setup { s with busy := Function.update s.busy i none } listed (Function.update held i none) where
  tidy := h.tidy
  underway := underway_update h.underway fun _ hx => by cases hx
  accounted session hopen := accounted_update (h.accounted session hopen) fun _ _ => by
    have hfollows := (h.underway i r hbusy).follows
    rw [hdone] at hfollows
    have hnone : held i = none := hfollows
    rw [hnone]
    exact nofun

end Shared

namespace Solitary

variable {i j : ι} {r r' : Running α}

/-- Somebody begins when nobody is at work. -/
theorem begin {task : Task α} (h : Settled setup.kind listed s.place) (hidle : ∀ i, s.busy i = none)
    (htask : task.Alone) :
    Solitary setup { s with busy := Function.update s.busy i (some ⟨task, [], task.program setup⟩) } i
      ⟨task, [], task.program setup⟩ where
  busy := Function.update_self ..
  alone := htask
  others j hj := (Function.update_of_ne hj ..).trans (hidle j)
  safely := safely_task htask h

theorem eq_of_busy (h : Solitary setup s i r) (hbusy : s.busy j = some r') : j = i ∧ r' = r := by
  have hj : j = i := by
    by_contra hj
    rw [h.others j hj] at hbusy
    cases hbusy
  subst hj
  rw [h.busy] at hbusy
  exact ⟨rfl, (Option.some.inj hbusy).symm⟩

theorem step (h : Solitary setup s i r) {step : Step} {p : Program (Except StoreError (Engine.Answer α))}
    {w : Place} (htakes : r.program.Takes step p) (hmeets : Sharing.Meets Answers s.place step w) :
    Solitary setup ⟨w, Function.update s.busy i (some ⟨r.task, step :: r.steps, p⟩)⟩ i
      ⟨r.task, step :: r.steps, p⟩ where
  busy := Function.update_self ..
  alone := h.alone
  others j hj := (Function.update_of_ne hj ..).trans (h.others j hj)
  safely := h.safely.takes htakes hmeets

end Solitary

/-! ### The system -/

namespace Sound

omit [DecidableEq ι] in
theorem start (url : String) (limit waitMs : Nat) : Sound setup (System.start url limit waitMs : System ι α) :=
  .shared _ _ (.of_settled (settled_start setup.kind url limit waitMs) fun _ => rfl)

/-- All is well after every step. -/
theorem next (h : Sound setup s) (hnext : System.Next setup s s') : Sound setup s' := by
  cases hnext with
  | begin i task hfree hadmits =>
    cases h with
    | shared listed held h =>
      by_cases htask : task.Alone
      · have hidle : ∀ j, s.busy j = none := fun j => Option.eq_none_iff_forall_ne_some.2 fun r hbusy =>
          (hadmits j r hbusy).1 htask
        exact .solitary i _ (.begin (h.settled hidle) hidle htask)
      · exact .shared listed _ (h.begin hfree htask)
    | solitary j r h => exact absurd h.alone (hadmits j r h.busy).2
  | @step i r step p w hbusy htakes hmeets =>
    cases h with
    | shared listed held h =>
      obtain ⟨held', h'⟩ := h.step hbusy htakes hmeets
      exact .shared listed held' h'
    | solitary j r' h =>
      obtain ⟨rfl, rfl⟩ := h.eq_of_busy hbusy
      exact .solitary i _ (h.step htakes hmeets)
  | @finish i r a hbusy hdone =>
    cases h with
    | shared listed held h => exact .shared listed _ (h.finish hbusy hdone)
    | solitary j r' h =>
      obtain ⟨rfl, rfl⟩ := h.eq_of_busy hbusy
      have hsafely := h.safely
      rw [hdone] at hsafely
      obtain ⟨-, listed, hsettled⟩ := hsafely
      refine .shared listed _ (.of_settled hsettled fun j => ?_)
      by_cases hj : j = i
      · subst hj
        exact Function.update_self ..
      · exact (Function.update_of_ne hj ..).trans (h.others j hj)

theorem reaches (h : Sound setup s) (hs : System.Reaches setup s s') : Sound setup s' := by
  induction hs with
  | refl => exact h
  | tail _ hnext ih => exact ih.next hnext

omit [DecidableEq ι] in
theorem fine (h : Sound setup s) : Fine setup.kind s.place := by
  cases h with
  | shared listed held h => exact ⟨listed, h.tidy.orderly⟩
  | solitary i r h => exact h.safely.fine_of

end Sound

/-- **Every stored row fits its schema and its key.**  Take a store of either family that any number of users
share.  They run units of work and look for tables in steps that come in any order, and create and drop tables
when nobody else is at work; any call may fail at any time.  Then at every moment:

* A row that is stored under a key of a registered table, at whatever version, or committed, or kept aside by a
  connection, is a complete row of the schema with which the table is registered, and has that key.
* Wherever a unit of work has come to in a transaction over a versioned store, the tables that it has opened are
  registered with the schemas it knows, and the rows that the transaction keeps aside fit likewise.
* Whatever a unit of work was answered until then, a row that it has read has in its key columns the values that
  were asked for, and the rows that it has scanned fit the schema and are in strictly ascending order of keys.
* A unit of work that has come to a value has done so in a transaction or on a connection. -/
theorem stored_rows_fit (setup : Setup) (url : String) (limit waitMs : Nat) {s : System ι α}
    (hs : System.Reaches setup (.start url limit waitMs) s) :
    (∀ table schema key row, Registered setup.kind s.place.outside table schema →
      Stored setup.kind s.place.outside table key row → schema.Fits key row) ∧
    ∀ i r work, s.busy i = some r → r.task = .ask (.run work) →
      (∀ steps ops rest, steps <:+: r.steps →
        (∀ tx participants, setup.kind = .versioned →
          Came ((coordinated setup).tables tx) work ∅ steps ops participants rest →
            Buffered (Registered setup.kind s.place.outside) participants ∧
              ∀ op ∈ ops, Right (Registered setup.kind s.place.outside) op.1 op.2) ∧
        ∀ session opened, setup.kind = .relational →
          Came (native.tables session) work ∅ steps ops opened rest →
            ∀ op ∈ ops, Right (Registered setup.kind s.place.outside) op.1 op.2) ∧
      ∀ a, r.program = .done (.ok (.value a)) → Performed setup work r.steps a := by
  have hsound := (Sound.start url limit waitMs).reaches hs
  refine ⟨fun table schema key row hregistered hstored => ?_, ?_⟩
  · obtain ⟨listed, horderly⟩ := hsound.fine
    have hlists := horderly.registered_iff.1 hregistered
    have hname : ¬ Reserved setup.kind table := fun hreserved =>
      hlists.ne_none (horderly.reserved table hreserved)
    exact (horderly.fitted table key row hname hstored).fits hlists
  · intro i r work hbusy htask
    refine ⟨fun steps ops rest hsteps => ?_, fun a hdone => System.performed hs hbusy htask hdone⟩
    cases hsound with
    -- Whoever runs a unit of work is not alone at work.
    | solitary j r' h =>
      obtain ⟨rfl, rfl⟩ := h.eq_of_busy hbusy
      have halone := h.alone
      rw [htask] at halone
      exact halone.elim
    | shared listed held h =>
      have hregistered : Registered setup.kind s.place.outside = Lists listed :=
        funext fun table => funext fun schema => propext h.tidy.orderly.registered_iff
      have htold : ∀ step ∈ steps, Told setup.kind listed step := fun step hstep =>
        (h.underway i r hbusy).told step (hsteps.subset hstep)
      rw [hregistered]
      refine ⟨fun tx participants hkind hcame => ?_, fun session opened hkind hcame => ?_⟩
      · rw [hkind] at htold
        exact hcame.coordinated htold
      · rw [hkind] at htold
        have hreserved : listed Catalog.catalogTable = none := by
          refine h.tidy.orderly.reserved _ ?_
          rw [hkind]
          rfl
        exact hcame.native hreserved htold

/-! ### An account -/

/-- The unit of work that opens the account and reads it. -/
def opening : Work Id (Option Row) :=
  Work.andThen (Work.call (.upsert "accounts" account)) fun _ => Work.call (.read "accounts" [.integer 7])

/-- An engine over a versioned store. -/
def keyed : Setup := ⟨.versioned, {}, .perThread⟩

/-- The first transaction. -/
def first : Transaction := ⟨1, none, ∅⟩

/-- What it keeps aside when the account is opened. -/
def opened : Participants :=
  ((∅ : Participants).insert "accounts" { schema := accounts }).insert "accounts"
    (Participant.withWrite { schema := accounts } ⟨[.integer 7]⟩ (some account))

/-- The cache when the table has been created. -/
def known : LookupCache :=
  (((LookupCache.withSlot ∅ "accounts").settle "accounts" (.error (.tableNotFound "accounts"))).withSlot
    "accounts").changed "accounts" (.found accounts) (.ok ())

theorem leads_asked {α : Type} {p q q' : Program α} {taken : List Step} {request : Sharing.Request LookupCache Call}
    {answer : request.Answer Call.Reply} {next : request.Answer Call.Reply → Program α} (h : p.Leads taken q)
    (hq : q = .ask request next) (hnext : next answer = q') : p.Leads (.asked request answer :: taken) q' := by
  subst hq hnext
  exact h.step (.asked request next answer)

/-- The unit of work finds no account in the store, and then it finds the one that is kept aside. -/
theorem opening_came : Came ((coordinated keyed).tables first) opening ∅
    [.asked (.call (.backend (.store (.read "accounts" ⟨[.integer 7]⟩ first)))) (.ok none),
      .asked (.update (·.withSlot "accounts")) known]
    [⟨.read "accounts" [.integer 7], .ok (some account)⟩, ⟨.upsert "accounts" account, .ok ()⟩] opened
    (.done (.ok (some account))) := by
  have hbegin : Came ((coordinated keyed).tables first) opening ∅ [] [] ∅ (.ask (.upsert "accounts" account) _) :=
    .begin
  have hupsert : (((coordinated keyed).tables first (.upsert "accounts" account)).run ∅).Leads
      [.asked (.call (.backend (.store (.read "accounts" ⟨[.integer 7]⟩ first)))) (.ok none),
        .asked (.update (·.withSlot "accounts")) known] (.done (.ok (), opened)) :=
    leads_asked (leads_asked .here rfl rfl) rfl rfl
  exact .operation (hbegin.operation hupsert) .here

namespace System

/-- Somebody creates the table and then opens the account. -/
theorem exists_reaches_opening : ∃ s : System Unit (Option Row), Reaches keyed (.start "memory" 1 0) s ∧
    Registered .versioned s.place.outside "accounts" accounts ∧
    Stored .versioned s.place.outside "accounts" ⟨[.integer 7]⟩ account ∧
    ∃ r, s.busy () = some r ∧ r.task = .ask (.run opening) ∧ r.program = .done (.ok (.value (some account))) ∧
      [.asked (.call (.backend (.store (.read "accounts" ⟨[.integer 7]⟩ first)))) (.ok none),
        .asked (.update (·.withSlot "accounts")) known] <:+: r.steps := by
  refine exists_reaches_of_begin () (.ask (.createTable accounts)) rfl (fun j r h => by cases h) ?_
  refine exists_reaches_of_ask (.update (·.withSlot "accounts")) _ rfl (meets_update _) ?_
  refine exists_reaches_of_ask (.call (.backend (.store (.metadataGet (Catalog.entryKey "accounts"))))) (.ok none) rfl
    (meets_store rfl) ?_
  refine exists_reaches_of_ask (.update (·.settle "accounts" (.error (.tableNotFound "accounts")))) _ rfl
    (meets_update _) ?_
  refine exists_reaches_of_ask (.call (.backend (.store (.createTable "accounts")))) (.ok ()) rfl (meets_store rfl) ?_
  refine exists_reaches_of_ask (.update (·.withSlot "accounts")) _ rfl (meets_update _) ?_
  refine exists_reaches_of_ask
    (.call (.backend (.store (.metadataAdd (Catalog.entryKey "accounts") accounts.document)))) (.ok true) rfl
    (meets_store rfl) ?_
  refine exists_reaches_of_ask (.update (·.changed "accounts" (.found accounts) (.ok ()))) _ rfl (meets_update _) ?_
  refine exists_reaches_of_finish rfl ?_
  refine exists_reaches_of_begin () (.ask (.run opening)) rfl (fun j r h => by cases h) ?_
  refine exists_reaches_of_ask (.call .thread) (0 : Nat) rfl (meets_call rfl) ?_
  refine exists_reaches_of_ask (.call (.threads (·.lend 0))) ({} : ThreadSessions) rfl (meets_call rfl) ?_
  refine exists_reaches_of_ask (.call (.coordinator .connect)) (.ok 1) rfl (meets_call rfl) ?_
  refine exists_reaches_of_ask (.call (.threads (·.countOpened))) ({} : ThreadSessions) rfl (meets_call rfl) ?_
  refine exists_reaches_of_ask (.call (.unfinished fun _ => [])) [] rfl (meets_call rfl) ?_
  refine exists_reaches_of_ask (.call (.coordinator (.begin 1))) (.ok first) rfl (meets_call rfl) ?_
  refine exists_reaches_of_ask (.update (·.withSlot "accounts")) _ rfl (meets_update _) ?_
  refine exists_reaches_of_ask (.call (.backend (.store (.read "accounts" ⟨[.integer 7]⟩ first)))) (.ok none) rfl
    (meets_store rfl) ?_
  refine exists_reaches_of_ask (.call (.coordinator (.canCommit 1 first (Participant.changeSet [_])))) (.ok true) rfl
    (meets_call rfl) ?_
  refine exists_reaches_of_ask (.call (.backend (.store (.write "accounts" ⟨[.integer 7]⟩ 1 (some account))))) (.ok ())
    rfl (meets_store rfl) ?_
  refine exists_reaches_of_ask (.call (.coordinator (.commit 1 first))) (.ok true) rfl (meets_call rfl) ?_
  refine exists_reaches_of_ask (.call .thread) (0 : Nat) rfl (meets_call rfl) ?_
  refine exists_reaches_of_ask (.call (.threads (·.giveBack 0 1))) ({} : ThreadSessions) rfl (meets_call rfl) ?_
  refine ⟨_, .refl, ?_, ?_, _, rfl, rfl, rfl, ?_⟩
  · exact ⟨accounts.document, rfl, TableSchema.ofDocumentChecked_document accounts⟩
  · exact ⟨1, rfl⟩
  · exact ⟨[_, _, _, _, _], [_, _, _, _, _, _], rfl⟩

end System

/-- The account that is opened fits where it is stored and where it is kept aside, and is found rightly. -/
theorem stored_rows_fit_opening : ∃ s : System Unit (Option Row), System.Reaches keyed (.start "memory" 1 0) s ∧
    accounts.Fits ⟨[.integer 7]⟩ account ∧ Buffered (Registered .versioned s.place.outside) opened ∧
    Right (Registered .versioned s.place.outside) (.read "accounts" [.integer 7]) (.ok (some account)) ∧
    ∃ steps, Performed keyed opening steps (some account) := by
  obtain ⟨s, hs, hregistered, hstored, r, hbusy, htask, hdone, hsteps⟩ := System.exists_reaches_opening
  obtain ⟨hfits, hworks⟩ := stored_rows_fit keyed "memory" 1 0 hs
  obtain ⟨hcame, hperformed⟩ := hworks () r opening hbusy htask
  obtain ⟨hbuffered, hright⟩ := (hcame _ _ _ hsteps).1 first opened rfl opening_came
  refine ⟨s, hs, hfits _ _ _ _ hregistered hstored, hbuffered, ?_, r.steps, hperformed _ hdone⟩
  exact hright _ List.mem_cons_self

end Tabular.Provider
