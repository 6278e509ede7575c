import Tabular.Proofs.Relational.History

/-!
# Tabular.Proofs.Relational.Isolation — connections see their own changes and no others'

Main statement: `transactions_isolated`, over whole runs a connection sees the committed rows with
precisely the changes of its open transaction laid over them, nobody else sees these changes, and a commit
makes all of them the committed rows at once or fails and forgets them.
-/

namespace Tabular.Database

/-! ### Actions of other connections -/

/-- Whether an action is none of a connection, and opens none. -/
def Action.Elsewhere (session : Nat) : Action → Prop
  | .call c => ∃ other, c.session? = some other ∧ other ≠ session
  | .close other => other ≠ session
  | .failCommits _ => True

/-- Whether two databases differ in nothing that another connection could tell. -/
structure Agree (session : Nat) (db db' : Database) : Prop where
  tables : db.tables = db'.tables
  failCommits : db.failCommits = db'.failCommits
  staged : ∀ other, other ≠ session → db.staged? other = db'.staged? other

section Congr

variable {db db' : Database} {s : Nat} (htables : db.tables = db'.tables)
  (hfail : db.failCommits = db'.failCommits) (hstaged : db.staged? s = db'.staged? s)

include htables

theorem rows_congr (table : String) : db.rows table = db'.rows table := by
  rw [Database.rows, Database.rows, htables]

include hstaged

theorem seen_congr (table : String) : db.seen s table = db'.seen s table := by
  rw [seen, seen, rows_congr htables, stagedFor, stagedFor, hstaged]

/-- A change succeeds or fails alike, and makes the same of the tables. -/
theorem change_congr (table : String) (key : RowKey) (cell : Option Row) :
    (·.tables) <$> db.change s table key cell = (·.tables) <$> db'.change s table key cell := by
  by_cases htable : table ∈ db'.tables
  case neg =>
    rw [change_of_not_mem htable, change_of_not_mem (htables ▸ htable)]
  case pos =>
    cases hs : db'.staged? s with
    | some changes =>
      rw [change_of_some hs htable, change_of_some (hstaged.trans hs) (htables ▸ htable)]
      exact congrArg Except.ok htables
    | none =>
      obtain ⟨rows, hrows⟩ := Option.isSome_iff_exists.1 (Std.ExtTreeMap.mem_iff_isSome_getElem?.1 htable)
      rw [change_of_none hs hrows, change_of_none (hstaged.trans hs) (htables ▸ hrows)]
      show Except.ok (db.tables.insert table (rows.change key cell)) = _
      rw [htables]
      rfl

include hfail

/-- An answer depends on the tables, on whether commits fail and on what the connection keeps aside. -/
theorem perform_congr {call : RelationalCall} (hs : call.session? = some s) :
    (db.perform call).1 = (db'.perform call).1 ∧
      (db.perform call).2.tables = (db'.perform call).2.tables := by
  have hseen := seen_congr htables hstaged
  have hchange : ∀ table key cell,
      (db.answered (((), ·) <$> db.change s table key cell)).1 =
          (db'.answered (((), ·) <$> db'.change s table key cell)).1 ∧
        (db.answered (((), ·) <$> db.change s table key cell)).2.tables =
          (db'.answered (((), ·) <$> db'.change s table key cell)).2.tables := by
    intro table key cell
    have h := change_congr htables hstaged table key cell
    cases hc : db.change s table key cell with
    | error e =>
      cases hc' : db'.change s table key cell with
      | error e' =>
        rw [hc, hc'] at h
        injection h with h
        exact ⟨congrArg Except.error h, htables⟩
      | ok after' =>
        rw [hc, hc'] at h
        cases h
    | ok after =>
      cases hc' : db'.change s table key cell with
      | error e' =>
        rw [hc, hc'] at h
        cases h
      | ok after' =>
        rw [hc, hc'] at h
        injection h with h
        exact ⟨rfl, h⟩
  cases call <;> cases hs
  case begin =>
    simp only [perform, begin, hstaged]
    cases db'.staged? s with
    | none => exact ⟨rfl, htables⟩
    | some changes => exact ⟨rfl, htables⟩
  case commit =>
    simp only [perform, commit, hstaged, hfail, missingTable?, htables, applied]
    cases db'.staged? s with
    | none => exact ⟨rfl, htables⟩
    | some changes =>
      cases db'.failCommits with
      | true => exact ⟨rfl, htables⟩
      | false =>
        dsimp only
        cases changes.keys.find? (· ∉ db'.tables) with
        | some table => exact ⟨rfl, htables⟩
        | none => exact ⟨rfl, rfl⟩
  case rollback => exact ⟨rfl, htables⟩
  case tableExists table =>
    simp only [perform, htables]
    exact ⟨trivial, trivial⟩
  case createTable schema =>
    simp only [perform, createTable, htables]
    split
    · exact ⟨rfl, htables⟩
    · exact ⟨rfl, rfl⟩
  case dropTable table =>
    simp only [perform, dropTable, htables]
    split
    · exact ⟨rfl, rfl⟩
    · exact ⟨rfl, htables⟩
  case upsert schema row =>
    cases hkey : schema.keyOf row with
    | error e =>
      rw [perform_upsert_of_error hkey, perform_upsert_of_error hkey]
      exact ⟨rfl, htables⟩
    | ok key =>
      rw [perform_upsert hkey, perform_upsert hkey]
      exact hchange _ _ _
  case read schema key =>
    simp only [perform, hseen]
    exact ⟨trivial, htables⟩
  case delete schema key => exact hchange _ _ _
  case scan schema =>
    simp only [perform, hseen]
    exact ⟨trivial, htables⟩

end Congr

namespace Agree

variable {session : Nat} {db db' : Database}

/-- Another connection gets the same answer from databases that differ in nothing it could tell. -/
theorem act (h : Agree session db db') {action : Action} (helsewhere : action.Elsewhere session) :
    (db.act action).1 = (db'.act action).1 ∧ Agree session (db.act action).2 (db'.act action).2 := by
  have hanswer : (db.act action).1 = (db'.act action).1 ∧
      (db.act action).2.tables = (db'.act action).2.tables ∧
      (db.act action).2.failCommits = (db'.act action).2.failCommits := by
    cases action with
    | close s => exact ⟨rfl, h.tables, h.failCommits⟩
    | failCommits fail => exact ⟨rfl, h.tables, rfl⟩
    | call call =>
      obtain ⟨other, hother, hne⟩ := helsewhere
      have hsame := perform_congr h.tables h.failCommits (h.staged other hne) hother
      refine ⟨congrArg (Entry.answered call) hsame.1, hsame.2, ?_⟩
      exact (Frame.of_perform db hother).1.trans (h.failCommits.trans (Frame.of_perform db' hother).1.symm)
  refine ⟨hanswer.1, hanswer.2.1, hanswer.2.2, fun other hne => ?_⟩
  rw [staged?_act, staged?_act, hanswer.1, h.staged other hne]

/-- Nor can other connections tell over a whole run. -/
theorem play (h : Agree session db db') (actions : List Action)
    (helsewhere : ∀ action ∈ actions, action.Elsewhere session) :
    (Database.play db actions).log = (Database.play db' actions).log ∧
      Agree session (Database.play db actions).state (Database.play db' actions).state := by
  induction actions with
  | nil => exact ⟨rfl, h⟩
  | cons action earlier ih =>
    rw [List.forall_mem_cons] at helsewhere
    obtain ⟨hlog, hagree⟩ := ih helsewhere.2
    obtain ⟨hentry, hafter⟩ := hagree.act helsewhere.1
    refine ⟨?_, hafter⟩
    simp only [Database.play]
    rw [hentry, hlog]

end Agree

/-! ### Changes that are kept aside -/

/-- Whether an action of a connection concerns nobody else: it makes a change inside a transaction,
begins or forgets one, closes the connection, or commits in vain. -/
def Action.Private (db : Database) (session : Nat) : Action → Prop
  | .call (.begin s) | .call (.rollback s) | .close s => s = session
  | .call (.upsert s _ _) | .call (.delete s _ _) => s = session ∧ (db.staged? s).isSome
  | .call (.commit s) => s = session ∧ ∃ e, (db.perform (.commit s)).1 = .error e
  | _ => False

theorem tables_change_of_isSome {db : Database} {s : Nat} (h : (db.staged? s).isSome) (table : String)
    (key : RowKey) (cell : Option Row) :
    (db.answered (((), ·) <$> db.change s table key cell)).2.tables = db.tables := by
  obtain ⟨changes, hstaged⟩ := Option.isSome_iff_exists.1 h
  by_cases htable : table ∈ db.tables
  · rw [change_of_some hstaged htable]
    rfl
  · rw [change_of_not_mem htable]
    rfl

/-- Such an action leaves the committed rows alone. -/
theorem tables_act_of_private {db : Database} {session : Nat} {action : Action}
    (h : action.Private db session) : (db.act action).2.tables = db.tables := by
  cases action with
  | close s => rfl
  | failCommits fail => exact h.elim
  | call call =>
    cases call with
    | begin s =>
      simp only [act, perform, begin]
      split <;> rfl
    | rollback s => rfl
    | commit s =>
      obtain ⟨-, e, he⟩ := h
      exact tables_commit_of_error he
    | upsert s schema row =>
      cases hkey : schema.keyOf row with
      | error e =>
        rw [act, perform_upsert_of_error hkey]
      | ok key =>
        rw [act, perform_upsert hkey]
        exact tables_change_of_isSome h.2 _ _ _
    | delete s schema key => exact tables_change_of_isSome h.2 _ _ _
    | connect | tableExists | createTable | dropTable | read | scan => exact h.elim

/-- The transaction of a connection is nothing to calls on another one. -/
theorem Entry.turn_of_ne {call : RelationalCall} {answer : Except StoreError call.Answer} {s session : Nat}
    (hs : call.session? = some s) (hne : s ≠ session) :
    Entry.turn session (.answered call answer) = .nothing := by
  cases call <;> cases hs
  case upsert schema row =>
    cases answer with
    | error e => rfl
    | ok =>
      simp only [Entry.turn, if_neg hne]
      split <;> rfl
  all_goals cases answer <;> simp [Entry.turn, hne]

theorem Action.Private.session? {db : Database} {session : Nat} {call : RelationalCall}
    (h : (Action.call call).Private db session) : call.session? = some session := by
  cases call with
  | begin s | rollback s => exact congrArg some h
  | commit s | upsert s | delete s => exact congrArg some h.1
  | connect | tableExists | createTable | dropTable | read | scan => exact h.elim

/-- And nobody else can tell. -/
theorem agree_act_of_private {db : Database} {session : Nat} {action : Action}
    (h : action.Private db session) : Agree session (db.act action).2 db where
  tables := tables_act_of_private h
  failCommits := by
    cases action with
    | close s => rfl
    | failCommits fail => exact h.elim
    | call call => exact (Frame.of_perform db h.session?).1
  staged := by
    intro other hne
    have hturn : (db.act action).1.turn other = .nothing := by
      cases action with
      | close s => exact if_neg fun heq => hne (heq.symm.trans h)
      | failCommits fail => rfl
      | call call => exact Entry.turn_of_ne h.session? hne.symm
    rw [staged?_act, hturn]
    rfl

/-! ### Rows, as they are committed and as they are seen -/

/-- The committed rows of all tables. -/
def contents (db : Database) : Contents := fun row => db.tables[row.table]?.bind (·[row.key]?)

section Seen

variable {db : Database} {log : Log} {session : Nat}
  (h : Reflects (db.staged? session) (log.pending session))

include h

/-- What a connection keeps aside for a row is how it last changed it in its open transaction. -/
theorem getElem?_stagedFor (row : Change) :
    (db.stagedFor session row.table)[row.key]? = log.own session row := by
  cases hstaged : db.staged? session with
  | none =>
    cases hpending : log.pending session with
    | none =>
      rw [stagedFor_of_none hstaged]
      simp [Log.own, hpending]
    | some changes =>
      rw [hstaged, hpending] at h
      exact h.elim
  | some staged =>
    cases hpending : log.pending session with
    | none =>
      rw [hstaged, hpending] at h
      exact h.elim
    | some changes =>
      rw [hstaged, hpending] at h
      rw [stagedFor_of_some hstaged, Log.own, hpending]
      exact h.1 row

/-- A connection sees the committed rows of a table with its own changes laid over them. -/
theorem exists_seen {table : String} (htable : table ∈ db.tables) :
    ∃ seen, db.seen session table = .ok seen ∧
      ∀ key : RowKey, seen[key]? = (db.contents.overlaid (log.own session)) ⟨table, key⟩ := by
  obtain ⟨rows, hrows⟩ := Option.isSome_iff_exists.1 (Std.ExtTreeMap.mem_iff_isSome_getElem?.1 htable)
  obtain ⟨seen, hseen, hcells⟩ : ∃ seen, db.seen session table = .ok seen ∧ _ := getElem?_seen hrows
  refine ⟨seen, hseen, fun key => ?_⟩
  rw [hcells, getElem?_stagedFor h ⟨table, key⟩, Contents.overlaid, contents, hrows]
  rfl

/-- A commit makes the committed rows of each table what the connection saw. -/
theorem contents_commit (hok : (db.commit session).1 = .ok ()) :
    (db.commit session).2.contents = db.contents.overlaid (log.own session) := by
  funext row
  have htable := getElem?_tables_commit hok row.table
  rw [contents, htable, Contents.overlaid, ← getElem?_stagedFor h, contents]
  cases hrows : db.tables[row.table]? with
  | some rows => exact Changes.getElem?_applyTo _ _ _
  | none =>
    -- nothing is kept aside for a table that is not there, or the commit would have failed
    obtain ⟨changes, hstaged, -, hthere⟩ := commit_eq_ok_iff.1 hok
    have hnot : row.table ∉ changes := by
      intro hmem
      have := Std.ExtTreeMap.mem_iff_isSome_getElem?.1 (hthere _ hmem)
      rw [hrows] at this
      cases this
    rw [stagedFor_of_some hstaged, Std.ExtTreeMap.getD_eq_fallback hnot]
    rfl

/-- A commit that succeeds leaves a table alone of which nothing is kept aside. -/
theorem getElem?_tables_commit_of_own (hok : (db.commit session).1 = .ok ()) {table : String}
    (hown : ∀ key, log.own session ⟨table, key⟩ = none) :
    (db.commit session).2.tables[table]? = db.tables[table]? := by
  have hempty : db.stagedFor session table = ∅ := by
    refine Std.ExtTreeMap.ext_getElem? fun key => ?_
    rw [getElem?_stagedFor h ⟨table, key⟩, hown, Std.ExtTreeMap.getElem?_empty]
  rw [getElem?_tables_commit hok, hempty]
  cases db.tables[table]? with
  | none => rfl
  | some rows =>
    refine congrArg some (Std.ExtTreeMap.ext_getElem? fun key => ?_)
    rw [Changes.getElem?_applyTo, Std.ExtTreeMap.getElem?_empty]
    rfl

/-- When a commit succeeds. -/
theorem commit_eq_ok_iff_pending :
    (db.commit session).1 = .ok () ↔ ∃ changes, log.pending session = some changes ∧
      db.failCommits = false ∧ ∀ c ∈ changes, c.1.table ∈ db.tables := by
  rw [commit_eq_ok_iff]
  cases hstaged : db.staged? session with
  | none =>
    cases hpending : log.pending session with
    | none => simp
    | some changes =>
      rw [hstaged, hpending] at h
      exact h.elim
  | some staged =>
    cases hpending : log.pending session with
    | none =>
      rw [hstaged, hpending] at h
      exact h.elim
    | some changes =>
      rw [hstaged, hpending] at h
      simp only [Option.some.injEq, exists_eq_left']
      refine and_congr_right fun _ => ⟨fun hthere c hc => ?_, fun hthere table htable => ?_⟩
      · exact hthere _ ((h.2 _).2 ⟨c, hc, rfl⟩)
      · obtain ⟨c, hc, rfl⟩ := (h.2 table).1 htable
        exact hthere c hc

end Seen

/-- What a scan lists are the rows that are seen, in ascending order of their keys. -/
theorem exists_entries (rows : Rows) :
    ∃ entries : List (RowKey × Row), entries.Pairwise (fun a b => compare a.1 b.1 = .lt) ∧
      (∀ key row, (key, row) ∈ entries ↔ rows[key]? = some row) ∧ rows.values = entries.map (·.2) :=
  ⟨rows.toList, Std.ExtTreeMap.ordered_keys_toList,
    fun _ _ => Std.ExtTreeMap.mem_toList_iff_getElem?_eq_some, values_eq_map_toList rows⟩

/-- **Connections are isolated and commit all at once.**  Whatever happened to a database, in any order:

* On a table that is there, a connection reads the committed row of a key with the changes laid over it
  that it has made since it began its transaction, and scans, in ascending order of the keys, precisely
  the rows that it reads.  On any other table both fail, whatever is kept aside for it.
* Changes made inside a transaction, beginning and forgetting one, closing the connection and a commit
  that fails leave all committed rows alone, and whatever other connections ask later they are answered
  as if nothing had happened.
* A commit succeeds if a transaction is open, no failure is due and all changed tables are there.  It then
  makes the committed rows what the connection saw, and leaves every other table alone.
* After a commit, successful or not, and after forgetting it no transaction is open.
* If only open connections were used, a new connection is none of them. -/
theorem transactions_isolated (url : String) (limit waitMs : Nat) (actions : List Action) :
    let run := play (empty url limit waitMs) actions
    (∀ session schema,
      (schema.name ∉ run.state.tables →
        (∀ key, (run.state.perform (.read session schema key)).1 =
          .error (.tableNotFound schema.name)) ∧
        (run.state.perform (.scan session schema)).1 = .error (.tableNotFound schema.name)) ∧
      (schema.name ∈ run.state.tables →
        (∀ key, (run.state.perform (.read session schema key)).1 =
          .ok ((run.state.contents.overlaid (run.log.own session)) ⟨schema.name, key⟩)) ∧
        ∃ entries : List (RowKey × Row), entries.Pairwise (fun a b => compare a.1 b.1 = .lt) ∧
          (∀ key row, (key, row) ∈ entries ↔
            (run.state.perform (.read session schema key)).1 = .ok (some row)) ∧
          (run.state.perform (.scan session schema)).1 = .ok (entries.map (·.2)))) ∧
    (∀ session action, action.Private run.state session →
      (run.state.act action).2.tables = run.state.tables ∧
      ∀ later, (∀ a ∈ later, Action.Elsewhere session a) →
        (play (run.state.act action).2 later).log = (play run.state later).log) ∧
    (∀ session,
      ((run.state.perform (.commit session)).1 = .ok () ↔
        ∃ changes, run.log.pending session = some changes ∧ run.state.failCommits = false ∧
          ∀ c ∈ changes, c.1.table ∈ run.state.tables) ∧
      ((run.state.perform (.commit session)).1 = .ok () →
        (run.state.perform (.commit session)).2.contents =
          run.state.contents.overlaid (run.log.own session) ∧
        ∀ table, (table ∈ (run.state.perform (.commit session)).2.tables ↔ table ∈ run.state.tables) ∧
          ((∀ key, run.log.own session ⟨table, key⟩ = none) →
            (run.state.perform (.commit session)).2.tables[table]? = run.state.tables[table]?))) ∧
    (∀ session, (run.state.perform (.commit session)).2.staged? session = none ∧
      (run.state.perform (.rollback session)).2.staged? session = none) ∧
    (run.log.Proper → ∀ new, (run.state.perform .connect).1 = .ok new → ¬ run.log.Open new) := by
  intro run
  have hreflects : ∀ session, Reflects (run.state.staged? session) (run.log.pending session) :=
    reflects_play url limit waitMs actions
  refine ⟨?_, ?_, ?_, ?_, ?_⟩
  · intro session schema
    refine ⟨fun hmissing => ?_, fun hthere => ?_⟩
    · have hseen : run.state.seen session schema.name = _ := seen_of_not_mem hmissing
      simp only [perform, hseen]
      exact ⟨fun _ => rfl, rfl⟩
    · obtain ⟨seen, hseen, hcells⟩ := exists_seen (hreflects session) hthere
      obtain ⟨entries, hordered, hmem, hvalues⟩ := exists_entries seen
      simp only [perform, hseen]
      refine ⟨fun key => congrArg Except.ok (hcells key), entries, hordered, ?_,
        congrArg Except.ok hvalues⟩
      intro key row
      rw [hmem]
      show _ ↔ Except.ok seen[key]? = _
      rw [Except.ok.injEq]
  · intro session action hprivate
    refine ⟨tables_act_of_private hprivate, fun later hlater => ?_⟩
    exact ((agree_act_of_private hprivate).play later hlater).1
  · intro session
    refine ⟨commit_eq_ok_iff_pending (hreflects session), fun hok => ?_⟩
    refine ⟨contents_commit (hreflects session) hok, fun table => ⟨?_, fun hown => ?_⟩⟩
    · have htable := getElem?_tables_commit hok table
      rw [Std.ExtTreeMap.mem_iff_isSome_getElem?, Std.ExtTreeMap.mem_iff_isSome_getElem?]
      simp only [perform, htable, Option.isSome_map]
    · exact getElem?_tables_commit_of_own (hreflects session) hok hown
  · intro session
    refine ⟨?_, staged?_setStaged_self _ _ _⟩
    simp only [perform, staged?_commit, if_true]
  · intro hproper new hnew
    exact (Numbered.play url limit waitMs actions hproper).not_open_of_connect hnew

/-! ### A transaction next to another connection -/

def items : TableSchema where
  name := "items"
  columns := [⟨"id", .long, false⟩, ⟨"label", .string, true⟩]
  primaryKey := ["id"]
  indexes := []

def item : Row := Row.ofCells [("id", .long 7)]

/-- A connection inserts an item in a transaction while another one is open. -/
def inserting : List Action :=
  [.call (.upsert 1 items item), .call (.begin 1), .call (.createTable 1 items), .call .connect,
    .call .connect]

theorem play_inserting :
    let run := play (empty "memory" 2 1000) inserting
    items.name ∈ run.state.tables ∧ run.state.failCommits = false ∧
      run.log.pending 1 = some [(⟨items.name, ⟨[.long 7]⟩⟩, some item)] ∧ run.log.pending 2 = none ∧
      run.state.contents ⟨items.name, ⟨[.long 7]⟩⟩ = none := by
  refine ⟨?_, rfl, rfl, rfl, rfl⟩
  decide

/-- What is inserted inside the transaction is seen by the one connection and not by the other, and a
commit would make it seen. -/
theorem transactions_isolated_inserting :
    let run := play (empty "memory" 2 1000) inserting
    (run.state.perform (.read 1 items ⟨[.long 7]⟩)).1 = .ok (some item) ∧
      (run.state.perform (.read 2 items ⟨[.long 7]⟩)).1 = .ok none ∧
      (run.state.perform (.commit 1)).1 = .ok () ∧
      (run.state.perform (.commit 1)).2.contents ⟨items.name, ⟨[.long 7]⟩⟩ = some item := by
  intro run
  obtain ⟨hthere, hfail, hfirst, hsecond, hnone⟩ := play_inserting
  obtain ⟨hreads, -, hcommits, -, -⟩ := transactions_isolated "memory" 2 1000 inserting
  have hread := fun session => ((hreads session items).2 hthere).1 ⟨[.long 7]⟩
  have hcommit : (run.state.perform (.commit 1)).1 = .ok () :=
    (hcommits 1).1.2 ⟨_, hfirst, hfail, by simpa using hthere⟩
  have hown : run.log.own 1 ⟨items.name, ⟨[.long 7]⟩⟩ = some (some item) := by
    rw [Log.own, hfirst]
    rfl
  have hown' : run.log.own 2 ⟨items.name, ⟨[.long 7]⟩⟩ = none := by
    rw [Log.own, hsecond]
    rfl
  refine ⟨?_, ?_, hcommit, ?_⟩
  · rw [hread 1]
    show Except.ok ((run.log.own 1 _).getD _) = _
    rw [hown]
    rfl
  · rw [hread 2]
    show Except.ok ((run.log.own 2 _).getD (run.state.contents _)) = _
    rw [hown', hnone]
    rfl
  · rw [((hcommits 1).2 hcommit).1, Contents.overlaid, hown]
    rfl

end Tabular.Database
