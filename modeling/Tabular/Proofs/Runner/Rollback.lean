import Mathlib.Data.List.Nodup
import Tabular.Proofs.Runner.Faulty
import Tabular.Proofs.Runner.Held
import Tabular.Proofs.Work.Samples

/-!
# Tabular.Proofs.Runner.Rollback — taking back what a transaction has written

The rows whose cells a transaction has written and not removed are `owed`: they are those of its
participants' lists.  Writing keeps the store stamped with them, whatever fails (`ends_persistAll`), and so
does removing them again (`Undid`, `ends_rollbackAll`).  Main statement: `rollback_exact`.
-/

namespace Tabular

open Faulty (Ends After Working)
open Samples (notes note noteKey)

namespace Participant

/-- The rows of a table whose cells are written and not removed. -/
def owedOf (table : String) (keys : List RowKey) : List Change := keys.map (Change.mk table)

/-- The rows whose cells participants have written and not removed. -/
def owed (ps : List Participant) : List Change := ps.flatMap fun p => owedOf p.schema.name p.persisted

variable {s : VersionedStore} {tx : Transaction} {version : Nat} {table : String} {others : List Change}
  {ps ps' : List Participant} {p : Participant} {w : Faulty}

theorem mem_owedOf {keys : List RowKey} {row : Change} :
    row ∈ owedOf table keys ↔ table = row.table ∧ row.key ∈ keys := by
  obtain ⟨table', key⟩ := row
  simp only [owedOf, List.mem_map, Change.mk.injEq]
  constructor
  · rintro ⟨k, hk, rfl, rfl⟩
    exact ⟨rfl, hk⟩
  · rintro ⟨rfl, hkey⟩
    exact ⟨key, hkey, rfl, rfl⟩

theorem mem_owed {row : Change} :
    row ∈ owed ps ↔ ∃ p ∈ ps, p.schema.name = row.table ∧ row.key ∈ p.persisted := by
  simp [owed, mem_owedOf]

theorem owed_cons : owed (p :: ps) = owedOf p.schema.name p.persisted ++ owed ps := rfl

theorem nodup_owedOf {keys : List RowKey} (h : keys.Nodup) : (owedOf table keys).Nodup :=
  h.map fun _ _ heq => (Change.mk.inj heq).2

/-- What participants of different tables owe has no row twice if that of each has none. -/
theorem nodup_owed (hnames : (ps.map (·.schema.name)).Nodup) (hkeys : ∀ p ∈ ps, p.persisted.Nodup) :
    (owed ps).Nodup := by
  refine List.nodup_flatMap.2 ⟨fun p hp => nodup_owedOf (hkeys p hp), ?_⟩
  refine (List.pairwise_map.1 hnames).imp fun hne => List.disjoint_left.2 fun row hrow hrow' => hne ?_
  exact (mem_owedOf.1 hrow).1.trans (mem_owedOf.1 hrow').1.symm

/-! ### Writing -/

/-- Whether the calls between two states all worked if a result is a success, and only then. -/
def Accounts (w : Faulty) (result : Except StoreError Unit) (w' : Faulty) : Prop :=
  ∃ more, After w more w' ∧ (result = .ok () ↔ ∀ a ∈ more, a.failure = none)

theorem Accounts.nothing (w : Faulty) : Accounts w (.ok ()) w := ⟨[], .refl w, by simp⟩

/-- A success leaves the account to what comes next. -/
theorem Accounts.trans {w' w'' : Faulty} {result : Except StoreError Unit} (h : Accounts w (.ok ()) w')
    (h' : Accounts w' result w'') : Accounts w result w'' := by
  obtain ⟨more, hafter, hok⟩ := h
  obtain ⟨more', hafter', hok'⟩ := h'
  refine ⟨more ++ more', hafter.trans hafter', ?_⟩
  rw [hok', List.forall_mem_append]
  exact (and_iff_right (hok.1 rfl)).symm

/-- Writing stops at the first failure, and the written keys come back. -/
theorem ends_writeCells (hmem : table ∈ s.tables) (others : List Change) (entries : List (RowKey × Option Row))
    (done : List RowKey) (w : Faulty) (h : s.Stamped version (owedOf table done ++ others) w.store) :
    Ends (writeCells Faulty.access table version entries done) w fun r w' =>
      s.Stamped version (owedOf table r.2 ++ others) w'.store ∧ Accounts w r.1 w' ∧
        ∃ written, r.2 = written.reverse ++ done ∧ written <+: entries.map (·.1) ∧
          (r.1 = .ok () → written = entries.map (·.1)) := by
  induction entries generalizing done w with
  | nil => exact .pure ⟨h, .nothing w, [], by simp⟩
  | cons entry rest ih =>
    obtain ⟨key, cell⟩ := entry
    obtain ⟨store, hperform, hafter⟩ := h.write hmem key cell
    refine .bind (.ask hperform (fun e w' hstore hasked => ?_) fun w' hstore hasked => ?_)
    · exact .pure ⟨hstore ▸ h, ⟨_, hasked, by simp⟩, [], by simp⟩
    · refine (ih (key :: done) w' (hstore ▸ hafter)).mono ?_
      rintro r w'' ⟨hstamped, haccounts, written, hr, hprefix, hall⟩
      exact ⟨hstamped, .trans ⟨_, hasked, by simp⟩ haccounts, key :: written, by simp [hr],
        by simpa using hprefix, fun hok => by simp [hall hok]⟩

/-- Whether a participant has written some of its changes, the first ones. -/
structure Wrote (p p' : Participant) : Prop where
  schema : p'.schema = p.schema
  written : p'.persisted.reverse <+: p.writes.keys

theorem Wrote.nodup {p' : Participant} (h : Wrote p p') : p'.persisted.Nodup :=
  List.nodup_reverse.1 (h.written.sublist.nodup Std.ExtTreeMap.nodup_keys)

theorem Wrote.refl (h : p.persisted = []) : Wrote p p := ⟨rfl, by simp [h]⟩

theorem wrote_all (h : List.Forall₂ Wrote ps ps') :
    ps'.map (·.schema.name) = ps.map (·.schema.name) ∧ ∀ p ∈ ps', p.persisted.Nodup := by
  induction h with
  | nil => exact ⟨rfl, by simp⟩
  | cons hwrote _ ih =>
    exact ⟨congrArg₂ List.cons (congrArg TableSchema.name hwrote.schema) ih.1,
      List.forall_mem_cons.2 ⟨hwrote.nodup, ih.2⟩⟩

theorem ends_persist (hmem : p.schema.name ∈ s.tables) (hpersisted : p.persisted = [])
    (h : s.Stamped tx.writePointer others w.store) :
    Ends (p.persist Faulty.access tx) w fun r w' =>
      s.Stamped tx.writePointer (owedOf r.2.schema.name r.2.persisted ++ others) w'.store ∧
        Accounts w r.1 w' ∧ Wrote p r.2 ∧ (r.1 = .ok () → r.2.persisted.reverse = p.writes.keys) := by
  refine .bind ((ends_writeCells hmem others p.writes.toList p.persisted w ?_).mono ?_)
  · simpa [hpersisted, owedOf] using h
  · rintro r w' ⟨hstamped, haccounts, written, hr, hprefix, hall⟩
    rw [Std.ExtTreeMap.map_fst_toList_eq_keys] at hprefix hall
    have hwritten : r.2.reverse = written := by simp [hr, hpersisted]
    exact .pure ⟨hstamped, haccounts, ⟨rfl, hwritten ▸ hprefix⟩, fun hok => hwritten.trans (hall hok)⟩

/-- Whatever fails, the store is stamped with the rows that are owed after writing, which are those of all
changes if nothing failed. -/
theorem ends_persistAll (hmem : ∀ p ∈ ps, p.schema.name ∈ s.tables) (hpersisted : ∀ p ∈ ps, p.persisted = [])
    (h : s.Stamped tx.writePointer others w.store) :
    Ends (persistAll Faulty.access tx ps) w fun r w' =>
      s.Stamped tx.writePointer (owed r.2 ++ others) w'.store ∧ Accounts w r.1 w' ∧
        List.Forall₂ Wrote ps r.2 ∧
        (r.1 = .ok () → ∀ row, row ∈ owed r.2 ↔ ∃ p ∈ ps, p.schema.name = row.table ∧ row.key ∈ p.writes) := by
  induction ps generalizing w others with
  | nil => exact .pure ⟨h, .nothing w, .nil, by simp [owed]⟩
  | cons p ps ih =>
    obtain ⟨hp, hps⟩ := List.forall_mem_cons.1 hpersisted
    refine .bind ((ends_persist (hmem p List.mem_cons_self) hp h).mono ?_)
    rintro ⟨result, p'⟩ w' ⟨hstamped, haccounts, hwrote, hkeys⟩
    cases result with
    | error e =>
      -- the others are not reached, and have not written anything
      have hnone : owed ps = [] := List.flatMap_eq_nil_iff.2 fun q hq => by rw [hps q hq]; rfl
      obtain ⟨more, hafter, hfailed⟩ := haccounts
      exact .pure ⟨by simpa [owed_cons, hnone] using hstamped, ⟨more, hafter, by simpa using hfailed⟩,
        .cons hwrote (List.forall₂_same.2 fun q hq => .refl (hps q hq)), by simp⟩
    | ok _ =>
      refine .bind ((ih (fun q hq => hmem q (List.mem_cons_of_mem _ hq)) hps hstamped).mono ?_)
      rintro r w'' ⟨hstamped, haccounts', hall, hrows⟩
      refine .pure ⟨hstamped.congr fun row => ?_, haccounts.trans haccounts', .cons hwrote hall, fun hok row => ?_⟩
      · simp only [owed_cons, List.mem_append]
        exact or_left_comm.trans or_assoc.symm
      · have hschema : p'.schema = p.schema := hwrote.schema
        have hmemKeys : row.key ∈ p'.persisted ↔ row.key ∈ p.writes := by
          rw [← List.mem_reverse, hkeys rfl, Std.ExtTreeMap.mem_keys]
        rw [owed_cons, List.mem_append, mem_owedOf, hrows hok, hschema, hmemKeys]
        simp only [List.mem_cons, exists_eq_or_imp]

/-! ### Removing what was written -/

/-- The call that removes the cell of a row. -/
def undoing (version : Nat) (row : Change) : VersionedCall := .undo row.table row.key version

/-- Whether of each participant that has written cells the last one was asked to be removed. -/
def Tried (version : Nat) (ps : List Participant) (asked : List Asked) : Prop :=
  ∀ p ∈ ps, ∀ key ∈ p.persisted.head?, ∃ a ∈ asked, a.call = undoing version ⟨p.schema.name, key⟩

/-- What is to be said of removing the cells of some rows, where `more` are the calls and `left` the rows
whose cells are still there afterwards.  The cells of other rows stay. -/
structure Undid (s : VersionedStore) (version : Nat) (others rows : List Change) (w : Faulty)
    (more : List Asked) (result : Except StoreError Unit) (left : List Change) (w' : Faulty) : Prop where
  stamped : s.Stamped version (left ++ others) w'.store
  after : After w more w'
  answer : result = Asked.result more
  sublist : left.Sublist rows
  undos : ∀ a ∈ more, ∃ row ∈ rows, a.call = undoing version row
  cleared : result = .ok () → left = []

namespace Undid

variable {rows rows' left left' : List Change} {more more' : List Asked} {row : Change}
  {result result' : Except StoreError Unit} {w' w'' : Faulty}

theorem nothing (h : s.Stamped version others w.store) : Undid s version others [] w [] (.ok ()) [] w where
  stamped := h
  after := .refl w
  answer := rfl
  sublist := .refl _
  undos := by simp
  cleared _ := rfl

/-- A call that fails leaves everything as it is. -/
theorem failed {e : StoreError} (h : s.Stamped version (row :: rows ++ others) w.store)
    (hstore : w'.store = w.store) (hafter : After w [⟨undoing version row, some e⟩] w') :
    Undid s version others (row :: rows) w [⟨undoing version row, some e⟩] (.error e) (row :: rows) w' where
  stamped := hstore ▸ h
  after := hafter
  answer := rfl
  sublist := .refl _
  undos := by simp
  cleared := nofun

/-- A call that works removes the cell. -/
theorem done (h : s.Stamped version others w'.store) (hafter : After w [⟨undoing version row, none⟩] w') :
    Undid s version others [row] w [⟨undoing version row, none⟩] (.ok ()) [] w' where
  stamped := h
  after := hafter
  answer := rfl
  sublist := List.nil_sublist _
  undos := by simp
  cleared _ := rfl

theorem answer_append (more more' : List Asked) :
    firstFailure (Asked.result more) (Asked.result more') = Asked.result (more ++ more') := by
  rw [Asked.result, Asked.result, Asked.result, List.findSome?_append]
  cases more.findSome? (·.failure) with
  | some e => rfl
  | none => cases more'.findSome? (·.failure) <;> rfl

/-- Removing some cells and then others. -/
theorem append (h : Undid s version (rows' ++ others) rows w more result left w')
    (h' : Undid s version (left ++ others) rows' w' more' result' left' w'') :
    Undid s version others (rows ++ rows') w (more ++ more') (firstFailure result result') (left ++ left')
      w'' where
  stamped := h'.stamped.congr fun row => by
    simp only [List.mem_append]
    exact or_left_comm.trans or_assoc.symm
  after := h.after.trans h'.after
  answer := by rw [h.answer, h'.answer, answer_append]
  sublist := h.sublist.append h'.sublist
  undos a ha := by
    rcases List.mem_append.1 ha with ha | ha
    · obtain ⟨row, hrow, hcall⟩ := h.undos a ha
      exact ⟨row, List.mem_append_left _ hrow, hcall⟩
    · obtain ⟨row, hrow, hcall⟩ := h'.undos a ha
      exact ⟨row, List.mem_append_right _ hrow, hcall⟩
  cleared hok := by
    cases result with
    | error e => cases hok
    | ok _ => rw [h.cleared rfl, h'.cleared hok, List.append_nil]

/-- What is needed to go on with the others. -/
theorem next (h : Undid s version (rows' ++ others) rows w more result left w')
    (hnodup : (rows ++ (rows' ++ others)).Nodup) :
    s.Stamped version (rows' ++ (left ++ others)) w'.store ∧ (rows' ++ (left ++ others)).Nodup := by
  have hperm : (left ++ (rows' ++ others)).Perm (rows' ++ (left ++ others)) := List.perm_append_comm_assoc ..
  refine ⟨h.stamped.congr fun row => hperm.mem_iff, hperm.nodup_iff.1 ?_⟩
  exact (h.sublist.append (.refl _)).nodup hnodup

end Undid

/-- Removing the cells of a table stops at the first failure, and the keys that are left come back. -/
theorem ends_undoCells (hmem : table ∈ s.tables) (keys : List RowKey) (w : Faulty)
    (h : s.Stamped version (owedOf table keys ++ others) w.store)
    (hnodup : (owedOf table keys ++ others).Nodup) :
    Ends (undoCells Faulty.access table version keys) w fun r w' =>
      ∃ more, Undid s version others (owedOf table keys) w more r.1 (owedOf table r.2) w' ∧
        ∀ key ∈ keys.head?, ∃ a ∈ more, a.call = undoing version ⟨table, key⟩ := by
  induction keys generalizing w with
  | nil => exact .pure ⟨[], .nothing h, by simp⟩
  | cons key rest ih =>
    -- no row is owed twice, so that the cell is owed no more once it is removed
    obtain ⟨hnot, hrest⟩ := List.nodup_cons.1 hnodup
    obtain ⟨store, hperform, hundone⟩ := h.undo hmem hnot
    refine .bind (.ask hperform (fun e w' hstore hafter => ?_) fun w' hstore hafter => ?_)
    · exact .pure ⟨_, .failed h hstore hafter, by simp [undoing]⟩
    · have hdone : Undid s version (owedOf table rest ++ others) [⟨table, key⟩] w _ (.ok ()) [] w' :=
        .done (hstore ▸ hundone) hafter
      refine (ih w' (hstore ▸ hundone) hrest).mono ?_
      rintro r w'' ⟨more, hundid, -⟩
      exact ⟨_, hdone.append hundid, by simp [undoing]⟩

/-- Removing the cells of a participant, which lists afterwards what is left. -/
theorem ends_rollback (hmem : p.schema.name ∈ s.tables)
    (h : s.Stamped tx.writePointer (owedOf p.schema.name p.persisted ++ others) w.store)
    (hnodup : (owedOf p.schema.name p.persisted ++ others).Nodup) :
    Ends (p.rollback Faulty.access tx) w fun r w' =>
      r.2.schema = p.schema ∧
      ∃ more, Undid s tx.writePointer others (owedOf p.schema.name p.persisted) w more r.1
          (owedOf r.2.schema.name r.2.persisted) w' ∧
        ∀ key ∈ p.persisted.head?, ∃ a ∈ more, a.call = undoing tx.writePointer ⟨p.schema.name, key⟩ := by
  refine .bind ((ends_undoCells hmem p.persisted w h hnodup).mono ?_)
  rintro r w' hr
  exact .pure ⟨rfl, hr⟩

/-- Whatever fails, all participants are tried, and the rows that are owed afterwards are those whose cells
are still there. -/
theorem ends_rollbackAll (hmem : ∀ p ∈ ps, p.schema.name ∈ s.tables)
    (h : s.Stamped tx.writePointer (owed ps ++ others) w.store) (hnodup : (owed ps ++ others).Nodup) :
    Ends (rollbackAll Faulty.access tx ps) w fun r w' =>
      r.2.map (·.schema) = ps.map (·.schema) ∧
      ∃ more, Undid s tx.writePointer others (owed ps) w more r.1 (owed r.2) w' ∧
        Tried tx.writePointer ps more := by
  induction ps generalizing w others with
  | nil => exact .pure ⟨rfl, [], .nothing h, by simp [Tried]⟩
  | cons p ps ih =>
    obtain ⟨hp, hps⟩ := List.forall_mem_cons.1 hmem
    rw [owed_cons, List.append_assoc] at h hnodup
    refine .bind ((ends_rollback hp h hnodup).mono ?_)
    rintro ⟨result, p'⟩ w' ⟨hschema, more, hundid, htried⟩
    obtain ⟨hstamped, hnodup'⟩ := hundid.next hnodup
    -- a failure is reported, and the others are gone through all the same
    have hrest : Ends (rollbackAll Faulty.access tx ps >>= fun rest =>
        pure (firstFailure result rest.1, p' :: rest.2)) w' fun r w'' =>
          r.2.map (·.schema) = (p :: ps).map (·.schema) ∧
          ∃ more, Undid s tx.writePointer others (owed (p :: ps)) w more r.1 (owed r.2) w'' ∧
            Tried tx.writePointer (p :: ps) more := by
      refine .bind ((ih hps hstamped hnodup').mono ?_)
      rintro r w'' ⟨hschemas, more', hundid', htried'⟩
      refine .pure ⟨congrArg₂ List.cons hschema hschemas, more ++ more', hundid.append hundid', ?_⟩
      intro q hq key hkey
      rcases List.mem_cons.1 hq with rfl | hq
      · obtain ⟨a, ha, hcall⟩ := htried key hkey
        exact ⟨a, List.mem_append_left _ ha, hcall⟩
      · obtain ⟨a, ha, hcall⟩ := htried' q hq key hkey
        exact ⟨a, List.mem_append_right _ ha, hcall⟩
    cases result with
    | error e => exact .bind (.journal hrest)
    | ok _ => exact hrest

end Participant

/-! ### Writing and then removing -/

/-- A store and the participants of a transaction, after a run over them. -/
structure Trial where
  store : VersionedStore
  participants : List Participant
  /-- What the run answered. -/
  result : Except StoreError Unit := .ok ()
  /-- The calls of the run. -/
  asked : List Asked := []

namespace Trial

open Participant (owed undoing Tried Wrote)

/-- A run over the participants in which some calls fail. -/
def run (t : Trial) (faults : List (Option StoreError))
    (act : List Participant → StateM Faulty (Except StoreError Unit × List Participant)) : Trial :=
  let ended := (act t.participants).run { store := t.store, faults }
  { store := ended.2.store, participants := ended.1.2, result := ended.1.1, asked := ended.2.asked }

/-- Writes the changes of all participants. -/
def persist (t : Trial) (tx : Transaction) (faults : List (Option StoreError)) : Trial :=
  t.run faults (Participant.persistAll Faulty.access tx)

/-- Removes the written cells of all participants. -/
def rollback (t : Trial) (tx : Transaction) (faults : List (Option StoreError)) : Trial :=
  t.run faults (Participant.rollbackAll Faulty.access tx)

/-- Whether all is well and the store the one before. -/
structure Restored (s : VersionedStore) (t : Trial) : Prop where
  result : t.result = .ok ()
  store : t.store = s
  tidy : t.store.Tidy
  owed : owed t.participants = []

/-- Whether the participants owe the cells that a store has more than the one before. -/
structure Owes (s : VersionedStore) (tx : Transaction) (t : Trial) : Prop where
  stamped : s.Stamped tx.writePointer (owed t.participants) t.store
  nodup : (owed t.participants).Nodup
  mem_tables : ∀ p ∈ t.participants, p.schema.name ∈ s.tables

variable {s : VersionedStore} {tx : Transaction} {t : Trial} {participants : Participants}

theorem exists_of_ends (faults : List (Option StoreError))
    {act : List Participant → StateM Faulty (Except StoreError Unit × List Participant)}
    {post : Except StoreError Unit × List Participant → Faulty → Prop}
    (h : Ends (act t.participants) ⟨t.store, faults, []⟩ post) :
    ∃ left, post ((t.run faults act).result, (t.run faults act).participants)
      ⟨(t.run faults act).store, left, (t.run faults act).asked⟩ := ⟨_, h⟩

theorem forall_mem_tables_iff {ps : List Participant} :
    (∀ p ∈ ps, p.schema.name ∈ s.tables) ↔ ∀ name ∈ ps.map (·.schema.name), name ∈ s.tables := by
  simp

/-- Whatever fails, what the participants owe after writing is what the store has more; that is all they hold
back if nothing failed. -/
theorem owes_persist (hs : s.Tidy) (hnew : ∀ row, s.cell? row tx.writePointer = none)
    (hfresh : Fresh participants) (hmem : ∀ table ∈ participants, table ∈ s.tables)
    {written : Trial} {faults : List (Option StoreError)}
    (hwritten : written = persist { store := s, participants := participants.values } tx faults) :
    written.Owes s tx ∧ (written.result = .ok () ↔ ∀ a ∈ written.asked, a.failure = none) ∧
      (written.result = .ok () → ∀ row, row ∈ owed written.participants ↔ (Cells.held participants row).isSome) := by
  have hnames : ∀ name ∈ participants.values.map (·.schema.name), name ∈ s.tables := by
    rw [hfresh.map_name]
    exact fun name hname => hmem name (Std.ExtTreeMap.mem_keys.1 hname)
  obtain ⟨_, hstamped, ⟨more, hafter, hok⟩, hwrote, hrows⟩ := exists_of_ends
    (t := ⟨s, participants.values, .ok (), []⟩) faults (Participant.ends_persistAll
      (forall_mem_tables_iff.2 hnames) (fun p hp => hfresh.persisted_eq hp) (.start hs hnew))
  obtain ⟨hsame, hkeys⟩ := Participant.wrote_all hwrote
  have hsame := hsame.trans hfresh.map_name
  have hmore : written.asked = more := hwritten ▸ hafter.asked
  rw [List.append_nil] at hstamped
  subst hwritten
  refine ⟨⟨hstamped, Participant.nodup_owed (hsame ▸ Std.ExtTreeMap.nodup_keys) hkeys,
    forall_mem_tables_iff.2 fun name hname => ?_⟩, hmore ▸ hok, fun hresult row => (hrows hresult row).trans ?_⟩
  · exact hmem name (Std.ExtTreeMap.mem_keys.1 (hsame ▸ hname))
  · constructor
    · rintro ⟨p, hp, hname, hkey⟩
      obtain ⟨table, key⟩ := row
      subst hname
      rw [hfresh.held_eq hp]
      exact Std.ExtTreeMap.mem_iff_isSome_getElem?.1 hkey
    · intro hheld
      obtain ⟨p, hp, hname, hkey⟩ := hfresh.exists_of_held hheld
      exact ⟨p, hp, hname, Std.ExtTreeMap.mem_iff_isSome_getElem?.2 hkey⟩

/-- Whatever fails, what the participants owe after removing is what the store has left. -/
theorem Owes.rollback (h : t.Owes s tx) (faults : List (Option StoreError)) :
    (t.rollback tx faults).Owes s tx ∧
    (t.rollback tx faults).result = Asked.result (t.rollback tx faults).asked ∧
    Tried tx.writePointer t.participants (t.rollback tx faults).asked ∧
    (∀ a ∈ (t.rollback tx faults).asked, ∃ row, a.call = undoing tx.writePointer row) ∧
    (Working faults → (t.rollback tx faults).result = .ok () ∧ owed (t.rollback tx faults).participants = []) := by
  have hstart : s.Stamped tx.writePointer (owed t.participants ++ []) t.store := by simpa using h.stamped
  obtain ⟨_, hschemas, more, hundid, htried⟩ := exists_of_ends faults
    (Participant.ends_rollbackAll h.mem_tables hstart (by simpa using h.nodup))
  have hmore : (t.rollback tx faults).asked = more := hundid.after.asked
  have hanswer : (t.rollback tx faults).result = Asked.result more := hundid.answer
  have hstamped := hundid.stamped
  have hnames : (t.rollback tx faults).participants.map (·.schema.name) = t.participants.map (·.schema.name) := by
    have hnames := congrArg (List.map TableSchema.name) hschemas
    rwa [List.map_map, List.map_map] at hnames
  rw [List.append_nil] at hstamped
  rw [hmore]
  refine ⟨⟨hstamped, hundid.sublist.nodup h.nodup, ?_⟩, hanswer, htried, fun a ha => ?_, fun hworking => ?_⟩
  · rw [forall_mem_tables_iff, hnames]
    exact forall_mem_tables_iff.1 h.mem_tables
  · obtain ⟨row, -, hcall⟩ := hundid.undos a ha
    exact ⟨row, hcall⟩
  · have hok := hanswer.trans (Asked.result_eq_ok_iff.2 (hundid.after.working hworking).2)
    exact ⟨hok, hundid.cleared hok⟩

/-- Participants that owe nothing have left the store as it was. -/
theorem Owes.restored (h : t.Owes s tx) (hs : s.Tidy) (hnew : ∀ row, s.cell? row tx.writePointer = none)
    (hresult : t.result = .ok ()) (howed : owed t.participants = []) : t.Restored s := by
  have hstamped := h.stamped
  rw [howed] at hstamped
  exact ⟨hresult, hstamped.eq hs hnew, hstamped.tidy, howed⟩

/-- **Rolling back leaves nothing behind.**  Writing the changes of a transaction ends well if no call fails,
and then there is a cell for each row that is held back.  Whatever fails, removing what was written leaves the
store as it was.  If calls fail while cells are removed, all participants are tried nevertheless, the first
failure is answered, nothing but cells of the transaction is touched, and the participants still list just
those cells of it that remain, so that removing them later leaves the store as it was. -/
theorem rollback_exact (hs : s.Reached) (hnew : ∀ row, s.cell? row tx.writePointer = none)
    (hfresh : Fresh participants) (hmem : ∀ table ∈ participants, table ∈ s.tables)
    (faults undoFaults : List (Option StoreError)) :
    let written := persist { store := s, participants := participants.values } tx faults
    let undone := written.rollback tx undoFaults
    (written.result = .ok () ↔ ∀ a ∈ written.asked, a.failure = none) ∧
    (written.result = .ok () → ∀ row,
      (written.store.cell? row tx.writePointer).isSome ↔ (Cells.held participants row).isSome) ∧
    (Working undoFaults → undone.Restored s) ∧
    Tried tx.writePointer written.participants undone.asked ∧
    undone.result = Asked.result undone.asked ∧
    (∀ a ∈ undone.asked, ∃ row, a.call = undoing tx.writePointer row) ∧
    (∀ row version, version ≠ tx.writePointer → undone.store.cell? row version = s.cell? row version) ∧
    (∀ row, (undone.store.cell? row tx.writePointer).isSome ↔
      ∃ p ∈ undone.participants, p.schema.name = row.table ∧ row.key ∈ p.persisted) ∧
    ∀ laterFaults, Working laterFaults → (undone.rollback tx laterFaults).Restored s := by
  intro written undone
  obtain ⟨howed, hok, hheld⟩ := owes_persist hs.tidy hnew hfresh hmem (rfl : written = _)
  obtain ⟨howes, hanswer, htried, hundos, hworking⟩ := howed.rollback undoFaults
  refine ⟨hok, fun hresult row => (howed.stamped.cells row).trans (hheld hresult row),
    fun h => howes.restored hs.tidy hnew (hworking h).1 (hworking h).2, htried, hanswer, hundos,
    howes.stamped.others, fun row => (howes.stamped.cells row).trans Participant.mem_owed, fun later hlater => ?_⟩
  obtain ⟨howes', -, -, -, hworking'⟩ := howes.rollback later
  exact howes'.restored hs.tidy hnew (hworking' hlater).1 (hworking' hlater).2

/-! ### A transaction that is interrupted twice -/

/-- A store with one cell, of version 1. -/
def annotated : VersionedStore where
  tables := Std.ExtTreeMap.insert ∅ "notes" <|
    Std.ExtTreeMap.insert ∅ (noteKey 7) (Std.ExtTreeMap.insert ∅ 1 none)

theorem reached_annotated : annotated.Reached := by
  have hcreate : ({ } : VersionedStore).perform (.createTable "notes") =
      .ok ((), { tables := Std.ExtTreeMap.insert ∅ "notes" ∅ }) := rfl
  have hwrite : ({ tables := Std.ExtTreeMap.insert ∅ "notes" ∅ } : VersionedStore).perform
      (.write "notes" (noteKey 7) 1 none) = .ok ((), annotated) := rfl
  exact (VersionedStore.Reached.empty.step hcreate).step hwrite

def rewriting : Transaction := ⟨2, some 1, ∅⟩

/-- The changes of a transaction to that cell and to a new one. -/
def rewrites : Changes :=
  (∅ : Changes).insert (noteKey 7) (some (note 7)) |>.insert (noteKey 8) none

def lost : StoreError := .connection "lost"

/-- The second cell cannot be written and the first one cannot be removed, until it is tried again. -/
theorem rollback_exact_interrupted :
    let participants : Participants := Std.ExtTreeMap.insert ∅ "notes" { schema := notes, writes := rewrites }
    let undone := (persist { store := annotated, participants := participants.values } rewriting
      [none, some lost]).rollback rewriting [some lost]
    undone.result = .error lost ∧ (undone.rollback rewriting []).Restored annotated := by
  intro participants undone
  have hnew : ∀ row, annotated.cell? row rewriting.writePointer = none := by
    intro row
    rw [VersionedStore.cell?, VersionedStore.versions, annotated, VersionedTable.versions,
      Std.ExtTreeMap.getD_insert]
    split
    · rw [Std.ExtTreeMap.getD_insert]
      split <;> simp [rewriting]
    · simp
  have hfresh : Fresh participants := Fresh.empty.insert rfl rfl
  have hmem : ∀ table ∈ participants, table ∈ annotated.tables := by
    intro table htable
    simpa [participants, annotated] using htable
  obtain ⟨-, -, -, -, -, -, -, -, hlater⟩ := rollback_exact reached_annotated hnew hfresh hmem
    [none, some lost] [some lost]
  exact ⟨rfl, hlater [] (by simp [Working])⟩

end Trial

end Tabular
