import Tabular.Proofs.Catalog.Registries
import Tabular.Proofs.Provider.Executions

/-!
# Tabular.Proofs.Provider.Stages — how far a change of the tables has come

Creating and dropping a table changes its storage and its entry in the catalog one after the other, and either
may fail.  A `Stage` says how far that has come.  `Safely kind post p w` says that all rows fit wherever `p`
may get that runs alone from `w` on, and that `post` holds in the end.  Main statements: `Orderly.relisted`,
the entry of a table may change that has no rows; and `Behaves.safely`, what makes nothing but moves is safe.
-/

namespace Tabular.Provider

open Definition (Backends BackendCall Outage)
open Sharing (Throughout)

variable {kind : StorageKind} {listed : Schemas} {b b' : Backends} {w : Place} {table : String} {β : Type}

/-! ### Rows and entries -/

/-- Whether a backend has no rows that another does not have.  The table of a catalog does not count. -/
def Fewer (kind : StorageKind) (b b' : Backends) : Prop :=
  ∀ table key row, ¬ Reserved kind table → Stored kind b' table key row → Stored kind b table key row

/-- Whether a table has no rows. -/
def Bare (kind : StorageKind) (b : Backends) (table : String) : Prop :=
  ∀ key row, ¬ Stored kind b table key row

theorem Bare.fewer (h : Bare kind b table) (hname : ¬ Reserved kind table) (hfewer : Fewer kind b b') :
    Bare kind b' table := fun key row hrow => h key row (hfewer table key row hname hrow)

/-- A table that is not listed has no rows. -/
theorem Orderly.bare (h : Orderly kind listed b) (hname : ¬ Reserved kind table) (hlisted : listed table = none) :
    Bare kind b table := by
  intro key row hrow
  obtain ⟨schema, hlists, -⟩ := h.fitted table key row hname hrow
  exact hlists.ne_none hlisted

/-- Fewer rows fit as well. -/
theorem Orderly.fewer (h : Orderly kind listed b)
    (hentries : (b'.standing kind).entries = (b.standing kind).entries) (hfewer : Fewer kind b b') :
    Orderly kind listed b' where
  entries table := by rw [hentries, h.entries]
  fitted table key row hname hrow := h.fitted table key row hname (hfewer table key row hname hrow)
  reserved := h.reserved

/-- The entry of a table may change that has no rows. -/
theorem Orderly.relisted (h : Orderly kind listed b) {entry : Option (Definition.Entry kind)}
    {schema : Option { schema : TableSchema // schema.name = table }}
    (hentries : (b'.standing kind).entries = Function.update (b.standing kind).entries table entry)
    (hsaid : entry.map (entrySchema kind table) = schema.map fun schema => .ok schema.1)
    (hfewer : Fewer kind b b') (hname : ¬ Reserved kind table) (hbare : Bare kind b table) :
    Orderly kind (Function.update listed table schema) b' where
  entries other := by
    rw [hentries, saidOf]
    by_cases hother : other = table
    · subst hother
      rw [Function.update_self, Function.update_self, hsaid]
    · rw [Function.update_of_ne hother, Function.update_of_ne hother]
      exact h.entries other
  fitted other key row hfree hrow := by
    -- The table itself has no rows, so nothing has to fit its new schema.
    have hother : other ≠ table := by
      rintro rfl
      exact hbare.fewer hname hfewer key row hrow
    obtain ⟨schema, ⟨heq, hlisted⟩, hfits⟩ := h.fitted other key row hfree (hfewer other key row hfree hrow)
    exact ⟨schema, ⟨heq, (Function.update_of_ne hother _ _).trans hlisted⟩, hfits⟩
  reserved other hother := by
    have hne : other ≠ table := by
      rintro rfl
      exact hname hother
    rw [Function.update_of_ne hne, h.reserved other hother]

/-! ### Stages -/

/-- Whether all rows fit that are stored. -/
def Fine (kind : StorageKind) (w : Place) : Prop := ∃ listed, Orderly kind listed w.outside

/-- Whether all is well and no transaction is open. -/
structure Settled (kind : StorageKind) (listed : Schemas) (w : Place) : Prop where
  orderly : Orderly kind listed w.outside
  coherent : Coherent listed w.content
  quiet : ∀ session, ¬ Open w.outside session

/-- How far a change of the tables has come: which tables are listed, which are known to have no rows, what
connections keep aside, and what is cached. -/
structure Stage (kind : StorageKind) (listed : Schemas) (bare : String → Prop) (staged : Nat → Option Staged)
    (cache : LookupCache) (w : Place) : Prop where
  orderly : Orderly kind listed w.outside
  bare : ∀ table, bare table → ¬ Reserved kind table ∧ Bare kind w.outside table
  staged : ∀ session, w.outside.database.staged? session = staged session
  content : w.content = cache

/-- Whether a program that runs alone keeps all rows fitting, and ends well. -/
abbrev Safely (kind : StorageKind) (post : Place → β → Prop) (p : Program β) (w : Place) : Prop :=
  Throughout Answers (Fine kind) post p w

variable {bare : String → Prop} {staged staged' : Nat → Option Staged} {cache : LookupCache}

/-- What nobody keeps aside. -/
abbrev nothing : Nat → Option Staged := fun _ => none

/-- What one connection keeps aside. -/
abbrev only (session : Nat) (changes : Option Staged) : Nat → Option Staged :=
  Function.update nothing session changes

theorem Settled.fine (h : Settled kind listed w) : Fine kind w := ⟨listed, h.orderly⟩

theorem Settled.staged?_eq (h : Settled kind listed w) (session : Nat) :
    w.outside.database.staged? session = none := Option.not_isSome_iff_eq_none.1 (h.quiet session)

theorem Settled.tidy (h : Settled kind listed w) : Tidy kind listed w :=
  ⟨h.orderly, fun session => Database.stagedFor_of_none (h.staged?_eq session), h.coherent⟩

/-- Before a change of the tables. -/
theorem Settled.stage (h : Settled kind listed w) :
    Stage kind listed (fun _ => False) nothing w.content w :=
  ⟨h.orderly, fun _ hfalse => hfalse.elim, h.staged?_eq, rfl⟩

namespace Stage

variable (h : Stage kind listed bare staged cache w)
include h

theorem fine : Fine kind w := ⟨listed, h.orderly⟩

theorem failing (fail : Bool) :
    Stage kind listed bare staged cache { w with outside := Provider.failing w.outside fail } := by
  refine ⟨h.orderly.failing fail, fun table htable => ?_, h.staged, h.content⟩
  obtain ⟨hname, hbare⟩ := h.bare table htable
  exact ⟨hname, by cases kind <;> exact hbare⟩

/-- The stage after a call that leaves the catalog alone and adds no rows. -/
theorem next (hentries : (b'.standing kind).entries = (w.outside.standing kind).entries)
    (hfewer : Fewer kind w.outside b') (hstaged : ∀ session, b'.database.staged? session = staged' session) :
    Stage kind listed bare staged' cache { w with outside := b' } where
  orderly := h.orderly.fewer hentries hfewer
  bare table htable := ⟨(h.bare table htable).1, (h.bare table htable).2.fewer (h.bare table htable).1 hfewer⟩
  staged := hstaged
  content := h.content

/-- The stage after a change of one entry. -/
theorem relisted (entry : Option (Definition.Entry kind))
    (schema : Option { schema : TableSchema // schema.name = table })
    (hentries : (b'.standing kind).entries = Function.update (w.outside.standing kind).entries table entry)
    (hsaid : entry.map (entrySchema kind table) = schema.map fun schema => .ok schema.1)
    (hfewer : Fewer kind w.outside b') (htable : bare table)
    (hstaged : ∀ session, b'.database.staged? session = staged' session) :
    Stage kind (Function.update listed table schema) bare staged' cache { w with outside := b' } where
  orderly := h.orderly.relisted hentries hsaid hfewer (h.bare table htable).1 (h.bare table htable).2
  bare other hother := ⟨(h.bare other hother).1, (h.bare other hother).2.fewer (h.bare other hother).1 hfewer⟩
  staged := hstaged
  content := h.content

/-- A stage at which another table is known to have no rows. -/
theorem rebare (hname : ¬ Reserved kind table) (hbare : Bare kind w.outside table) :
    Stage kind listed (· = table) staged cache w := by
  refine ⟨h.orderly, ?_, h.staged, h.content⟩
  rintro _ rfl
  exact ⟨hname, hbare⟩

end Stage

theorem Stage.quiet (h : Stage kind listed bare nothing cache w) (session : Nat) : ¬ Open w.outside session := by
  rw [Open, h.staged]
  exact Bool.false_ne_true

/-- After a change of the tables. -/
theorem Stage.settled (h : Stage kind listed bare nothing cache w) (hcache : Coherent listed cache) :
    Settled kind listed w := ⟨h.orderly, h.content ▸ hcache, h.quiet⟩

namespace Safely

/-- The rule for a call to a backend. -/
theorem call {c : BackendCall} {post : Place → c.Reply → Prop} (hw : Stage kind listed bare staged cache w)
    (hfine : ∀ w reply, post w reply → Fine kind w)
    (h : ∀ w reply b, Stage kind listed bare staged cache w → w.outside.Answers c reply b →
      post { w with outside := b } reply) :
    Safely kind post (Sharing.call (Call.backend c)) w := by
  refine Throughout.call hw.fine ?_
  rintro reply b ⟨fail, hanswer⟩
  have hpost : post { w with outside := b } reply :=
    h { w with outside := Provider.failing w.outside fail } reply b (hw.failing fail) hanswer
  exact ⟨hfine _ reply hpost, hpost⟩

/-- The rule for a call to a versioned store. -/
theorem store {c : VersionedCall} {post : Place → Except StoreError c.Answer → Prop}
    (hw : Stage kind listed bare staged cache w) (hfine : ∀ w r, post w r → Fine kind w)
    (hok : ∀ w a s, Stage kind listed bare staged cache w → w.outside.store.perform c = .ok (a, s) →
      post { w with outside := { w.outside with store := s } } (.ok a))
    (herror : ∀ w e, Stage kind listed bare staged cache w → post w (.error e)) :
    Safely kind post (Provider.store c).run w := by
  refine call hw hfine fun w reply b hw hanswer => ?_
  rcases hanswer with ⟨e, -, rfl, rfl⟩ | hperform
  · exact herror w e hw
  · split at hperform
    · rename_i hperform'
      obtain ⟨rfl, rfl⟩ := hperform
      exact hok w _ _ hw hperform'
    · obtain ⟨rfl, rfl⟩ := hperform
      exact herror w _ hw

/-- The rule for a call to a database. -/
theorem perform {c : RelationalCall} {post : Place → Except StoreError c.Answer → Prop}
    (hw : Stage kind listed bare staged cache w) (hfine : ∀ w r, post w r → Fine kind w)
    (h : ∀ w, Stage kind listed bare staged cache w →
      post { w with outside := { w.outside with database := (w.outside.database.perform c).2 } }
        (w.outside.database.perform c).1)
    (herror : ∀ w e, Stage kind listed bare staged cache w → post w (.error e)) :
    Safely kind post (database.perform c).run w := by
  refine call hw hfine fun w reply b hw hanswer => ?_
  rcases hanswer with ⟨e, -, rfl, rfl⟩ | ⟨rfl, rfl⟩
  · exact herror w e hw
  · exact h w hw

end Safely

/-- Whether a change of the entry of a table that ended so has made one listing of another. -/
structure Relists (listed : Schemas) (table : String)
    (entry : Option { schema : TableSchema // schema.name = table }) (r : Except StoreError Unit)
    (listed' : Schemas) : Prop where
  of_ok : r = .ok () → listed' table = entry
  others : ∀ other, other ≠ table → listed' other = listed other

theorem Relists.failed {entry : Option { schema : TableSchema // schema.name = table }} (e : StoreError) :
    Relists listed table entry (.error e) listed := ⟨nofun, fun _ _ => rfl⟩

theorem Relists.made {entry : Option { schema : TableSchema // schema.name = table }}
    (r : Except StoreError Unit) : Relists listed table entry r (Function.update listed table entry) :=
  ⟨fun _ => Function.update_self .., fun _ hother => Function.update_of_ne hother ..⟩

/-- What is nothing but moves is safe, and nothing has changed in the end. -/
theorem Behaves.safely {post : β → Prop} {p : Program β} (h : Behaves kind listed none post p)
    (hw : Settled kind listed w) : Safely kind (fun w b => Settled kind listed w ∧ post b) p w := by
  -- A connection with an open transaction is the one that is held, which is none in the end.
  have hthroughout : Safely kind
      (fun w b => ∃ held : Option Nat, (Tidy kind listed w ∧ ∀ session, Open w.outside session →
        held = some session) ∧ held = none ∧ post b) p w := by
    refine Interaction.Follows.throughout h ⟨hw.tidy, fun session hopen => absurd hopen (hw.quiet session)⟩
      (fun _ w hagrees => ⟨listed, hagrees.1.orderly⟩) (fun _ w step w' hagrees => hagrees.1.told) ?_
    rintro held w step held' w' ⟨htidy, hopen⟩ hmove hmeets
    obtain ⟨htidy', haccounted⟩ := htidy.moved hmove hmeets
    refine ⟨htidy', fun session hopen' => ?_⟩
    rcases haccounted session hopen' with hheld | ⟨hwas, hnot⟩
    · exact hheld
    · exact absurd (hopen session hwas) hnot
  refine hthroughout.mono ?_
  rintro w b ⟨_, ⟨htidy, hopen⟩, rfl, hb⟩
  exact ⟨⟨htidy.orderly, htidy.coherent, fun session hopen' => nomatch hopen session hopen'⟩, hb⟩

end Tabular.Provider
