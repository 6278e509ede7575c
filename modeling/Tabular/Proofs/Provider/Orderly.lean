import Tabular.Proofs.Connection.Seats
import Tabular.Proofs.Definition.Keyed
import Tabular.Proofs.Definition.Tabled
import Tabular.Proofs.Provider.Rows
import Tabular.Proofs.Provider.System
import Tabular.Proofs.Schema.Fits

/-!
# Tabular.Proofs.Provider.Orderly — rows that fit, and what is told of them

`Orderly kind listed b` says that the tables `listed` are the registered ones and that every row the backend
has fits.  While tables are neither created nor dropped, those who work with an engine take no steps but
`Move`s.  Main statements: `Tidy.told`, what the engine is answered is true of the listing then; and
`Tidy.moved`, every move keeps all rows fitting.
-/

namespace Tabular.Provider

open Definition (Backends BackendCall)

/-- What an entry of the catalog says of a table. -/
def entrySchema : (kind : StorageKind) → String → Definition.Entry kind → Except StoreError TableSchema
  | .versioned, _, document => TableSchema.ofDocumentChecked document
  | .relational, table, row => Catalog.schemaOfRow table row

/-- Whether a table is registered with a schema. -/
def Registered (kind : StorageKind) (b : Backends) (table : String) (schema : TableSchema) : Prop :=
  ∃ entry, (b.standing kind).entries table = some entry ∧ entrySchema kind table entry = .ok schema

/-- Whether a row is stored under a key of a table: at any version, or committed, or kept aside by a connection. -/
def Stored : StorageKind → Backends → String → RowKey → Row → Prop
  | .versioned, b => b.store.Holds
  | .relational, b => b.database.Holds

/-- Whether a name is that of the table in which a catalog is kept. -/
def Reserved : StorageKind → String → Prop
  | .versioned, _ => False
  | .relational, table => table = Catalog.catalogTable

/-- What an entry of a table says, if it is listed. -/
def saidOf (listed : Schemas) (table : String) : Option (Except StoreError TableSchema) :=
  (listed table).map fun schema => .ok schema.1

/-- Whether a table is listed with a schema. -/
def Lists (listed : Schemas) (table : String) (schema : TableSchema) : Prop :=
  ∃ h : schema.name = table, listed table = some ⟨schema, h⟩

/-- Whether a row fits the schema of a table that is listed, and its key. -/
def Fitted (listed : Schemas) (table : String) (key : RowKey) (row : Row) : Prop :=
  ∃ schema, Lists listed table schema ∧ schema.Fits key row

/-- Whether the listed tables are those that are registered, and all rows fit. -/
structure Orderly (kind : StorageKind) (listed : Schemas) (b : Backends) : Prop where
  entries : ∀ table, ((b.standing kind).entries table).map (entrySchema kind table) = saidOf listed table
  fitted : ∀ table key row, ¬ Reserved kind table → Stored kind b table key row → Fitted listed table key row
  reserved : ∀ table, Reserved kind table → listed table = none

/-- Whether what a lookup of a table comes to is true. -/
structure Found (listed : Schemas) (table : String) (r : Except StoreError TableSchema) : Prop where
  of_ok : ∀ schema, r = .ok schema → Lists listed table schema
  of_missing : ∀ name, r = .error (.tableNotFound name) → listed table = none

/-- Whether a cache says nothing but what is true. -/
def Coherent (listed : Schemas) (cache : LookupCache) : Prop :=
  ∀ table known, cache.known? table = some known → Found listed table (known.answer table)

/-- Whether nobody keeps a change of the catalog aside. -/
def Calm (b : Backends) : Prop := ∀ session, b.database.stagedFor session Catalog.catalogTable = ∅

/-- Whether all is well while tables are neither created nor dropped. -/
structure Tidy (kind : StorageKind) (listed : Schemas) (w : Place) : Prop where
  orderly : Orderly kind listed w.outside
  calm : Calm w.outside
  coherent : Coherent listed w.content

variable {kind : StorageKind} {listed : Schemas} {b b' : Backends} {table : String} {cache : LookupCache}
  {schema schema' : TableSchema}

theorem Lists.eq (h : Lists listed table schema) (h' : Lists listed table schema') : schema = schema' := by
  obtain ⟨_, h⟩ := h
  obtain ⟨_, h'⟩ := h'
  cases h.symm.trans h'
  rfl

theorem Lists.ne_none (h : Lists listed table schema) : listed table ≠ none := by
  obtain ⟨_, h⟩ := h
  rw [h]
  exact Option.some_ne_none _

theorem Fitted.fits {key : RowKey} {row : Row} (h : Fitted listed table key row)
    (hlists : Lists listed table schema) : schema.Fits key row := by
  obtain ⟨schema', hlists', hfits⟩ := h
  exact hlists'.eq hlists ▸ hfits

/-- The listed tables are those that are registered. -/
theorem Orderly.registered_iff (h : Orderly kind listed b) :
    Registered kind b table schema ↔ Lists listed table schema := by
  have hentries := h.entries table
  constructor
  · rintro ⟨entry, hentry, hsaid⟩
    rw [hentry, Option.map_some, hsaid] at hentries
    obtain ⟨⟨schema', rfl⟩, hlisted, heq⟩ := Option.map_eq_some_iff.1 hentries.symm
    cases heq
    exact ⟨rfl, hlisted⟩
  · rintro ⟨rfl, hlisted⟩
    rw [saidOf, hlisted] at hentries
    exact Option.map_eq_some_iff.1 hentries

/-! ### Lookups -/

theorem Found.failed {e : StoreError} (he : ∀ name, e ≠ .tableNotFound name) : Found listed table (.error e) where
  of_ok _ h := by cases h
  of_missing name h := absurd (Except.error.inj h) (he name)

theorem Found.missing {name : String} (h : listed table = none) :
    Found listed table (.error (.tableNotFound name)) where
  of_ok _ h := by cases h
  of_missing _ _ := h

/-- What an entry says is found. -/
theorem found_of_said {r : Except StoreError TableSchema} (h : some r = saidOf listed table) :
    Found listed table r := by
  obtain ⟨schema, hschema, rfl⟩ := Option.map_eq_some_iff.1 h.symm
  refine ⟨?_, fun name hr => ?_⟩
  · rintro _ ⟨⟩
    exact ⟨schema.2, hschema⟩
  · cases hr

theorem listed_of_said (h : none = saidOf listed table) : listed table = none :=
  Option.map_eq_none_iff.1 h.symm

namespace Coherent

theorem empty : Coherent listed ∅ := by
  intro table known hknown
  simp [LookupCache.known?] at hknown

theorem withSlot (h : Coherent listed cache) : Coherent listed (cache.withSlot table) := by
  intro other known hknown
  rw [LookupCache.known?_withSlot] at hknown
  exact h other known hknown

theorem learn {known : Lookup} (h : Coherent listed cache) (hfound : Found listed table (known.answer table)) :
    Coherent listed (cache.learn table known) := by
  intro other known' hknown
  rw [LookupCache.known?_learn] at hknown
  split at hknown
  · rename_i heq
    subst heq
    cases hknown
    exact hfound
  · exact h other known' hknown

theorem forget (h : Coherent listed cache) : Coherent listed (cache.forget table) := by
  intro other known hknown
  rw [LookupCache.known?_eq, LookupCache.getElem?_forget] at hknown
  split at hknown
  · cases hknown
  · exact h other known hknown

/-- What a lookup leaves behind that came to something true. -/
theorem settle {r : Except StoreError TableSchema} (h : Coherent listed cache) (hfound : Found listed table r) :
    Coherent listed (cache.settle table r) := by
  have hrelease : Coherent listed (cache.release table) := by
    unfold LookupCache.release
    split
    · exact h.forget
    · exact h
  cases r with
  | ok schema => exact h.learn hfound
  | error e =>
    cases e with
    | tableNotFound name => exact h.learn (.missing (hfound.of_missing name rfl))
    | _ => exact hrelease

end Coherent

/-! ### What is answered -/

/-- What a versioned store tells of the listing. -/
def StoreTold (listed : Schemas) : (c : VersionedCall) → c.Answer → Prop
  | .read table key _, a => ∀ row, a = some row → Fitted listed table key row
  | .scan table _, a =>
    ∃ rows : Rows, a = rows.toList ∧ ∀ key row, rows[key]? = some row → Fitted listed table key row
  | .metadataGet key, a =>
    ∀ table, key = Catalog.entryKey table → a.map TableSchema.ofDocumentChecked = saidOf listed table
  | _, _ => True

/-- What a database tells of the listing. -/
def DatabaseTold (listed : Schemas) : (c : RelationalCall) → c.Answer → Prop
  | .read _ schema key, a =>
    if schema.name = Catalog.catalogTable then
      ∀ table, key = Catalog.rowKey table → a.map (Catalog.schemaOfRow table) = saidOf listed table
    else ∀ row, a = some row → Fitted listed schema.name key row
  | .scan _ schema, a =>
    schema.name ≠ Catalog.catalogTable → ∃ rows : Rows, a = rows.values ∧
      ∀ key row, rows[key]? = some row → Fitted listed schema.name key row
  | _, _ => True

/-- Which table a database may say it does not have. -/
def DatabaseFailed : RelationalCall → StoreError → Prop
  | .connect, e => ∀ name, e ≠ .tableNotFound name
  | .read _ schema _, e => ∀ name, e = .tableNotFound name → name = schema.name
  | _, _ => True

/-- Whether what the engine is answered is true of the listing. -/
def Told (kind : StorageKind) (listed : Schemas) : Step → Prop
  | .asked (.update _) before => Coherent listed before
  | .asked (.call (.backend (.store c))) (.ok a) => kind = .versioned → StoreTold listed c a
  | .asked (.call (.backend (.store c))) (.error e) =>
    (∃ key, c = .metadataGet key) → ∀ name, e ≠ .tableNotFound name
  | .asked (.call (.backend (.perform c))) (.ok a) => kind = .relational → DatabaseTold listed c a
  | .asked (.call (.backend (.perform c))) (.error e) => DatabaseFailed c e
  | _ => True

theorem Orderly.failing (h : Orderly kind listed b) (fail : Bool) : Orderly kind listed (failing b fail) := by
  cases kind <;> exact ⟨h.entries, h.fitted, h.reserved⟩

section Told

variable {w w' : Place} {step : Step}

theorem Orderly.storeTold (h : Orderly .versioned listed b) {c : VersionedCall} {a : c.Answer}
    {s : VersionedStore} (hperform : b.store.perform c = .ok (a, s)) : StoreTold listed c a := by
  cases c with
  | read table key tx =>
    exact fun row hrow => h.fitted table key row id (VersionedStore.holds_of_read hperform row hrow)
  | scan table tx =>
    obtain ⟨rows, heq, hholds⟩ := VersionedStore.holds_of_scan hperform
    exact ⟨rows, heq, fun key row hrow => h.fitted table key row id (hholds key row hrow)⟩
  | metadataGet key =>
    cases hperform
    rintro table rfl
    exact h.entries table
  | _ => trivial

theorem Orderly.databaseTold (h : Orderly .relational listed b) (hcalm : Calm b) {c : RelationalCall}
    {a : c.Answer} (hperform : (b.database.perform c).1 = .ok a) : DatabaseTold listed c a := by
  cases c with
  | read session schema key =>
    have hperform : (·[key]?) <$> b.database.seen session schema.name = .ok a := hperform
    cases hseen : b.database.seen session schema.name with
    | error e =>
      rw [hseen] at hperform
      cases hperform
    | ok seen =>
      rw [hseen] at hperform
      cases hperform
      show ite _ _ _
      split
      -- Nobody keeps a change of the catalog aside, so that what is seen of it is what is committed.
      · rename_i hname
        rintro table rfl
        rw [← h.entries table]
        cases hrows : b.database.tables[Catalog.catalogTable]? with
        | none =>
          rw [hname, Database.seen_of_not_mem (by simpa using hrows)] at hseen
          cases hseen
        | some rows =>
          have hsame : seen = rows := by
            rw [Database.seen, hname, hcalm, Database.rows_of_getElem? hrows] at hseen
            cases hseen
            exact Changes.applyTo_empty rows
          rw [Definition.entries_of_rows hrows, hsame]
          rfl
      · rename_i hname
        exact fun row hrow => h.fitted _ _ _ hname (.of_seen hseen hrow)
  | scan session schema =>
    have hperform : (·.values) <$> b.database.seen session schema.name = .ok a := hperform
    cases hseen : b.database.seen session schema.name with
    | error e =>
      rw [hseen] at hperform
      cases hperform
    | ok seen =>
      rw [hseen] at hperform
      cases hperform
      exact fun hname => ⟨seen, rfl, fun key row hrow => h.fitted _ _ _ hname (.of_seen hseen hrow)⟩
  | _ => trivial

theorem databaseFailed_of_outage {c : RelationalCall} {e : StoreError} (h : Definition.Outage e) :
    DatabaseFailed c e := by
  cases c with
  | connect => exact h.ne_tableNotFound
  | read => exact fun name heq => absurd heq (h.ne_tableNotFound name)
  | _ => trivial

theorem databaseFailed_of_perform {db : Database} {c : RelationalCall} {e : StoreError}
    (hperform : (db.perform c).1 = .error e) : DatabaseFailed c e := by
  cases c with
  | connect => exact databaseFailed_of_outage (Definition.outage_of_connect hperform)
  | read session schema key =>
    rintro name rfl
    have hperform : (·[key]?) <$> db.seen session schema.name = .error (.tableNotFound name) := hperform
    by_cases hmem : schema.name ∈ db.tables
    · obtain ⟨rows, hrows⟩ := Option.isSome_iff_exists.1 (Std.ExtTreeMap.mem_iff_isSome_getElem?.1 hmem)
      rw [Database.seen, Database.rows_of_getElem? hrows] at hperform
      cases hperform
    · rw [Database.seen_of_not_mem hmem] at hperform
      cases hperform
      rfl
  | _ => trivial

/-- What the engine is answered is true of the listing. -/
theorem Tidy.told (h : Tidy kind listed w) (hmeets : Sharing.Meets Answers w step w') : Told kind listed step := by
  cases hmeets with
  | met outcome => trivial
  | update change => exact h.coherent
  | @call c reply v hanswer =>
    cases c with
    | backend c =>
      obtain ⟨fail, hanswer⟩ := hanswer
      cases c with
      | store c =>
        cases reply with
        | error e =>
          rintro ⟨key, rfl⟩
          obtain ⟨e', he, heq, -⟩ | ⟨heq, -⟩ := hanswer
          · cases heq
            exact he.ne_tableNotFound
          · cases heq
        | ok a =>
          rintro rfl
          obtain ⟨e, -, heq, -⟩ | hperform := hanswer
          · cases heq
          · split at hperform
            · obtain ⟨heq, -⟩ := hperform
              cases heq
              rename_i hperform
              exact h.orderly.storeTold hperform
            · cases hperform.1
      | perform c =>
        cases reply with
        | error e =>
          obtain ⟨e', he, heq, -⟩ | ⟨heq, -⟩ := hanswer
          · cases heq
            exact databaseFailed_of_outage he
          · exact databaseFailed_of_perform heq.symm
        | ok a =>
          rintro rfl
          obtain ⟨e, -, heq, -⟩ | ⟨heq, -⟩ := hanswer
          · cases heq
          · exact (h.orderly.failing fail).databaseTold h.calm heq.symm
      | close session => trivial
      | inTransaction session => trivial
      | describe => trivial
    | coordinator c => trivial
    | unfinished change => trivial
    | pool change => trivial
    | threads change => trivial
    | thread => trivial

end Told

/-! ### Steps that keep everything in order -/

/-- The calls to a versioned store that write no row but one that fits, and neither add nor remove a table. -/
def StoreProper (listed : Schemas) : VersionedCall → Prop
  | .write table key _ cell => ∀ row, cell = some row → Fitted listed table key row
  | .createTable _ | .dropTable _ | .metadataAdd _ _ | .metadataDelete _ => False
  | _ => True

/-- The calls to a database that upsert no row but one that fits, and spare the table of the catalog. -/
def DatabaseProper (listed : Schemas) (c : RelationalCall) : Prop :=
  c.Spares Catalog.catalogTable ∧ ∀ session schema row, c = .upsert session schema row →
    ∀ key, schema.keyOf row = .ok key → Fitted listed schema.name key row

/-- The calls to a database that name no table to change. -/
def Plain : RelationalCall → Prop
  | .createTable _ _ | .dropTable _ _ | .upsert _ _ _ | .delete _ _ _ => False
  | _ => True

theorem databaseProper_of_plain {c : RelationalCall} (h : Plain c) : DatabaseProper listed c := by
  cases c with
  | createTable | dropTable | upsert | delete => exact h.elim
  | _ => exact ⟨trivial, fun _ _ _ heq => by cases heq⟩

/-- The steps that neither change a backend nor look at the cache. -/
def Elsewhere : Step → Prop
  | .asked (.call (.backend (.inTransaction _))) _ | .asked (.call (.backend .describe)) _ => True
  | .asked (.call (.backend _)) _ => False
  | .asked (.call _) _ => True
  | _ => False

/-- The steps of somebody who creates and drops no table, with the connection held before and after. -/
inductive Move (listed : Schemas) : Option Nat → Step → Option Nat → Prop where
  | elsewhere {held : Option Nat} {step : Step} (h : Elsewhere step) : Move listed held step held
  | cache {held : Option Nat} {change : LookupCache → LookupCache} (before : LookupCache)
    (h : ∀ cache, Coherent listed cache → Coherent listed (change cache)) :
    Move listed held (.asked (.update change) before) held
  | store {held : Option Nat} {c : VersionedCall} (r : Except StoreError c.Answer) (h : StoreProper listed c) :
    Move listed held (.asked (.call (.backend (.store c))) r) held
  | connect (session : Nat) :
    Move listed none (.asked (.call (.backend (.perform .connect))) (.ok session)) (some session)
  | turnedAway (e : StoreError) :
    Move listed none (.asked (.call (.backend (.perform .connect))) (.error e)) none
  | perform {session : Nat} {c : RelationalCall} (r : Except StoreError c.Answer)
    (hsession : c.session? = some session) (h : DatabaseProper listed c) :
    Move listed (some session) (.asked (.call (.backend (.perform c))) r) (some session)
  | close (session : Nat) : Move listed (some session) (.asked (.call (.backend (.close session))) ()) none

/-- Whether a connection has an open transaction. -/
def Open (b : Backends) (session : Nat) : Prop := (b.database.staged? session).isSome

theorem metadata_of_proper {s s' : VersionedStore} {c : VersionedCall} {a : c.Answer}
    (h : s.perform c = .ok (a, s')) (hc : StoreProper listed c) : s'.metadata = s.metadata := by
  cases c with
  | createTable | dropTable | metadataAdd | metadataDelete => exact hc.elim
  | read => rw [(VersionedStore.perform_read h).1]
  | scan => rw [VersionedStore.perform_scan h]
  | write =>
    obtain ⟨t, -, rfl⟩ := VersionedStore.alter_eq_ok_iff.1 (VersionedStore.eq_ok_of_answered h)
    rfl
  | undo =>
    obtain ⟨t, -, rfl⟩ := VersionedStore.alter_eq_ok_iff.1 (VersionedStore.eq_ok_of_answered h)
    rfl
  | tableExists | metadataGet | metadataKeys =>
    cases h
    rfl

/-- A proper call to the store keeps everything in order. -/
theorem Orderly.store (h : Orderly kind listed b) {c : VersionedCall} {a : c.Answer} {s : VersionedStore}
    (hperform : b.store.perform c = .ok (a, s)) (hc : StoreProper listed c) :
    Orderly kind listed { b with store := s } := by
  cases kind with
  | relational => exact ⟨h.entries, h.fitted, h.reserved⟩
  | versioned =>
    refine ⟨fun table => ?_, fun table key row hname hrow => ?_, h.reserved⟩
    · rw [← h.entries table]
      simp only [Backends.standing, metadata_of_proper hperform hc]
    · rcases VersionedStore.holds_perform hperform hrow with hrow | ⟨version, rfl⟩
      · exact h.fitted table key row hname hrow
      · exact hc row rfl

/-- A proper call to the database keeps everything in order. -/
theorem Orderly.perform (h : Orderly kind listed b) (hcalm : Calm b) {c : RelationalCall}
    (hc : DatabaseProper listed c) : Orderly kind listed { b with database := (b.database.perform c).2 } := by
  cases kind with
  | versioned => exact ⟨h.entries, h.fitted, h.reserved⟩
  | relational =>
    refine ⟨fun table => ?_, fun table key row hname hrow => ?_, h.reserved⟩
    · rw [← h.entries table]
      simp only [Backends.standing, (Database.spared_perform hcalm hc.1).1]
    · rcases Database.holds_perform hrow with hrow | ⟨session, schema, rfl, rfl, hkey⟩
      · exact h.fitted table key row hname hrow
      · exact hc.2 session schema row rfl key hkey

theorem Orderly.close (h : Orderly kind listed b) (session : Nat) :
    Orderly kind listed { b with database := b.database.close session } := by
  cases kind with
  | versioned => exact ⟨h.entries, h.fitted, h.reserved⟩
  | relational => exact ⟨h.entries, fun table key row hname hrow => h.fitted table key row hname hrow.of_close,
      h.reserved⟩

theorem Calm.close (h : Calm b) (session : Nat) : Calm { b with database := b.database.close session } :=
  fun s => ((Database.eases_of_ite (.inl rfl) (Database.staged?_close b.database session s)).stagedFor _).elim
    (·.trans (h s)) id

section Moved

variable {w w' : Place} {step : Step} {held held' : Option Nat}

theorem Tidy.failing (h : Tidy kind listed w) (fail : Bool) :
    Tidy kind listed { w with outside := failing w.outside fail } :=
  ⟨h.orderly.failing fail, h.calm, h.coherent⟩

theorem Tidy.perform (h : Tidy kind listed w) {c : RelationalCall} (hc : DatabaseProper listed c) :
    Tidy kind listed { w with outside :=
      { w.outside with database := (w.outside.database.perform c).2 } } :=
  ⟨h.orderly.perform h.calm hc, (Database.spared_perform h.calm hc.1).2, h.coherent⟩

/-- Whether a transaction that is open later was open before, and is not the one of somebody who has closed
his connection. -/
def Accounted (b : Backends) (held : Option Nat) (b' : Backends) (held' : Option Nat) : Prop :=
  ∀ session, Open b' session → held' = some session ∨ (Open b session ∧ held ≠ some session)

theorem accounted_of_imp (h : ∀ session, Open b' session → Open b session) : Accounted b held b' held := by
  intro session hopen
  by_cases hheld : held = some session
  · exact .inl hheld
  · exact .inr ⟨h session hopen, hheld⟩

/-- A step elsewhere changes at most whether commits fail. -/
theorem Elsewhere.eq_failing (h : Elsewhere step) (hmeets : Sharing.Meets Answers w step w') :
    ∃ fail, w' = { w with outside := Provider.failing w.outside fail } := by
  cases hmeets with
  | met outcome => exact h.elim
  | update change => exact h.elim
  | @call c reply v hanswer =>
    cases c with
    | backend c =>
      obtain ⟨fail, hanswer⟩ := hanswer
      cases c with
      | store | perform | close => exact h.elim
      | inTransaction | describe =>
        obtain ⟨-, rfl⟩ := hanswer
        exact ⟨fail, rfl⟩
    | coordinator | unfinished | pool | threads | thread =>
      obtain rfl := hanswer
      exact ⟨w.outside.database.failCommits, rfl⟩

/-- Every move keeps all rows fitting, and leaves no transaction open whose connection is not held. -/
theorem Tidy.moved (h : Tidy kind listed w) (hmove : Move listed held step held')
    (hmeets : Sharing.Meets Answers w step w') :
    Tidy kind listed w' ∧ Accounted w.outside held w'.outside held' := by
  cases hmove with
  | elsewhere helsewhere =>
    obtain ⟨fail, rfl⟩ := helsewhere.eq_failing hmeets
    exact ⟨h.failing fail, accounted_of_imp fun _ => id⟩
  | cache before hchange =>
    cases hmeets with
    | update change => exact ⟨⟨h.orderly, h.calm, hchange _ h.coherent⟩, accounted_of_imp fun _ => id⟩
  | store r hc =>
    cases hmeets with
    | call hanswer =>
      obtain ⟨fail, ⟨e, -, -, rfl⟩ | hperform⟩ := hanswer
      · exact ⟨h.failing fail, accounted_of_imp fun _ => id⟩
      · split at hperform
        · rename_i hperform'
          obtain ⟨-, rfl⟩ := hperform
          exact ⟨⟨(h.orderly.failing fail).store hperform' hc, h.calm, h.coherent⟩, accounted_of_imp fun _ => id⟩
        · obtain ⟨-, rfl⟩ := hperform
          exact ⟨h.failing fail, accounted_of_imp fun _ => id⟩
  | connect session =>
    cases hmeets with
    | call hanswer =>
      obtain ⟨fail, ⟨e, -, heq, -⟩ | ⟨heq, rfl⟩⟩ := hanswer
      · cases heq
      · refine ⟨(h.failing fail).perform (databaseProper_of_plain trivial), fun s hopen => .inr ⟨?_, nofun⟩⟩
        have hstaged := Database.staged?_connect_ok _ session s heq.symm
        have hopen : ((Provider.failing w.outside fail).database.connect.2.staged? s).isSome := hopen
        rw [hstaged] at hopen
        split at hopen
        · cases hopen
        · exact hopen
  | turnedAway e =>
    cases hmeets with
    | call hanswer =>
      obtain ⟨fail, ⟨e', -, -, rfl⟩ | ⟨heq, rfl⟩⟩ := hanswer
      · exact ⟨h.failing fail, accounted_of_imp fun _ => id⟩
      · refine ⟨(h.failing fail).perform (databaseProper_of_plain trivial), accounted_of_imp fun s hopen => ?_⟩
        have hopen : ((Provider.failing w.outside fail).database.connect.2.staged? s).isSome := hopen
        rw [Database.staged?_connect_error _ s heq.symm] at hopen
        exact hopen
  | @perform session c r hsession hc =>
    cases hmeets with
    | call hanswer =>
      obtain ⟨fail, ⟨e', -, -, rfl⟩ | ⟨heq, rfl⟩⟩ := hanswer
      · exact ⟨h.failing fail, accounted_of_imp fun _ => id⟩
      · refine ⟨(h.failing fail).perform hc, fun s hopen => ?_⟩
        by_cases hs : session = s
        · exact .inl (congrArg some hs)
        · have hopen : (((Provider.failing w.outside fail).database.perform c).2.staged? s).isSome := hopen
          rw [Database.staged?_perform_of_ne hsession hs] at hopen
          exact .inr ⟨hopen, fun heq => hs (Option.some.inj heq)⟩
  | close session =>
    cases hmeets with
    | call hanswer =>
      obtain ⟨fail, rfl⟩ := hanswer
      refine ⟨⟨(h.orderly.failing fail).close session, Calm.close h.calm session, h.coherent⟩, fun s hopen => ?_⟩
      have hopen : ((w.outside.database.close session).staged? s).isSome := hopen
      rw [Database.staged?_close] at hopen
      split at hopen
      · cases hopen
      · rename_i hne
        exact .inr ⟨hopen, fun heq => hne (Option.some.inj heq)⟩

end Moved

end Tabular.Provider
