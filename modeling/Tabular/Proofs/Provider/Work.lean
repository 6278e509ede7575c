import Tabular.Proofs.Engine.Stock
import Tabular.Proofs.Provider.Lookups

/-!
# Tabular.Proofs.Provider.Work — units of work keep to rows that fit

`Came` says how far a unit of work has come, by which steps and with which answers.  Main statements:
`behaves_coordinated` and `behaves_native`, an operation of a unit of work makes nothing but moves, keeps aside no
row but one that fits, and is answered rightly; and `Came.coordinated` and `Came.native`, so it is of all that a
unit of work has come through.
-/

namespace Tabular.Provider

open Interaction (Follows Runs)

variable {kind : StorageKind} {listed : Schemas} {held : Option Nat} {table : String}

/-- Whether an operation is answered rightly, given the schemas of tables: what is read has the values that
were asked for in its key columns, and what is scanned is in strictly ascending order of the keys. -/
def Right (knows : String → TableSchema → Prop) : (call : TableCall) → Except StoreError call.Answer → Prop
  | .read table values, r => ∀ row, r = .ok (some row) →
      ∃ schema, knows table schema ∧ schema.primaryKey.map (row[·]?) = values.map some
  | .scan table, r => ∀ rows, r = .ok rows → ∃ schema, knows table schema ∧ schema.Ascending rows
  | _, _ => True

theorem right_error {knows : String → TableSchema → Prop} (call : TableCall) (e : StoreError) :
    Right knows call (.error e) := by
  cases call with
  | read => exact fun row hr => by cases hr
  | scan => exact fun rows hr => by cases hr
  | visit | schema | upsert | delete => trivial

/-- Whether a transaction keeps aside, of a table that it has opened, only rows that fit. -/
def Holding (knows : String → TableSchema → Prop) (table : String) (p : Participant) : Prop :=
  knows table p.schema ∧ ∀ key row, p.writes[key]? = some (some row) → p.schema.Fits key row

/-- Whether a transaction keeps aside only rows that fit. -/
def Buffered (knows : String → TableSchema → Prop) (participants : Participants) : Prop :=
  ∀ (table : String) (p : Participant), participants[table]? = some p → Holding knows table p

/-- Whether an attempt beside a state makes nothing but moves, and `post` holds of what comes of it. -/
abbrev BehavesBeside {β τ : Type} (kind : StorageKind) (listed : Schemas) (held : Option Nat)
    (post : Except StoreError β → τ → Prop) (x : Attempt (StateT τ Program) β) (t : τ) : Prop :=
  Runs (Move listed) (Told kind listed) (fun held' r t => held' = held ∧ post r t) held x t

namespace BehavesBeside

variable {β γ τ : Type} {t : τ} {post : Except StoreError β → τ → Prop} {post' : Except StoreError γ → τ → Prop}

theorem andThen {x : Attempt (StateT τ Program) β} {f : β → Attempt (StateT τ Program) γ}
    (h : BehavesBeside kind listed held post x t)
    (hok : ∀ b t, post (.ok b) t → BehavesBeside kind listed held post' (f b) t)
    (herror : ∀ e t, post (.error e) t → post' (.error e) t) :
    BehavesBeside kind listed held post' (x >>= f) t := by
  refine Runs.andThen h ?_ ?_
  · rintro _ b t ⟨rfl, hb⟩
    exact hok b t hb
  · rintro _ e t ⟨rfl, he⟩
    exact ⟨rfl, herror e t he⟩

theorem lifted {y : Attempt Program β} (h : Behaves kind listed held (fun r => post r t) y.run) :
    BehavesBeside kind listed held post y.lifted t := Runs.lifted h

theorem of_bind {r : Except StoreError β} {f : β → Attempt (StateT τ Program) γ}
    (hok : ∀ b, r = .ok b → BehavesBeside kind listed held post' (f b) t)
    (herror : ∀ e, r = .error e → post' (.error e) t) :
    BehavesBeside kind listed held post' (Attempt.of r >>= f) t :=
  Runs.of_bind hok fun e he => ⟨rfl, herror e he⟩

end BehavesBeside

/-! ### In a transaction over a versioned store -/

section Coordinated

variable {setup : Setup} {tx : Transaction} {participants : Participants} {p : Participant} {key : RowKey}

theorem Buffered.empty {knows : String → TableSchema → Prop} : Buffered knows ∅ := by
  intro table p hp
  simp at hp

theorem Buffered.insert {knows : String → TableSchema → Prop} (h : Buffered knows participants)
    (hp : Holding knows table p) : Buffered knows (participants.insert table p) := by
  intro other p' hp'
  rw [Std.ExtTreeMap.getElem?_insert] at hp'
  split at hp'
  · rename_i heq
    obtain rfl := Std.compare_eq_iff_eq.1 heq
    cases hp'
    exact hp
  · exact h other p' hp'

theorem Holding.withWrite {knows : String → TableSchema → Prop} {cell : Option Row} (hp : Holding knows table p)
    (hcell : ∀ row, cell = some row → p.schema.Fits key row) : Holding knows table (p.withWrite key cell) := by
  refine ⟨hp.1, fun other row hrow => ?_⟩
  have hwritten : (p.writes.insert key cell)[other]? = some (some row) := hrow
  rw [Std.ExtTreeMap.getElem?_insert] at hwritten
  split at hwritten
  · rename_i heq
    obtain rfl := Std.compare_eq_iff_eq.1 heq
    exact hcell row (Option.some.inj hwritten)
  · exact hp.2 other row hwritten

/-- Opening a table. -/
theorem behaves_join (h : Buffered (Lists listed) participants) : BehavesBeside .versioned listed held
    (fun r after => Buffered (Lists listed) after ∧ ∀ p, r = .ok p → Holding (Lists listed) table p)
    ((coordinated setup).join tx table) participants := by
  refine Runs.get ?_
  cases hp : participants[table]? with
  | some p =>
    refine ⟨rfl, h, ?_⟩
    rintro _ ⟨⟩
    exact h table p hp
  | none =>
    have hfind : BehavesBeside .versioned listed held (fun r t => t = participants ∧ Found listed table r)
        ((coordinated setup).catalog.find table).lifted participants :=
      BehavesBeside.lifted (looks_keyedCatalog.mono fun _ hr => ⟨rfl, hr⟩)
    refine hfind.andThen ?_ ?_
    · rintro schema _ ⟨rfl, hfound⟩
      have hp : Holding (Lists listed) table { schema } := by
        refine ⟨hfound.of_ok schema rfl, fun key row hrow => ?_⟩
        simp at hrow
      refine ⟨rfl, h.insert hp, ?_⟩
      rintro _ ⟨⟩
      exact hp
    · rintro e _ ⟨rfl, -⟩
      exact ⟨h, fun p hr => by cases hr⟩

/-- Looking up a row among the changes, or else in the store. -/
theorem behaves_lookup_row (hp : Holding (Lists listed) table p) :
    Behaves .versioned listed held (fun r => ∀ row, r = .ok (some row) → p.schema.Fits key row)
      ((coordinated setup).lookup tx p key).run := by
  unfold Coordinated.lookup
  cases hcell : p.writes[key]? with
  | some cell =>
    refine ⟨rfl, fun row hrow => hp.2 key row ?_⟩
    rw [hcell, Except.ok.inj hrow]
  | none =>
    refine Follows.ask fun r hr => ⟨held, .store r trivial, rfl, ?_⟩
    rintro row rfl
    obtain ⟨⟨rfl, hlisted⟩, -⟩ := hp
    exact Fitted.fits (hr rfl row rfl) ⟨rfl, hlisted⟩

/-- An operation of a unit of work makes nothing but moves, keeps aside only rows that fit, and is answered
rightly. -/
theorem behaves_coordinated (h : Buffered (Lists listed) participants) (call : TableCall) :
    BehavesBeside .versioned listed held
      (fun r after => Buffered (Lists listed) after ∧ Right (Lists listed) call r)
      ((coordinated setup).attempt tx call) participants := by
  have hlookup : ∀ (key : RowKey) {p : Participant} {after : Participants}, Buffered (Lists listed) after →
      Holding (Lists listed) call.table p → BehavesBeside .versioned listed held
        (fun r after => Buffered (Lists listed) after ∧ ∀ row, r = .ok (some row) → p.schema.Fits key row)
        ((coordinated setup).lookup tx p key).lifted after := by
    intro key p after hafter hp
    exact BehavesBeside.lifted ((behaves_lookup_row hp).mono fun r hr => ⟨hafter, hr⟩)
  cases call with
  | visit table =>
    refine (behaves_join h).andThen ?_ fun e after hr => ⟨hr.1, right_error _ e⟩
    rintro p after ⟨hafter, -⟩
    exact ⟨rfl, hafter, trivial⟩
  | schema table =>
    refine (behaves_join h).andThen ?_ fun e after hr => ⟨hr.1, right_error _ e⟩
    rintro p after ⟨hafter, -⟩
    exact ⟨rfl, hafter, trivial⟩
  | upsert table row =>
    refine (behaves_join h).andThen ?_ fun e after hr => ⟨hr.1, right_error _ e⟩
    rintro p after ⟨hafter, hp⟩
    have hp := hp p rfl
    refine BehavesBeside.of_bind (fun key hkey => ?_) fun e _ => ⟨hafter, right_error _ e⟩
    refine (hlookup key hafter hp).andThen ?_ fun e after hr => ⟨hr.1, right_error _ e⟩
    rintro existing after ⟨hafter, -⟩
    refine BehavesBeside.of_bind (fun merged hmerged => ?_) fun e _ => ⟨hafter, right_error _ e⟩
    refine ⟨rfl, hafter.insert (hp.withWrite fun row heq => ?_), trivial⟩
    cases heq
    exact TableSchema.fits_of_mergeRow hmerged hkey
  | read table values =>
    refine (behaves_join h).andThen ?_ fun e after hr => ⟨hr.1, right_error _ e⟩
    rintro p after ⟨hafter, hp⟩
    have hp := hp p rfl
    refine BehavesBeside.of_bind (fun key hkey => ?_) fun e _ => ⟨hafter, right_error _ e⟩
    refine Runs.mono (hlookup key hafter hp) ?_
    rintro _ r after ⟨rfl, hafter, hr⟩
    refine ⟨rfl, hafter, fun row hrow => ⟨p.schema, hp.1, ?_⟩⟩
    exact TableSchema.map_getElem?_of_keyOf (hr row hrow).keyed hkey
  | delete table values =>
    refine (behaves_join h).andThen ?_ fun e after hr => ⟨hr.1, right_error _ e⟩
    rintro p after ⟨hafter, hp⟩
    have hp := hp p rfl
    refine BehavesBeside.of_bind (fun key hkey => ?_) fun e _ => ⟨hafter, right_error _ e⟩
    exact ⟨rfl, hafter.insert (hp.withWrite fun row heq => by cases heq), trivial⟩
  | scan table =>
    refine (behaves_join h).andThen ?_ fun e after hr => ⟨hr.1, right_error _ e⟩
    rintro p after ⟨hafter, hp⟩
    have hp := hp p rfl
    have hscan : BehavesBeside .versioned listed held
        (fun r after => Buffered (Lists listed) after ∧ ∀ stored, r = .ok stored →
          StoreTold listed (.scan p.schema.name tx) stored)
        (store (.scan p.schema.name tx)).lifted after := by
      refine BehavesBeside.lifted (Follows.ask fun r hr => ⟨held, .store r trivial, rfl, hafter, ?_⟩)
      rintro stored rfl
      exact hr rfl
    refine hscan.andThen ?_ fun e after hr => ⟨hr.1, right_error _ e⟩
    rintro stored after ⟨hafter, hstored⟩
    obtain ⟨rows, rfl, hrows⟩ := hstored stored rfl
    refine ⟨rfl, hafter, ?_⟩
    rintro _ ⟨⟩
    refine ⟨p.schema, hp.1, TableSchema.ascending_values fun key row hrow => ?_⟩
    rw [ofList_toList, Changes.getElem?_applyTo] at hrow
    obtain ⟨⟨rfl, hlisted⟩, hwrites⟩ := hp
    cases hcell : p.writes[key]? with
    | none =>
      rw [hcell] at hrow
      exact (hrows key row hrow).fits ⟨rfl, hlisted⟩
    | some cell =>
      rw [hcell] at hrow
      exact hwrites key row (hcell.trans (congrArg some hrow))

end Coordinated

/-! ### On a connection of a database -/

section Native

variable {session : Nat} {opened : OpenedSchemas}

/-- Whether the schemas of the tables that a unit of work has opened are those that are listed. -/
def Opened (listed : Schemas) (opened : OpenedSchemas) : Prop :=
  ∀ (table : String) (schema : TableSchema), opened[table]? = some schema → Lists listed table schema

theorem Opened.empty : Opened listed ∅ := by
  intro table schema hschema
  simp at hschema

/-- Opening a table. -/
theorem behaves_schemaOf (h : Opened listed opened) : BehavesBeside .relational listed (some session)
    (fun r after => Opened listed after ∧ ∀ schema, r = .ok schema → Lists listed table schema)
    (native.schemaOf session table) opened := by
  refine Runs.get ?_
  cases hschema : opened[table]? with
  | some schema =>
    refine ⟨rfl, h, ?_⟩
    rintro _ ⟨⟩
    exact h table schema hschema
  | none =>
    have hfind : BehavesBeside .relational listed (some session)
        (fun r t => t = opened ∧ Found listed table r)
        (native.catalog.findWith table (Catalog.findOn native.db session table)).lifted opened :=
      BehavesBeside.lifted ((looks_findWith session).mono fun _ hr => ⟨rfl, hr⟩)
    refine hfind.andThen ?_ ?_
    · rintro schema _ ⟨rfl, hfound⟩
      have hlists := hfound.of_ok schema rfl
      refine ⟨rfl, fun other schema' hother => ?_, ?_⟩
      · rw [Std.ExtTreeMap.getElem?_insert] at hother
        split at hother
        · rename_i heq
          obtain rfl := Std.compare_eq_iff_eq.1 heq
          cases hother
          exact hlists
        · exact h other schema' hother
      · rintro _ ⟨⟩
        exact hlists
    · rintro e _ ⟨rfl, -⟩
      exact ⟨h, fun schema hr => by cases hr⟩

/-- A call on the connection, beside the schemas that are open. -/
theorem behaves_call {c : RelationalCall} (h : Opened listed opened) (hsession : c.session? = some session)
    (hc : DatabaseProper listed c) : BehavesBeside .relational listed (some session)
      (fun r after => Opened listed after ∧ Told .relational listed (.asked (.call (.backend (.perform c))) r))
      (native.db.perform c).lifted opened :=
  BehavesBeside.lifted ((behaves_perform hsession hc).mono fun _ hr => ⟨h, hr⟩)

theorem Lists.ne_catalogTable {schema : TableSchema} (hreserved : listed Catalog.catalogTable = none)
    (h : Lists listed table schema) : schema.name ≠ Catalog.catalogTable := by
  have hlisted := h.ne_none
  obtain ⟨rfl, -⟩ := h
  intro hname
  exact hlisted (hname ▸ hreserved)

/-- An operation of a unit of work makes nothing but moves, upserts only rows that fit, and is answered
rightly. -/
theorem behaves_native (hreserved : listed Catalog.catalogTable = none) (h : Opened listed opened)
    (call : TableCall) : BehavesBeside .relational listed (some session)
      (fun r after => Opened listed after ∧ Right (Lists listed) call r) (native.attempt session call) opened := by
  cases call with
  | visit table =>
    refine (behaves_schemaOf h).andThen ?_ fun e after hr => ⟨hr.1, right_error _ e⟩
    rintro schema after ⟨hafter, -⟩
    exact ⟨rfl, hafter, trivial⟩
  | schema table =>
    exact Runs.mono (behaves_schemaOf h) fun _ r after hr => ⟨hr.1, hr.2.1, trivial⟩
  | upsert table row =>
    refine (behaves_schemaOf h).andThen ?_ fun e after hr => ⟨hr.1, right_error _ e⟩
    rintro schema after ⟨hafter, hlists⟩
    have hlists := hlists schema rfl
    refine BehavesBeside.of_bind (fun key hkey => ?_) fun e _ => ⟨hafter, right_error _ e⟩
    have hread : DatabaseProper listed (.read session schema key) := databaseProper_of_plain trivial
    refine (behaves_call hafter rfl hread).andThen ?_ fun e after hr => ⟨hr.1, right_error _ e⟩
    rintro existing after ⟨hafter, -⟩
    refine BehavesBeside.of_bind (fun merged hmerged => ?_) fun e _ => ⟨hafter, right_error _ e⟩
    have hupsert : DatabaseProper listed (.upsert session schema merged) := by
      refine ⟨hlists.ne_catalogTable hreserved, ?_⟩
      rintro _ _ _ ⟨⟩ key' hkey'
      obtain ⟨rfl, hlisted⟩ := hlists
      exact ⟨schema, ⟨rfl, hlisted⟩, TableSchema.validateRow_mergeRow hmerged, hkey'⟩
    exact Runs.mono (behaves_call hafter rfl hupsert) fun _ r after hr => ⟨hr.1, hr.2.1, trivial⟩
  | read table values =>
    refine (behaves_schemaOf h).andThen ?_ fun e after hr => ⟨hr.1, right_error _ e⟩
    rintro schema after ⟨hafter, hlists⟩
    have hlists := hlists schema rfl
    refine BehavesBeside.of_bind (fun key hkey => ?_) fun e _ => ⟨hafter, right_error _ e⟩
    have hread : DatabaseProper listed (.read session schema key) := databaseProper_of_plain trivial
    refine Runs.mono (behaves_call hafter rfl hread) ?_
    rintro _ r after ⟨rfl, hafter, htold⟩
    refine ⟨rfl, hafter, ?_⟩
    rintro row rfl
    have hfitted : ∀ row', some row = some row' → Fitted listed schema.name key row' := by
      have htold : ite _ _ _ := htold rfl
      rwa [if_neg (hlists.ne_catalogTable hreserved)] at htold
    refine ⟨schema, hlists, ?_⟩
    obtain ⟨rfl, hlisted⟩ := hlists
    exact TableSchema.map_getElem?_of_keyOf ((hfitted row rfl).fits ⟨rfl, hlisted⟩).keyed hkey
  | delete table values =>
    refine (behaves_schemaOf h).andThen ?_ fun e after hr => ⟨hr.1, right_error _ e⟩
    rintro schema after ⟨hafter, hlists⟩
    refine BehavesBeside.of_bind (fun key hkey => ?_) fun e _ => ⟨hafter, right_error _ e⟩
    have hdelete : DatabaseProper listed (.delete session schema key) :=
      ⟨(hlists schema rfl).ne_catalogTable hreserved, fun _ _ _ heq => by cases heq⟩
    exact Runs.mono (behaves_call hafter rfl hdelete) fun _ r after hr => ⟨hr.1, hr.2.1, trivial⟩
  | scan table =>
    refine (behaves_schemaOf h).andThen ?_ fun e after hr => ⟨hr.1, right_error _ e⟩
    rintro schema after ⟨hafter, hlists⟩
    have hlists := hlists schema rfl
    have hscan : DatabaseProper listed (.scan session schema) := databaseProper_of_plain trivial
    refine Runs.mono (behaves_call hafter rfl hscan) ?_
    rintro _ r after ⟨rfl, hafter, htold⟩
    refine ⟨rfl, hafter, ?_⟩
    rintro _ rfl
    obtain ⟨rows, rfl, hrows⟩ := htold rfl (hlists.ne_catalogTable hreserved)
    refine ⟨schema, hlists, TableSchema.ascending_values fun key row hrow => ?_⟩
    obtain ⟨rfl, hlisted⟩ := hlists
    exact (hrows key row hrow).fits ⟨rfl, hlisted⟩

end Native

/-! ### Units of work -/

/-- How far a unit of work on tables has come: by some steps, the latest first, it has come to the answers of
some operations, the latest first, to a state of the tables and to the rest of the work. -/
inductive Came {τ α : Type} (tables : Tables Program τ) (work : Work Id α) (start : τ) :
    List Step → List ((call : TableCall) × Except StoreError call.Answer) → τ → Work Id α → Prop where
  | begin : Came tables work start [] [] start work
  | act {steps : List Step} {ops : List ((call : TableCall) × Except StoreError call.Answer)} {state : τ}
    {β : Type} {x : Id β} {next : β → Work Id α} (h : Came tables work start steps ops state (.act x next)) :
    Came tables work start steps ops state (next x)
  | operation {steps taken : List Step} {ops : List ((call : TableCall) × Except StoreError call.Answer)}
    {state state' : τ} {call : TableCall} {next : Except StoreError call.Answer → Work Id α}
    {r : Except StoreError call.Answer} (h : Came tables work start steps ops state (.ask call next))
    (hop : ((tables call).run state).Leads taken (.done (r, state'))) :
    Came tables work start (taken ++ steps) (⟨call, r⟩ :: ops) state' (next r)

section Units

variable {τ α : Type} {attempt : (call : TableCall) → Attempt (StateT τ Program) call.Answer} {inv : τ → Prop}
  {t : τ} {work : Work Id α}

/-- What every operation of a unit of work does, all of it does. -/
theorem behaves_work (h : ∀ call t, inv t → BehavesBeside kind listed held
      (fun r after => inv after ∧ Right (Lists listed) call r) (attempt call) t) (ht : inv t) :
    Behaves kind listed held (fun r => inv r.2)
      ((Work.perform (fun call => (attempt call).run) work.hoist).run t) := by
  induction work generalizing t with
  | done r => exact ⟨rfl, ht⟩
  | act x next ih => exact ih x ht
  | ask call next ih =>
    refine Behaves.bind (p := (attempt call).run t) (h call t ht) fun r hr => ?_
    exact ih r.1 hr.1

/-- Wherever a unit of work has come to that was told the truth, all is well and was answered rightly. -/
theorem Came.right (h : ∀ call t, inv t → BehavesBeside kind listed held
      (fun r after => inv after ∧ Right (Lists listed) call r) (attempt call) t) (ht : inv t)
    {steps : List Step} {ops : List ((call : TableCall) × Except StoreError call.Answer)} {t' : τ}
    {rest : Work Id α} (hcame : Came (fun call => (attempt call).run) work t steps ops t' rest)
    (htold : ∀ step ∈ steps, Told kind listed step) :
    inv t' ∧ ∀ op ∈ ops, Right (Lists listed) op.1 op.2 := by
  induction hcame with
  | begin => exact ⟨ht, fun op hop => by cases hop⟩
  | act _ ih => exact ih htold
  | @operation steps taken ops state state' call next r _ hleads ih =>
    obtain ⟨hstate, hops⟩ := ih fun step hstep => htold step (List.mem_append_right _ hstep)
    obtain ⟨_, -, -, hafter, hright⟩ := Follows.leads (h call state hstate) hleads fun step hstep =>
      htold step (List.mem_append_left _ hstep)
    refine ⟨hafter, fun op hop => ?_⟩
    rcases List.mem_cons.1 hop with rfl | hop
    · exact hright
    · exact hops op hop

/-- Wherever a unit of work has come to in a transaction. -/
theorem Came.coordinated {setup : Setup} {tx : Transaction} {steps : List Step}
    {ops : List ((call : TableCall) × Except StoreError call.Answer)} {participants : Participants}
    {rest : Work Id α} (hcame : Came ((coordinated setup).tables tx) work ∅ steps ops participants rest)
    (htold : ∀ step ∈ steps, Told .versioned listed step) :
    Buffered (Lists listed) participants ∧ ∀ op ∈ ops, Right (Lists listed) op.1 op.2 := by
  have hop : ∀ (call : TableCall) (t : Participants), Buffered (Lists listed) t →
      BehavesBeside .versioned listed none
        (fun r after => Buffered (Lists listed) after ∧ Right (Lists listed) call r)
        ((Provider.coordinated setup).attempt tx call) t := fun call _ ht => behaves_coordinated ht call
  exact hcame.right hop .empty htold

/-- Wherever a unit of work has come to on a connection. -/
theorem Came.native {session : Nat} {steps : List Step}
    {ops : List ((call : TableCall) × Except StoreError call.Answer)} {opened : OpenedSchemas}
    {rest : Work Id α} (hcame : Came (native.tables session) work ∅ steps ops opened rest)
    (hreserved : listed Catalog.catalogTable = none) (htold : ∀ step ∈ steps, Told .relational listed step) :
    ∀ op ∈ ops, Right (Lists listed) op.1 op.2 :=
  (hcame.right (fun call _ => (behaves_native hreserved · call)) .empty htold).2

end Units

end Tabular.Provider
