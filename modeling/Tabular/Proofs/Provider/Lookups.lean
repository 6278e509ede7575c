import Tabular.Proofs.Provider.Orderly

/-!
# Tabular.Proofs.Provider.Lookups — looking for tables, move by move

`Behaves kind listed held post p` says that `p` makes nothing but moves as long as what it is told is true,
with the connection `held` in the end as in the beginning, and that `post` holds of its value.  Main statement:
`behaves_lookup`, a lookup through the cache comes to something true if the lookup behind it does.
-/

namespace Tabular.Provider

open Interaction (Follows)

/-- Whether a program makes nothing but moves, comes back to the connection it has, and ends well. -/
abbrev Behaves {β : Type} (kind : StorageKind) (listed : Schemas) (held : Option Nat) (post : β → Prop)
    (p : Program β) : Prop :=
  Follows (Move listed) (Told kind listed) (fun held' b => held' = held ∧ post b) held p

variable {β γ : Type} {kind : StorageKind} {listed : Schemas} {held : Option Nat} {table : String}

namespace Behaves

variable {post : β → Prop} {post' : γ → Prop}

theorem mono {p : Program β} {post' : β → Prop} (h : Behaves kind listed held post p)
    (hpost : ∀ b, post b → post' b) : Behaves kind listed held post' p :=
  Follows.mono h fun _ b hb => ⟨hb.1, hpost b hb.2⟩

theorem pure {b : β} (h : post b) : Behaves kind listed held post (pure b : Program β) := ⟨rfl, h⟩

theorem bind {p : Program β} {f : β → Program γ} (h : Behaves kind listed held post p)
    (hf : ∀ b, post b → Behaves kind listed held post' (f b)) : Behaves kind listed held post' (p >>= f) := by
  refine Follows.bind h ?_
  rintro _ b ⟨rfl, hb⟩
  exact hf b hb

/-- A step elsewhere, of which nothing is known. -/
theorem elsewhere {c : Call} (h : ∀ r, Elsewhere (.asked (.call c) r)) :
    Behaves kind listed held (fun _ => True) (Sharing.call c : Program c.Reply) :=
  Follows.ask fun r _ => ⟨held, .elsewhere (h r), rfl, trivial⟩

/-- Looking at the cache and changing it. -/
theorem update {change : LookupCache → LookupCache}
    (h : ∀ cache, Coherent listed cache → Coherent listed (change cache)) :
    Behaves kind listed held (Coherent listed) (Sharing.cell.update change : Program LookupCache) :=
  Follows.ask fun before hbefore => ⟨held, .cache before h, rfl, hbefore⟩

theorem modify {change : LookupCache → LookupCache}
    (h : ∀ cache, Coherent listed cache → Coherent listed (change cache)) :
    Behaves kind listed held (fun _ => True) (Sharing.cell.modify change : Program Unit) :=
  bind (update h) fun _ _ => pure trivial

section Attempts

variable {post : Except StoreError β → Prop} {post' : Except StoreError γ → Prop} {x : Attempt Program β}

theorem andThen {f : β → Attempt Program γ} (h : Behaves kind listed held post x.run)
    (hok : ∀ b, post (.ok b) → Behaves kind listed held post' (f b).run)
    (herror : ∀ e, post (.error e) → post' (.error e)) : Behaves kind listed held post' (x >>= f).run := by
  refine Follows.andThen h ?_ ?_
  · rintro _ b ⟨rfl, hb⟩
    exact hok b hb
  · rintro _ e ⟨rfl, he⟩
    exact ⟨rfl, herror e he⟩

theorem outcome {f : Except StoreError β → Attempt Program γ} (h : Behaves kind listed held post x.run)
    (hf : ∀ r, post r → Behaves kind listed held post' (f r).run) :
    Behaves kind listed held post' (x.outcome >>= f).run := by
  refine Follows.outcome h ?_
  rintro _ r ⟨rfl, hr⟩
  exact hf r hr

theorem lift {y : Program β} {post : β → Prop} {f : β → Attempt Program γ} (h : Behaves kind listed held post y)
    (hf : ∀ b, post b → Behaves kind listed held post' (f b).run) :
    Behaves kind listed held post' ((liftM y : Attempt Program β) >>= f).run := by
  refine Follows.lift h ?_
  rintro _ b ⟨rfl, hb⟩
  exact hf b hb

theorem mapError {restate : StoreError → StoreError} {post' : Except StoreError β → Prop}
    (h : Behaves kind listed held post x.run) (hpost : ∀ r, post r → post' (r.mapError restate)) :
    Behaves kind listed held post' (x.mapError restate).run :=
  Follows.mapError h fun _ r hr => ⟨hr.1, hpost r hr.2⟩

end Attempts

end Behaves

/-! ### The catalog -/

/-- Whether an attempt looks for a table, and what it comes to is true. -/
abbrev Looks (kind : StorageKind) (listed : Schemas) (held : Option Nat) (table : String)
    (x : Attempt Program TableSchema) : Prop :=
  Behaves kind listed held (Found listed table) x.run

/-- A lookup through the cache comes to something true if the lookup behind it does. -/
theorem behaves_lookup {load : Attempt Program TableSchema} (hload : Looks kind listed held table load) :
    Looks kind listed held table (Catalog.lookup Sharing.cell table load) := by
  refine Behaves.lift (Behaves.update fun _ => Coherent.withSlot) fun before hbefore => ?_
  cases hknown : before.known? table with
  | some known =>
    have hfound := hbefore table known hknown
    cases known with
    | found schema => exact ⟨rfl, hfound⟩
    | missing => exact ⟨rfl, hfound⟩
  | none =>
    refine hload.outcome fun r hfound => ?_
    exact Behaves.lift (Behaves.modify fun _ h => h.settle hfound) fun _ _ => ⟨rfl, hfound⟩

theorem looks_keyed : Looks .versioned listed held table ((Catalog.keyed store).find table) := by
  have hget : Behaves .versioned listed held
      (fun r : Except StoreError (Option String) =>
        (∀ document, r = .ok document → document.map TableSchema.ofDocumentChecked = saidOf listed table) ∧
          ∀ e, r = .error e → ∀ name, e ≠ .tableNotFound name)
      (store (.metadataGet (Catalog.entryKey table))).run := by
    refine Follows.ask fun r hr => ⟨held, .store r trivial, rfl, ?_, ?_⟩
    · rintro document rfl
      exact hr rfl table rfl
    · rintro e rfl
      exact hr ⟨_, rfl⟩
  refine hget.andThen (fun document hdocument => ?_) fun e he => .failed (he.2 e rfl)
  have hsaid := hdocument.1 document rfl
  cases document with
  | some document => exact ⟨rfl, found_of_said hsaid⟩
  | none => exact ⟨rfl, .missing (listed_of_said hsaid)⟩

theorem behaves_perform {session : Nat} {c : RelationalCall} (hsession : c.session? = some session)
    (hc : DatabaseProper listed c) :
    Behaves kind listed (some session)
      (fun r => Told kind listed (.asked (.call (.backend (.perform c))) r)) (database.perform c).run :=
  Follows.ask fun r hr => ⟨some session, .perform r hsession hc, rfl, hr⟩

theorem looks_findOn (session : Nat) :
    Looks .relational listed (some session) table (Catalog.findOn database session table) := by
  have hrow : Behaves .relational listed (some session)
      (fun r : Except StoreError (Option Row) =>
        (∀ row, r = .ok row → row.map (Catalog.schemaOfRow table) = saidOf listed table) ∧
          ∀ e, r = .error e → ∀ name, e ≠ .tableNotFound name)
      (Catalog.rowOn database session table).run := by
    have hread : DatabaseProper listed (.read session Catalog.catalogSchema (Catalog.rowKey table)) :=
      databaseProper_of_plain trivial
    refine (behaves_perform rfl hread).mapError fun r hr => ⟨?_, ?_⟩
    · rintro row heq
      cases r with
      | error e => cases heq
      | ok row' =>
        cases heq
        exact hr rfl table rfl
    · rintro e heq
      cases r with
      | ok row => cases heq
      | error e' =>
        cases heq
        cases e' with
        | tableNotFound name =>
          have hname : name = Catalog.catalogTable := hr name rfl
          rw [Catalog.restateMissing, if_pos hname]
          exact nofun
        | _ => exact nofun
  refine hrow.andThen (fun row hrow => ?_) fun e he => .failed (he.2 e rfl)
  have hsaid := hrow.1 row rfl
  cases row with
  | some row => exact ⟨rfl, found_of_said hsaid⟩
  | none => exact ⟨rfl, .missing (listed_of_said hsaid)⟩

/-- The rule for what is done on a connection of its own. -/
theorem behaves_withConnection {use : Nat → Attempt Program β} {post : Except StoreError β → Prop}
    (hfail : ∀ e, (∀ name, e ≠ .tableNotFound name) → post (.error e))
    (huse : ∀ session, Behaves kind listed (some session) post (use session).run) :
    Behaves kind listed none post (database.withConnection use).run := by
  have hconnect : Follows (Move listed) (Told kind listed)
      (fun held r => (∃ session, r = .ok session ∧ held = some session) ∨
        ∃ e, r = .error e ∧ held = none ∧ ∀ name, e ≠ .tableNotFound name)
      none (database.perform .connect).run := by
    refine Follows.ask fun r hr => ?_
    cases r with
    | ok session => exact ⟨_, .connect session, .inl ⟨session, rfl, rfl⟩⟩
    | error e => exact ⟨_, .turnedAway e, .inr ⟨e, rfl, rfl, hr⟩⟩
  refine hconnect.andThen ?_ ?_
  · rintro _ session (⟨_, ⟨⟩, rfl⟩ | ⟨_, ⟨⟩, -⟩)
    refine Follows.outcome (huse session) ?_
    rintro _ r ⟨rfl, hr⟩
    have hclose : Follows (Move listed) (Told kind listed) (fun held _ => held = none) (some session)
        (database.close session) := Follows.ask fun _ _ => ⟨none, .close session, rfl⟩
    refine Follows.lift hclose ?_
    rintro _ _ rfl
    exact ⟨rfl, hr⟩
  · rintro _ e (⟨_, ⟨⟩, -⟩ | ⟨_, ⟨⟩, rfl, he⟩)
    exact ⟨rfl, hfail e he⟩

theorem looks_keyedCatalog : Looks .versioned listed held table (keyedCatalog.find table) :=
  behaves_lookup looks_keyed

theorem looks_tabledCatalog : Looks .relational listed none table (tabledCatalog.find table) :=
  behaves_lookup (behaves_withConnection (fun _ => .failed) looks_findOn)

/-- A unit of work looks for a table on the connection that it has. -/
theorem looks_findWith (session : Nat) : Looks .relational listed (some session) table
    (tabledCatalog.findWith table (Catalog.findOn database session table)) :=
  behaves_lookup (looks_findOn session)

end Tabular.Provider
