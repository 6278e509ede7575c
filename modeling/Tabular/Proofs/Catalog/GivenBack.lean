import Tabular.Proofs.Catalog.Views
import Tabular.Proofs.Work.Samples

/-!
# Tabular.Proofs.Catalog.GivenBack — a registry gives back what it accepted

A registry accepts any schema and checks it when it is found.  `View.Has` says that a view lists a schema, and
what is remembered of it; every use but its removal keeps that (`View.Has.serve`).  Main statement:
`registered_given_back`, what is found under the name of a registered schema until it is removed: the schema
if it is valid, and otherwise what is wrong with it, unless the schema is still remembered from its
registration.
-/

namespace Tabular.Catalog

open Bench
open Samples (notes)

/-- Whether a use makes the memory of lookups forget what it knows of a table that is listed. -/
def Use.forgets (table : String) : Use → Bool
  | .ask .cached (.register schema) => schema.name = table
  | .invalidate other => other = table
  | .invalidateAll => true
  | _ => false

/-- What may be remembered of a schema that was registered, depending on whether that was forgotten. -/
inductive Recalled (s : TableSchema) : Bool → Option Lookup → Prop where
  | registered : Recalled s false (some (.found s))
  | forgotten : Recalled s true none
  | again : s.validate = .ok () → Recalled s true (some (.found s))

namespace View

/-- Whether a view has a schema that was registered on a way. -/
structure Has (way : Way) (s : TableSchema) (forgotten : Bool) (v : View) : Prop where
  listed : v.listing[s.name]? = some s
  recalled : way = .cached → Recalled s forgotten (v.known s.name)

variable {v : View} {s : TableSchema} {way : Way} {forgotten : Bool} {table : String} {request : Request}
  {uses : List Use} {u : Use} {r : Except StoreError Response}
  {before between after : List (Use × Except StoreError Response)}

/-! ### What one use does -/

theorem find_of_listed {listing : Listing} (h : listing[s.name]? = some s) :
    listing.find s.name = (fun _ => s) <$> s.validate := by
  rw [Listing.find, h]

theorem mem_of_listed {listing : Listing} (h : listing[s.name]? = some s) : s.name ∈ listing :=
  Std.ExtTreeMap.mem_iff_isSome_getElem?.2 (by rw [h]; rfl)

/-- A schema stays listed unless it is removed. -/
theorem listed_answer {listing : Listing} (h : listing[s.name]? = some s) (hnot : request ≠ .remove s.name) :
    (listing.answer request).2[s.name]? = some s := by
  cases request with
  | register schema =>
    rw [Listing.answer]
    split
    · exact h
    · rename_i hnew
      have hne : schema.name ≠ s.name := fun heq => hnew (heq ▸ mem_of_listed h)
      simpa [Std.ExtTreeMap.getElem?_insert, hne] using h
  | find table => exact h
  | tableNames => exact h
  | remove table =>
    rw [Listing.answer]
    split
    · have hne : table ≠ s.name := fun heq => hnot (heq ▸ rfl)
      simpa [Std.ExtTreeMap.getElem?_erase, hne] using h
    · exact h

theorem listing_find (v : View) (table : String) : (v.find table).2.listing = v.listing := by
  rw [find]
  cases v.known table <;> rfl

/-- A table that is listed can be removed. -/
theorem serve_remove (h : table ∈ v.listing) : (v.serve (.ask way (.remove table))).1 = .ok .done := by
  have hanswer : (v.listing.answer (.remove table)).1 = .ok .done := by rw [Listing.answer, if_pos h]
  cases way <;> exact hanswer

theorem listed_serve (h : v.listing[s.name]? = some s) (hnot : ∀ way, u ≠ .ask way (.remove s.name)) :
    (v.serve u).2.listing[s.name]? = some s := by
  cases u with
  | ask way request =>
    have hrequest : request ≠ .remove s.name := fun heq => hnot way (heq ▸ rfl)
    cases way with
    | plain => exact listed_answer h hrequest
    | cached =>
      cases request with
      | register schema => exact listed_answer h hrequest
      | remove table => exact listed_answer h hrequest
      | find table => exact (v.listing_find table).symm ▸ h
      | tableNames => exact h
  | load table => exact (v.listing_find table).symm ▸ h
  | invalidate table => exact h
  | invalidateAll => exact h

/-- What a lookup finds out about a schema that is listed is remembered if it is valid. -/
theorem recalled_find (hlisted : v.listing[s.name]? = some s) (h : Recalled s forgotten (v.known s.name))
    (table : String) : Recalled s forgotten ((v.find table).2.known s.name) := by
  rw [find]
  cases hknown : v.known table with
  | some known => exact h
  | none =>
    by_cases htable : table = s.name
    · subst htable
      rw [hknown] at h
      cases h
      show Recalled s true (Function.update v.known s.name _ s.name)
      rw [Function.update_self, find_of_listed hlisted]
      cases hvalid : s.validate with
      | ok _ => exact .again hvalid
      | error e =>
        obtain ⟨reason, rfl⟩ := TableSchema.validate_error hvalid
        exact .forgotten
    · show Recalled s forgotten (Function.update v.known table _ s.name)
      rwa [Function.update_of_ne (Ne.symm htable)]

theorem find_of_recalled (hlisted : v.listing[s.name]? = some s) (h : Recalled s forgotten (v.known s.name)) :
    (v.find s.name).1 = if forgotten then (fun _ => s) <$> s.validate else .ok s := by
  rw [find]
  generalize v.known s.name = known at h
  cases h with
  | registered => rfl
  | forgotten => exact find_of_listed hlisted
  | again hvalid => rw [if_pos rfl, hvalid]; rfl

/-- A change through the memory concerns one name. -/
theorem known_change (v : View) (table : String) (meaning : Lookup) (request : Request) (hne : table ≠ s.name) :
    (v.change table meaning request).2.known s.name = v.known s.name :=
  Function.update_of_ne (Ne.symm hne) ..

theorem recalled_serve (hlisted : v.listing[s.name]? = some s) (h : Recalled s forgotten (v.known s.name))
    (hnot : ∀ way, u ≠ .ask way (.remove s.name)) :
    Recalled s (forgotten || u.forgets s.name) ((v.serve u).2.known s.name) := by
  have hsame : Recalled s (forgotten || false) (v.known s.name) := by rwa [Bool.or_false]
  have hfind : ∀ table, Recalled s (forgotten || false) ((v.find table).2.known s.name) := by
    intro table
    rw [Bool.or_false]
    exact recalled_find hlisted h table
  have hforgotten : Recalled s (forgotten || true) none := by
    rw [Bool.or_true]
    exact .forgotten
  cases u with
  | load table => exact hfind table
  | invalidateAll => exact hforgotten
  | invalidate table =>
    by_cases htable : table = s.name
    · simpa [serve, Use.forgets, htable] using hforgotten
    · simpa [serve, Use.forgets, htable, Function.update_of_ne (Ne.symm htable)] using hsame
  | ask way request =>
    cases way with
    | plain => exact hsame
    | cached =>
      cases request with
      | find table => exact hfind table
      | tableNames => exact hsame
      | remove table =>
        have htable : table ≠ s.name := fun heq => hnot .cached (heq ▸ rfl)
        exact (v.known_change table _ _ htable).symm ▸ hsame
      | register schema =>
        by_cases hname : schema.name = s.name
        · -- the name is taken, and what is known of it is dropped
          have hmem := mem_of_listed hlisted
          simpa [serve, change, Listing.answer, Use.forgets, hname, hmem, Except.isOk, Except.toBool]
            using hforgotten
        · simpa [serve, Use.forgets, hname, known_change] using hsame

/-- A schema that was registered stays so, unless it is removed. -/
theorem Has.serve (h : v.Has way s forgotten) (hnot : ∀ way, u ≠ .ask way (.remove s.name)) :
    (v.serve u).2.Has way s (forgotten || u.forgets s.name) where
  listed := listed_serve h.listed hnot
  recalled hway := recalled_serve h.listed (h.recalled hway) hnot

/-- A schema that is accepted is there. -/
theorem has_of_registered (h : (v.serve (.ask way (.register s))).1 = .ok .done) :
    (v.serve (.ask way (.register s))).2.Has way s false := by
  have hanswer : (v.listing.answer (.register s)).1 = .ok .done := by cases way <;> exact h
  have hlisted : (v.listing.answer (.register s)).2[s.name]? = some s := by
    rw [Listing.answer] at hanswer ⊢
    split at hanswer
    · cases hanswer
    · rename_i hnew
      rw [if_neg hnew]
      exact Std.ExtTreeMap.getElem?_insert_self
  constructor
  · cases way <;> exact hlisted
  · rintro rfl
    have hknown : (v.serve (.ask .cached (.register s))).2.known s.name = some (.found s) := by
      rw [serve, change, hanswer]
      exact Function.update_self ..
    rw [hknown]
    exact .registered

/-- What is answered who asks for a schema that is there. -/
theorem Has.answer_find (h : v.Has way s forgotten) : (v.serve (.ask way (.find s.name))).1 =
    if way = .cached ∧ forgotten = false then .ok (.schema s) else (fun _ => .schema s) <$> s.validate := by
  cases way with
  | plain =>
    show Response.schema <$> v.listing.find s.name = _
    rw [find_of_listed h.listed, if_neg (by simp)]
    cases s.validate <;> rfl
  | cached =>
    show Response.schema <$> (v.find s.name).1 = _
    rw [find_of_recalled h.listed (h.recalled rfl)]
    cases forgotten with
    | false => rfl
    | true => cases s.validate <;> rfl

/-! ### Uses one after another -/

/-- The state in which an answer was given. -/
theorem exists_of_history (h : v.history uses = before ++ (u, r) :: after) :
    ∃ (v' : View) (rest : List Use), r = (v'.serve u).1 ∧ after = (v'.serve u).2.history rest := by
  induction before generalizing v uses with
  | nil =>
    cases uses with
    | nil => cases h
    | cons u' rest =>
      cases h
      exact ⟨v, rest, rfl, rfl⟩
  | cons entry before ih =>
    cases uses with
    | nil => cases h
    | cons u' rest => exact ih (List.cons.inj h).2

/-- What is registered stays so until it is removed. -/
theorem Has.history (h : v.Has way s forgotten) (hhistory : v.history uses = between ++ (u, r) :: after)
    (hkept : ∀ way, (.ask way (.remove s.name), .ok .done) ∉ between) :
    ∃ v' : View, r = (v'.serve u).1 ∧ v'.Has way s (forgotten || between.any (·.1.forgets s.name)) := by
  induction between generalizing v uses forgotten with
  | nil =>
    cases uses with
    | nil => cases hhistory
    | cons u' rest =>
      cases hhistory
      exact ⟨v, rfl, by simpa using h⟩
  | cons entry between ih =>
    cases uses with
    | nil => cases hhistory
    | cons u' rest =>
      obtain ⟨hentry, hrest⟩ := List.cons.inj hhistory
      have hnot : ∀ way, u' ≠ .ask way (.remove s.name) := by
        -- a removal would succeed, as the schema is listed
        rintro way rfl
        rw [serve_remove (mem_of_listed h.listed)] at hentry
        exact hkept way (hentry ▸ List.mem_cons_self)
      obtain ⟨v', hr, hv'⟩ := ih (h.serve hnot) hrest fun way hmem => hkept way (List.mem_cons_of_mem _ hmem)
      refine ⟨v', hr, ?_⟩
      rwa [List.any_cons, ← hentry, ← Bool.or_assoc]

end View

/-! ### Both families -/

/-- Whether a process has what a registry needs, and no registry yet. -/
def Blank (site : Site) : StorageKind → Prop
  | .versioned => ∀ key ∈ site.embedded.store.metadata, entryStart.isPrefixOf key = false
  | .relational => catalogTable ∉ site.embedded.database.tables ∧ site.embedded.database.Ready

/-- Uses of a registry, which is set up first if it needs that, and of the memory of the engine of an index. -/
def historyOf (k : Nat) (uses : List Use) : StorageKind → SiteM (List (Use × Except StoreError Response))
  | .versioned => (keyed Site.store).useAll (memoryOf k) uses
  | .relational => do
    let _ ← (prepare Site.database).run
    (tabled Site.database).useAll (memoryOf k) uses

/-- Whatever is done with a registry, what comes of it is what a view says. -/
theorem run_historyOf {site : Site} {kind : StorageKind} {k : Nat} {engine : EngineState}
    (hk : site.engines[k]? = some engine) (hblank : Blank site kind) (uses : List Use) :
    (historyOf k uses kind site).1 = (View.mk ∅ engine.cache.known?).history uses := by
  let c : Scene := ⟨site.embedded.coordinator, site.embedded.store, site.embedded.database, engine.cache,
    engine.unfinished, engine.pool, engine.threads, site.thread⟩
  have hsite : site.Shows (some k) c := by
    refine ⟨rfl, ?_, rfl⟩
    rintro _ ⟨⟩
    exact hk
  have hyields : Yields (some k) (historyOf k uses kind) c fun r _ =>
      r = (View.mk ∅ engine.cache.known?).history uses := by
    cases kind with
    | versioned =>
      exact keyed_stands.yields_useAll (fun _ _ _ h => h) uses ⟨inMetadata_empty hblank, fun _ => rfl⟩
    | relational =>
      refine Yields.bind ((yields_prepare_of_not_mem hblank.2 hblank.1).mono ?_)
      rintro _ c' ⟨-, hempty, hsame⟩
      exact tabled_stands.yields_useAll (fun _ _ _ h => h) uses ⟨hempty, fun _ => by rw [hsame]⟩
  obtain ⟨-, -, hhistory⟩ := hyields site hsite
  exact hhistory

/-- **A registry gives back what it accepted.**  From the registration of a schema to its removal, whatever
else is done meanwhile, a lookup in the same way answers the schema if it is valid.  If it is not, that is
not checked when it is registered; the lookup answers what is wrong with it, unless it goes through the memory
of lookups and nothing has made that forget the name. -/
theorem registered_given_back {site : Site} {kind : StorageKind} {k : Nat} {engine : EngineState}
    {uses : List Use} {before between after : List (Use × Except StoreError Response)} {way : Way}
    {s : TableSchema} {r : Except StoreError Response} (hk : site.engines[k]? = some engine)
    (hblank : Blank site kind)
    (hhistory : (historyOf k uses kind site).1 =
      before ++ (.ask way (.register s), .ok .done) :: (between ++ (.ask way (.find s.name), r) :: after))
    (hkept : ∀ way, (.ask way (.remove s.name), .ok .done) ∉ between) :
    (s.validate = .ok () → r = .ok (.schema s)) ∧
    ∀ e, s.validate = .error e →
      r = if way = .cached ∧ ∀ entry ∈ between, entry.1.forgets s.name = false then .ok (.schema s)
        else .error e := by
  rw [run_historyOf hk hblank] at hhistory
  obtain ⟨v, rest, hregister, hafter⟩ := View.exists_of_history hhistory
  obtain ⟨v', rfl, hv'⟩ := (View.has_of_registered hregister.symm).history hafter.symm hkept
  rw [hv'.answer_find]
  refine ⟨fun hvalid => ?_, fun e hinvalid => ?_⟩
  · rw [hvalid]
    split <;> rfl
  · rw [hinvalid]
    simp only [Bool.false_or, List.any_eq_false, Bool.not_eq_true]
    rfl

/-- A process in which nothing has happened, with one engine. -/
def untouched : Site where
  embedded := ⟨.permissive { }, { }, .empty "memory" 1 100⟩
  engines := #[{ pool := { maxSize := 1 } }]

theorem blank_untouched : ∀ kind, Blank untouched kind
  | .versioned => fun key hkey => by simp [untouched] at hkey
  | .relational => ⟨by simp [untouched, Database.empty], by decide, rfl⟩

/-- Notes whose key is not declared. -/
def undeclared : TableSchema := { notes with primaryKey := ["missing"] }

def undeclaredKey : StoreError := .invalidSchema "notes" "primary key column 'missing' is not declared"

/-- A schema is found although its name was about to be registered again, which is refused and makes the
memory of lookups forget it. -/
theorem registered_given_back_refused : ∃ r,
    (historyOf 0 [.ask .cached (.register notes), .ask .cached (.register undeclared),
        .ask .cached (.find "notes")] .relational untouched).1 =
      [(.ask .cached (.register notes), .ok .done),
        (.ask .cached (.register undeclared), .error (.tableAlreadyExists "notes")),
        (.ask .cached (.find "notes"), r)] ∧ r = .ok (.schema notes) := by
  have hhistory := run_historyOf (k := 0) rfl (blank_untouched .relational)
    [.ask .cached (.register notes), .ask .cached (.register undeclared), .ask .cached (.find "notes")]
  have hsplit : (historyOf 0 _ .relational untouched).1 = [] ++ (.ask .cached (.register notes), .ok .done) ::
      ([(.ask .cached (.register undeclared), .error (.tableAlreadyExists "notes"))] ++
        (.ask .cached (.find "notes"), _) :: []) := hhistory
  exact ⟨_, hhistory, (registered_given_back rfl (blank_untouched .relational) hsplit (by simp)).1 rfl⟩

/-- A schema whose key is not declared is registered and cannot be found.  Where lookups are remembered it is
found until it is forgotten. -/
theorem undeclared_not_given_back :
    (historyOf 0 [.ask .plain (.register undeclared), .ask .plain (.find "notes")] .versioned untouched).1.map
        (·.2) = [.ok .done, .error undeclaredKey] ∧
      (historyOf 0 [.ask .plain (.register undeclared), .ask .plain (.find "notes")] .relational untouched).1.map
        (·.2) = [.ok .done, .error undeclaredKey] ∧
      (historyOf 0 [.ask .cached (.register undeclared), .ask .cached (.find "notes"), .invalidate "notes",
          .ask .cached (.find "notes")] .versioned untouched).1.map (·.2) =
        [.ok .done, .ok (.schema undeclared), .ok .done, .error undeclaredKey] := by
  have hhistory := fun kind => run_historyOf (k := 0) rfl (blank_untouched kind)
  rw [hhistory, hhistory, hhistory]
  exact ⟨rfl, rfl, rfl⟩

end Tabular.Catalog
