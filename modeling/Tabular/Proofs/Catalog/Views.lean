import Tabular.Proofs.Catalog.Lookups
import Tabular.Proofs.Catalog.Registries

/-!
# Tabular.Proofs.Catalog.Views — a registry and what is remembered of its lookups

A registry can be asked itself, or through a catalog that remembers lookups.  A `View` is what it lists and
what is remembered, `View.serve` says what comes of each `Use`.  Main statement: `Stands.yields_useAll`, a
catalog that stands for a listing does the same.
-/

namespace Tabular.Catalog

open Bench

/-- How a registry is asked: itself, or through the catalog that remembers its lookups. -/
inductive Way where
  | plain
  | cached
deriving DecidableEq

/-- What is done with a registry and the memory of its lookups. -/
inductive Use where
  | ask (way : Way) (request : Request)
  /-- A lookup through the memory which, if it has to, asks the registry itself. -/
  | load (table : String)
  | invalidate (table : String)
  | invalidateAll

section

variable {m : Type → Type} [Monad m]

/-- What comes of a use. -/
def use (inner : Catalog m) (cache : Cell m LookupCache) : Use → m (Except StoreError Response)
  | .ask .plain request => (inner.answer request).run
  | .ask .cached request => ((inner.cached cache).answer request).run
  | .load table => (Response.schema <$> (inner.cached cache).findWith table (inner.find table)).run
  | .invalidate table => do
    invalidate cache table
    return .ok .done
  | .invalidateAll => do
    invalidateAll cache
    return .ok .done

/-- Uses one after another, each with what comes of it. -/
def useAll (inner : Catalog m) (cache : Cell m LookupCache) :
    List Use → m (List (Use × Except StoreError Response))
  | [] => return []
  | u :: rest => do
    let r ← inner.use cache u
    return (u, r) :: (← inner.useAll cache rest)

end

/-- What a registry lists and what is remembered of its lookups. -/
structure View where
  listing : Listing
  known : String → Option Lookup

namespace View

/-- A lookup through the memory. -/
def find (v : View) (table : String) : Except StoreError TableSchema × View :=
  match v.known table with
  | some known => (known.answer table, v)
  | none => (v.listing.find table,
      { v with known := Function.update v.known table (LookupCache.remembered (v.listing.find table)) })

/-- A change through the memory. -/
def change (v : View) (table : String) (meaning : Lookup) (request : Request) :
    Except StoreError Response × View :=
  ((v.listing.answer request).1,
    ⟨(v.listing.answer request).2,
      Function.update v.known table (if (v.listing.answer request).1.isOk then some meaning else none)⟩)

/-- What comes of a use, and the view after it. -/
def serve (v : View) : Use → Except StoreError Response × View
  | .ask .plain request => ((v.listing.answer request).1, { v with listing := (v.listing.answer request).2 })
  | .ask .cached (.register schema) => v.change schema.name (.found schema) (.register schema)
  | .ask .cached (.remove table) => v.change table .missing (.remove table)
  | .ask .cached (.find table) => (.schema <$> (v.find table).1, (v.find table).2)
  | .ask .cached .tableNames => ((v.listing.answer .tableNames).1, v)
  | .load table => (.schema <$> (v.find table).1, (v.find table).2)
  | .invalidate table => (.ok .done, { v with known := Function.update v.known table none })
  | .invalidateAll => (.ok .done, { v with known := fun _ => none })

/-- Uses one after another, each with what comes of it. -/
def history (v : View) : List Use → List (Use × Except StoreError Response)
  | [] => []
  | u :: rest => (u, (v.serve u).1) :: history (v.serve u).2 rest

end View

/-! ### What a catalog does that stands for a listing -/

/-- Whether a scene is as a view says, for a registry whose listing scenes hold as given. -/
structure Shown (Holds : Listing → Scene → Prop) (v : View) (c : Scene) : Prop where
  listing : Holds v.listing c
  known : ∀ table, c.cache.known? table = v.known table

variable {Holds : Listing → Scene → Prop} {inner : Catalog SiteM} {v : View} {c : Scene} {k : Nat}
  {table : String}

/-- The memory of the engine of an index. -/
abbrev memoryOf (k : Nat) : Cell SiteM LookupCache := (EngineCells.ofCell (Site.engineCell k)).cache

theorem map_schema_inj {r r' : Except StoreError TableSchema}
    (h : Response.schema <$> r = Response.schema <$> r') : r = r' := by
  cases r <;> cases r' <;> cases h <;> rfl

theorem isOk_map_done (r : Except StoreError Unit) : ((fun _ => Response.done) <$> r).isOk = r.isOk := by
  cases r <;> rfl

theorem yields_of_mapped {β γ : Type} {i : Option Nat} {x : Attempt SiteM β} {f : β → γ}
    {post : Except StoreError γ → Scene → Prop} (h : Yields i (f <$> x).run c post) :
    Yields i x.run c fun r c' => post (f <$> r) c' := by
  rw [ExceptT.run_map] at h
  exact h

/-- Replacing what is known of one name. -/
theorem update_known {known : String → Option Lookup} {lookup : Option Lookup} {other : String} :
    (if table = other then lookup else known other) = Function.update known table lookup other := by
  rw [Function.update_apply]
  simp only [eq_comm]

section

variable (hcache : ∀ listing c cache, Holds listing c → Holds listing { c with cache })

include hcache

theorem Shown.withSlot (h : Shown Holds v c) (table : String) :
    Shown Holds v { c with cache := c.cache.withSlot table } :=
  ⟨hcache _ _ _ h.listing, fun _ => LookupCache.known?_withSlot.trans (h.known _)⟩

/-- A lookup through the memory, given how the registry looks up. -/
theorem Shown.lookup {load : Attempt SiteM TableSchema} (h : Shown Holds v c)
    (hload : ∀ c, Holds v.listing c → Yields (some k) load.run c fun r c' =>
      r = v.listing.find table ∧ Holds v.listing c' ∧ c'.cache = c.cache) :
    Yields (some k) (lookup (memoryOf k) table load).run c fun r c' =>
      r = (v.find table).1 ∧ Shown Holds (v.find table).2 c' := by
  have hslot := h.withSlot hcache table
  refine Yields.action (Yields.cache ?_)
  rw [h.known, View.find]
  cases hknown : v.known table with
  | some known =>
    cases known with
    | found schema => exact Yields.pure ⟨rfl, hslot⟩
    | missing => exact Yields.pure ⟨rfl, hslot⟩
  | none =>
    refine Yields.outcome ((hload _ hslot.listing).mono ?_)
    rintro _ c' ⟨rfl, hlisting, hsame⟩
    refine Yields.action (Yields.modify (Yields.cache (Yields.of ⟨rfl, hcache _ _ _ hlisting, fun other => ?_⟩)))
    rw [hsame]
    refine (LookupCache.known?_settle ((h.known table).trans hknown)).trans ?_
    rw [h.known]
    exact update_known

/-- A change through the memory, given how the registry changes. -/
theorem Shown.change {apply : Attempt SiteM Unit} {request : Request} {meaning : Lookup} (h : Shown Holds v c)
    (happly : ∀ c, Holds v.listing c → Yields (some k) apply.run c fun r c' =>
      (fun _ => Response.done) <$> r = (v.listing.answer request).1 ∧ Holds (v.listing.answer request).2 c' ∧
        c'.cache = c.cache) :
    Yields (some k) (Catalog.change (memoryOf k) table meaning apply).run c fun r c' =>
      (fun _ => Response.done) <$> r = (v.change table meaning request).1 ∧
        Shown Holds (v.change table meaning request).2 c' := by
  have hslot := h.withSlot hcache table
  refine Yields.action (Yields.modify (Yields.cache (Yields.outcome ((happly _ hslot.listing).mono ?_))))
  rintro r c' ⟨hr, hlisting, hsame⟩
  refine Yields.action (Yields.modify (Yields.cache (Yields.of ⟨hr, hcache _ _ _ hlisting, fun other => ?_⟩)))
  rw [hsame]
  refine LookupCache.known?_changed.trans ?_
  rw [View.change, ← hr, isOk_map_done, h.known]
  exact update_known

/-- What is to be shown of each use. -/
theorem Stands.yields_use (hstands : Stands inner Holds) (h : Shown Holds v c) (u : Use) :
    Yields (some k) (inner.use (memoryOf k) u) c fun r c' =>
      r = (v.serve u).1 ∧ Shown Holds (v.serve u).2 c' := by
  have hask : ∀ request c, Shown Holds v c → Yields (some k) (inner.answer request).run c fun r c' =>
      r = (v.listing.answer request).1 ∧
        Shown Holds { v with listing := (v.listing.answer request).2 } c' := by
    intro request c h
    refine (hstands (some k) v.listing c request h.listing).mono ?_
    rintro r c' ⟨hr, hlisting, hsame⟩
    exact ⟨hr, hlisting, fun table => hsame ▸ h.known table⟩
  have hfind : ∀ table, Yields (some k) (Response.schema <$> lookup (memoryOf k) table (inner.find table)).run c
      fun r c' => r = .schema <$> (v.find table).1 ∧ Shown Holds (v.find table).2 c' := by
    intro table
    refine Yields.mapped ((h.lookup hcache fun c hc => ?_).mono ?_)
    · refine (yields_of_mapped (hstands (some k) v.listing c (.find table) hc)).mono ?_
      rintro r c' ⟨hr, hc'⟩
      exact ⟨map_schema_inj hr, hc'⟩
    · rintro _ c' ⟨rfl, hc'⟩
      exact ⟨rfl, hc'⟩
  cases u with
  | ask way request =>
    cases way with
    | plain => exact hask request c h
    | cached =>
      cases request with
      | register schema =>
        exact Yields.mapped (h.change hcache fun c hc =>
          yields_of_mapped (hstands (some k) v.listing c (.register schema) hc))
      | remove table =>
        exact Yields.mapped (h.change hcache fun c hc =>
          yields_of_mapped (hstands (some k) v.listing c (.remove table) hc))
      | find table => exact hfind table
      | tableNames => exact hask .tableNames c h
  | load table => exact hfind table
  | invalidate table =>
    refine Yields.bind (Yields.modify (Yields.cache (Yields.pure ⟨rfl, hcache _ _ _ h.listing, fun other => ?_⟩)))
    refine LookupCache.known?_forget.trans ?_
    rw [h.known]
    exact update_known
  | invalidateAll =>
    refine Yields.bind (Yields.modify (Yields.cache (Yields.pure ⟨rfl, hcache _ _ _ h.listing, fun other => ?_⟩)))
    rfl

/-- What holds of each use holds of uses one after another. -/
theorem Stands.yields_useAll (hstands : Stands inner Holds) (uses : List Use) (h : Shown Holds v c) :
    Yields (some k) (inner.useAll (memoryOf k) uses) c fun r _ => r = v.history uses := by
  induction uses generalizing v c with
  | nil => exact Yields.pure rfl
  | cons u rest ih =>
    refine Yields.bind ((hstands.yields_use hcache h u).mono ?_)
    rintro _ c' ⟨rfl, hshown⟩
    refine Yields.bind ((ih hshown).mono ?_)
    rintro _ _ rfl
    exact Yields.pure rfl

end

end Tabular.Catalog
