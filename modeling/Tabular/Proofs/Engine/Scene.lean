import Tabular.Bench.Site

/-!
# Tabular.Proofs.Engine.Scene — a small logic for engines in a process

A `Scene` is what an engine and its collaborators can tell of a process: it leaves out the journal and
whatever they never touch.  `Yields i x c post` says that `x`, from any process in which the engine of
index `i` is in the scene `c`, ends with an answer and a scene of which `post` holds; without an index the
scene is that of the collaborators alone.  There is a rule for each way of putting computations together,
and one for each access.
-/

namespace Tabular.Bench

/-- What an engine and its collaborators can tell of a process. -/
structure Scene where
  coordinator : LocalCoordinator
  store : VersionedStore
  database : Database
  cache : LookupCache
  unfinished : List Unfinished
  pool : Pool Nat
  threads : ThreadSessions
  thread : Nat

/-- What the engine of a scene remembers. -/
def Scene.engine (c : Scene) : EngineState := ⟨c.cache, c.unfinished, c.pool, c.threads⟩

/-- Whether a process is in a scene, as far as its collaborators and the engine of an index are concerned. -/
structure Site.Shows (i : Option Nat) (s : Site) (c : Scene) : Prop where
  embedded : s.embedded = ⟨c.coordinator, c.store, c.database⟩
  engine : ∀ k, i = some k → s.engines[k]? = some c.engine
  thread : s.thread = c.thread

/-- Whether a computation ends with an answer and a scene of which `post` holds. -/
def Yields {β : Type} (i : Option Nat) (x : SiteM β) (c : Scene) (post : β → Scene → Prop) : Prop :=
  ∀ s : Site, s.Shows i c → ∃ c', (x.run s).2.Shows i c' ∧ post (x.run s).1 c'

namespace Yields

variable {β γ : Type} {i : Option Nat} {c : Scene}

section Basic

variable {post post' : β → Scene → Prop} {x : SiteM β}

theorem mono (h : Yields i x c post) (hpost : ∀ b c', post b c' → post' b c') : Yields i x c post' := by
  intro s hs
  obtain ⟨c', hc', hb⟩ := h s hs
  exact ⟨c', hc', hpost _ _ hb⟩

theorem pure {b : β} (h : post b c) : Yields i (pure b) c post := fun _ hs => ⟨c, hs, h⟩

/-- The rule for sequencing. -/
theorem bind {f : β → SiteM γ} {post : γ → Scene → Prop}
    (h : Yields i x c fun b c' => Yields i (f b) c' post) : Yields i (x >>= f) c post := by
  intro s hs
  obtain ⟨c', hc', hf⟩ := h s hs
  exact hf _ hc'

theorem map {f : β → γ} {post : γ → Scene → Prop} (h : Yields i x c fun b c' => post (f b) c') :
    Yields i (f <$> x) c post := h

/-- Nobody looks at the journal. -/
theorem report {event : Event} {post : Unit → Scene → Prop} (h : post () c) :
    Yields i (report event) c post := fun _ hs => ⟨c, ⟨hs.embedded, hs.engine, hs.thread⟩, h⟩

theorem reportAll {events : List Event} {post : Unit → Scene → Prop} (h : post () c) :
    Yields i (reportAll events) c post := by
  induction events with
  | nil => exact pure h
  | cons event rest ih => exact bind (report ih)

end Basic

/-! ### Attempts -/

section Attempts

variable {x : Attempt SiteM β} {post : Except StoreError β → Scene → Prop}
  {post' : Except StoreError γ → Scene → Prop}

/-- The rule for sequencing: an attempt that fails ends the whole. -/
theorem andThen {f : β → Attempt SiteM γ}
    (h : Yields i x.run c fun r c' => match r with
      | .ok b => Yields i (f b).run c' post'
      | .error e => post' (.error e) c') : Yields i (x >>= f).run c post' := by
  show Yields i (x.run >>= ExceptT.bindCont f) c post'
  refine bind (h.mono ?_)
  rintro (e | b) c' hr
  · exact pure hr
  · exact hr

theorem outcome {f : Except StoreError β → Attempt SiteM γ}
    (h : Yields i x.run c fun r c' => Yields i (f r).run c' post') :
    Yields i (x.outcome >>= f).run c post' :=
  andThen (x := x.outcome) (map (x := x.run) h)

/-- An action of the process within an attempt. -/
theorem action {y : SiteM β} {f : β → Attempt SiteM γ}
    (h : Yields i y c fun b c' => Yields i (f b).run c' post') :
    Yields i ((liftM y : Attempt SiteM β) >>= f).run c post' :=
  andThen (x := liftM y) (map (x := y) h)

theorem reporting {event : Event} {f : Unit → Attempt SiteM γ} (h : Yields i (f ()).run c post') :
    Yields i ((Tabular.report event : Attempt SiteM Unit) >>= f).run c post' :=
  action (report h)

theorem mapped {f : β → γ} (h : Yields i x.run c fun r c' => post' (f <$> r) c') :
    Yields i (f <$> x).run c post' := by
  rw [ExceptT.run_map]
  exact map h

theorem of {r : Except StoreError β} (h : post r c) : Yields i (Attempt.of r).run c post := pure h

theorem reported {event : Event} {post : Except StoreError Unit → Scene → Prop} (h : post (.ok ()) c) :
    Yields i (Tabular.report event : Attempt SiteM Unit).run c post :=
  map (x := Tabular.report event) (report h)

theorem restated {restate : StoreError → StoreError}
    (h : Yields i x.run c fun r c' => post (r.mapError restate) c') :
    Yields i (x.mapError restate).run c post := map h

end Attempts

/-! ### Accesses -/

section Accesses

/-- Looking at the process shows nothing but the scene. -/
theorem look {f : Site → SiteM γ} {post : γ → Scene → Prop}
    (h : ∀ s : Site, s.Shows i c → Yields i (f s) c post) : Yields i (get >>= f) c post :=
  fun s hs => h s hs s hs

theorem modifyEmbedded {change : Embedded → Embedded} {d : Scene} {post : Unit → Scene → Prop}
    (hchange : change ⟨c.coordinator, c.store, c.database⟩ = ⟨d.coordinator, d.store, d.database⟩)
    (hengine : d.engine = c.engine) (hthread : d.thread = c.thread) (h : post () d) :
    Yields i (Site.modifyEmbedded change) c post := by
  intro s hs
  refine ⟨d, ⟨?_, fun k hk => hengine ▸ hs.engine k hk, hthread ▸ hs.thread⟩, h⟩
  rw [← hchange, ← hs.embedded]
  rfl

/-- A coordinator within the process answers as it is. -/
theorem coordinator {call : CoordinatorCall} {r : Except StoreError call.Answer} {after : LocalCoordinator}
    {post : Except StoreError call.Answer → Scene → Prop}
    (hperform : c.coordinator.perform 0 call = (r, after)) (h : post r { c with coordinator := after }) :
    Yields i (Site.coordinator call).run c post := by
  have h' : post (c.coordinator.perform 0 call).1
      { c with coordinator := (c.coordinator.perform 0 call).2 } := by rwa [hperform]
  refine look fun s hs => bind (reportAll (bind ?_))
  rw [hs.embedded]
  exact modifyEmbedded (d := { c with coordinator := (c.coordinator.perform 0 call).2 }) rfl rfl rfl
    (pure h')

theorem store {call : VersionedCall} {a : call.Answer} {t : VersionedStore}
    {post : Except StoreError call.Answer → Scene → Prop} (hperform : c.store.perform call = .ok (a, t))
    (h : post (.ok a) { c with store := t }) : Yields i (Site.store call).run c post := by
  refine look fun s hs => bind (reportAll ?_)
  have hstore : s.embedded.store.perform call = .ok (a, t) := by rw [hs.embedded, hperform]
  rw [hstore]
  refine bind (modifyEmbedded (d := { c with store := t }) ?_ rfl rfl (pure h))
  rfl

theorem database {call : RelationalCall} {r : Except StoreError call.Answer} {d : Database}
    {post : Except StoreError call.Answer → Scene → Prop} (hperform : c.database.perform call = (r, d))
    (h : post r { c with database := d }) : Yields i (Site.database.perform call).run c post := by
  have h' : post (c.database.perform call).1 { c with database := (c.database.perform call).2 } := by
    rwa [hperform]
  refine look fun s hs => bind (reportAll (bind ?_))
  rw [hs.embedded]
  exact modifyEmbedded (d := { c with database := (c.database.perform call).2 }) rfl rfl rfl (pure h')

theorem close {session : Nat} {post : Unit → Scene → Prop}
    (h : post () { c with database := c.database.close session }) :
    Yields i (Site.database.close session) c post := by
  refine look fun s hs => bind (reportAll ?_)
  rw [hs.embedded]
  exact modifyEmbedded (d := { c with database := c.database.close session }) rfl rfl rfl h

theorem currentThread {post : Nat → Scene → Prop} (h : post c.thread c) :
    Yields i Site.currentThread c post := by
  refine map (x := get) fun s hs => ⟨c, hs, ?_⟩
  rw [← hs.thread] at h
  exact h

section Cells

variable {k : Nat}

/-- Changing what the engine remembers. -/
theorem engineCell {change : EngineState → EngineState} {d : Scene} {post : EngineState → Scene → Prop}
    (hchange : change c.engine = d.engine)
    (hcollaborators : (⟨c.coordinator, c.store, c.database⟩ : Embedded) =
      ⟨d.coordinator, d.store, d.database⟩)
    (hthread : d.thread = c.thread) (h : post c.engine d) :
    Yields (some k) ((Site.engineCell k).update change) c post := by
  intro s hs
  have hengine := hs.engine k rfl
  have hstate : (s.engines[k]?).getD default = c.engine := by
    rw [hengine]
    rfl
  refine ⟨d, ⟨hs.embedded.trans hcollaborators, ?_, hthread ▸ hs.thread⟩, ?_⟩
  · rintro _ ⟨⟩
    show (s.engines.modify k change)[k]? = some d.engine
    rw [Array.getElem?_modify, if_pos rfl, hengine, ← hchange]
    rfl
  · show post ((s.engines[k]?).getD default) d
    rwa [hstate]

theorem modify {σ : Type} {cell : Cell SiteM σ} {change : σ → σ} {post : Unit → Scene → Prop}
    (h : Yields i (cell.update change) c fun _ c' => post () c') : Yields i (cell.modify change) c post :=
  map (x := cell.update change) h

theorem cache {change : LookupCache → LookupCache} {post : LookupCache → Scene → Prop}
    (h : post c.cache { c with cache := change c.cache }) :
    Yields (some k) ((EngineCells.ofCell (Site.engineCell k)).cache.update change) c post :=
  map (engineCell (d := { c with cache := change c.cache }) rfl rfl rfl h)

theorem unfinished {change : List Unfinished → List Unfinished} {post : List Unfinished → Scene → Prop}
    (h : post c.unfinished { c with unfinished := change c.unfinished }) :
    Yields (some k) ((EngineCells.ofCell (Site.engineCell k)).unfinished.update change) c post :=
  map (engineCell (d := { c with unfinished := change c.unfinished }) rfl rfl rfl h)

theorem pool {change : Pool Nat → Pool Nat} {post : Pool Nat → Scene → Prop}
    (h : post c.pool { c with pool := change c.pool }) :
    Yields (some k) ((EngineCells.ofCell (Site.engineCell k)).pool.update change) c post :=
  map (engineCell (d := { c with pool := change c.pool }) rfl rfl rfl h)

theorem threads {change : ThreadSessions → ThreadSessions} {post : ThreadSessions → Scene → Prop}
    (h : post c.threads { c with threads := change c.threads }) :
    Yields (some k) ((EngineCells.ofCell (Site.engineCell k)).threads.update change) c post :=
  map (engineCell (d := { c with threads := change c.threads }) rfl rfl rfl h)

end Cells

/-- What runs on another thread sees the same scene but for the thread. -/
theorem onThread {x : SiteM β} {thread : Nat} {post : β → Scene → Prop}
    (h : Yields i x { c with thread } fun b c' => post b { c' with thread := c.thread }) :
    Yields i (Site.onThread thread x) c post := by
  intro s hs
  obtain ⟨c', hc', hb⟩ := h { s with thread } ⟨hs.embedded, hs.engine, rfl⟩
  exact ⟨{ c' with thread := c.thread }, ⟨hc'.embedded, hc'.engine, hs.thread⟩, hb⟩

end Accesses

end Yields

end Tabular.Bench
