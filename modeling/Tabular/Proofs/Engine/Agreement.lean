import Tabular.Proofs.Engine.Relational
import Tabular.Proofs.Engine.Versioned
import Tabular.Proofs.Work.Samples

/-!
# Tabular.Proofs.Engine.Agreement — both families are the same store

`answersOf settings timeoutMs requests` are the answers of a new process to requests one after another, if it
can build the engine that the settings ask for.  Main statement: `engines_agree`, whatever the settings, these
are the answers of the reference store.
-/

namespace Tabular.Bench

open Samples (notes note)

variable {α : Type}

/-- The answers of an engine to requests one after another, each from a thread. -/
def answers (engine : Engine SiteM) :
    List (Nat × Engine.Request α) → SiteM (List (Except StoreError (Engine.Answer α)))
  | [] => return []
  | (thread, request) :: rest => do
    let answer ← Site.onThread thread (engine.answer request).run
    return answer :: (← answers engine rest)

/-- The answers of an engine that is built first. -/
def building (settings : Settings) (wiring : Wiring SiteM) (requests : List (Nat × Engine.Request α)) :
    SiteM (Except StoreError (List (Except StoreError (Engine.Answer α)))) := do
  match ← wiring.start.run with
  | .error e => return .error e
  | .ok () =>
    let k ← Site.addEngine settings
    let engine := wiring.engine settings (.ofCell (Site.engineCell k)) Site.currentThread
    return .ok (← answers engine requests)

/-- The answers of a new process.  A coordinator that checks for conflicts lets a transaction be in progress
for `timeoutMs`. -/
def answersOf (settings : Settings) (timeoutMs : Nat) (requests : List (Nat × Engine.Request α)) :
    Except StoreError (List (Except StoreError (Engine.Answer α))) :=
  match (Site.wire settings).1 with
  | .error e => .error e
  | .ok wiring =>
    ((building settings wiring requests).run
      (Site.ofSettings settings (.ofSettings settings timeoutMs))).1

variable {i : Option Nat} {k : Nat} {c : Scene} {settings : Settings}

/-- An engine over any backend answers one request after another as the reference store does. -/
theorem Backend.Carries.answers_yields {b : Backend} {engine : Engine SiteM} (hb : b.Carries k engine)
    (requests : List (Nat × Engine.Request α)) {s : Reference} {c : Scene}
    (hnames : ∀ request ∈ requests, request.2.Unreserved) (h : Serves b.Holds s c) :
    Yields (some k) (answers engine requests) c fun r _ => r = s.answers (requests.map (·.2)) := by
  induction requests generalizing s c with
  | nil => exact Yields.pure rfl
  | cons request rest ih =>
    have hanswer := hb.answer (c := { c with thread := request.1 }) request.2 (hnames request List.mem_cons_self)
      ⟨hb.holds_thread h.holds, h.agrees⟩
    refine Yields.bind (Yields.onThread (hanswer.mono ?_))
    rintro _ c' ⟨rfl, hserves⟩
    refine Yields.bind ((ih (c := { c' with thread := c.thread })
      (fun request hrequest => hnames request (List.mem_cons_of_mem _ hrequest))
      ⟨hb.holds_thread hserves.holds, hserves.agrees⟩).mono ?_)
    rintro _ c' rfl
    exact Yields.pure rfl

/-! ### New engines -/

/-- The scene of a new engine. -/
def Scene.renewed (c : Scene) (settings : Settings) : Scene :=
  { c with cache := ∅, unfinished := [], pool := { maxSize := settings.sessionLimit }, threads := { } }

theorem Yields.addEngine {β : Type} {f : Nat → SiteM β} {P : β → Prop}
    (h : ∀ k, Yields (some k) (f k) (c.renewed settings) fun b _ => P b) :
    Yields none (Site.addEngine settings >>= f) c fun b _ => P b := by
  intro s hs
  have hshows : Site.Shows (some s.engines.size)
      { s with engines := s.engines.push (EngineState.initial settings) } (c.renewed settings) := by
    refine ⟨hs.embedded, ?_, hs.thread⟩
    rintro _ ⟨⟩
    exact Array.getElem?_push_size
  obtain ⟨c', hc', hb⟩ := h s.engines.size _ hshows
  exact ⟨c', ⟨hc'.embedded, nofun, hc'.thread⟩, hb⟩

/-- What the collaborators of a new process are. -/
def Scene.initial (settings : Settings) (timeoutMs : Nat) : Scene where
  coordinator := .ofSettings settings timeoutMs
  store := { }
  database := .empty settings.databaseUrl settings.connectionLimit settings.connectionWaitMs
  cache := ∅
  unfinished := []
  pool := { maxSize := settings.sessionLimit }
  threads := { }
  thread := 0

theorem shows_ofSettings (settings : Settings) (timeoutMs : Nat) :
    Site.Shows none (Site.ofSettings settings (.ofSettings settings timeoutMs))
      (Scene.initial settings timeoutMs) where
  embedded := rfl
  engine := nofun
  thread := rfl

theorem idle_ofSettings (settings : Settings) (timeoutMs : Nat) :
    (LocalCoordinator.ofSettings settings timeoutMs).Idle := by
  unfold LocalCoordinator.ofSettings
  split
  · trivial
  · exact ⟨rfl, rfl, rfl, rfl⟩

/-- A new versioned store serves an empty reference store. -/
theorem serves_versioned (strategy : SessionStrategy) (timeoutMs : Nat) (hlimit : 0 < settings.sessionLimit) :
    Serves (Rests strategy) { } ((Scene.initial settings timeoutMs).renewed settings) := by
  refine ⟨⟨⟨fun table => ?_, fun table => ?_, fun row q hq => ?_, nofun⟩, idle_ofSettings settings timeoutMs,
    ?_, rfl⟩, .empty⟩
  · simp [Scene.renewed, Scene.initial]
  · simp [Scene.renewed, Scene.initial, stored]
  · simp [Scene.renewed, Scene.initial, VersionedStore.cell?, VersionedStore.versions,
      VersionedTable.versions] at hq
  · cases strategy with
    | pool => exact ⟨rfl, hlimit⟩
    | perThread => simp [Free, Scene.renewed]

/-- A database with an empty registry serves an empty reference store. -/
theorem serves_relational (h : Tabled (fun _ => none) (fun _ => none) c) :
    Serves Tabled { } (c.renewed settings) :=
  ⟨⟨h.unused, h.kept⟩, .empty⟩

theorem limits_of_validate (h : settings.validate = .ok ()) :
    0 < settings.sessionLimit ∧ 0 < settings.connectionLimit := by
  rw [Settings.validate] at h
  split at h
  · cases h
  · split at h
    · cases h
    · omega

/-- What can be wired, and from which settings. -/
theorem wire_eq {wiring : Wiring SiteM} (h : (Site.wire settings).1 = .ok wiring) :
    0 < settings.sessionLimit ∧ 0 < settings.connectionLimit ∧
      ((∃ strategy, wiring = .versioned strategy Site.coordinator Site.store) ∨
        wiring = .relational Site.database) := by
  have hchosen : (Wiring.choose settings
      { coordinator := some Site.coordinator, store := some Site.store, database := some Site.database }).1 =
        .ok wiring := by
    rw [Site.wire] at h
    split at h
    · cases h
    · exact h
  cases hvalid : settings.validate with
  | error e =>
    rw [Wiring.choose, hvalid] at hchosen
    cases hchosen
  | ok u =>
    obtain ⟨hsessions, hconnections⟩ := limits_of_validate hvalid
    refine ⟨hsessions, hconnections, ?_⟩
    cases hkind : settings.storageKind with
    | error e =>
      rw [Wiring.choose, hvalid, hkind] at hchosen
      cases hchosen
    | ok kind =>
      rw [Wiring.choose, hvalid, hkind] at hchosen
      cases kind with
      | relational =>
        cases hchosen
        exact .inr rfl
      | versioned =>
        cases hstrategy : settings.sessionStrategy with
        | error e =>
          simp only [Wiring.chooseVersioned, hstrategy] at hchosen
          cases hchosen
        | ok strategy =>
          simp only [Wiring.chooseVersioned, hstrategy] at hchosen
          cases hchosen
          exact .inl ⟨strategy, rfl⟩

/-- The answers of a new process are those that building the engine there yields. -/
theorem answersOf_eq {timeoutMs : Nat} {requests : List (Nat × Engine.Request α)} {wiring : Wiring SiteM}
    {answers : List (Except StoreError (Engine.Answer α))} (hwiring : (Site.wire settings).1 = .ok wiring)
    (hbuild : Yields none (building settings wiring requests) (Scene.initial settings timeoutMs)
      fun r _ => r = .ok answers) :
    answersOf settings timeoutMs requests = .ok answers := by
  obtain ⟨-, -, hanswers⟩ := hbuild _ (shows_ofSettings settings timeoutMs)
  rw [answersOf, hwiring]
  exact hanswers

theorem Yields.buildVersioned (strategy : SessionStrategy) (timeoutMs : Nat)
    (requests : List (Nat × Engine.Request α)) (hlimit : 0 < settings.sessionLimit)
    (hnames : ∀ request ∈ requests, request.2.Unreserved) :
    Yields none (building settings (.versioned strategy Site.coordinator Site.store) requests)
      (Scene.initial settings timeoutMs) fun r _ => r = .ok (Reference.answers { } (requests.map (·.2))) := by
  refine bind (pure (addEngine fun k => bind ?_))
  refine ((versionedBackend_carries k settings.sessionWaitMs strategy).answers_yields requests hnames
    (serves_versioned strategy timeoutMs hlimit)).mono ?_
  rintro _ c' rfl
  exact pure rfl

theorem Yields.buildRelational (timeoutMs : Nat) (requests : List (Nat × Engine.Request α))
    (hlimit : 0 < settings.connectionLimit) (hnames : ∀ request ∈ requests, request.2.Unreserved) :
    Yields none (building settings (.relational Site.database) requests)
      (Scene.initial settings timeoutMs) fun r _ => r = .ok (Reference.answers { } (requests.map (·.2))) := by
  refine bind (action (look fun process _ => pure (reporting ?_)))
  refine (prepare hlimit rfl).mono ?_
  rintro _ c ⟨rfl, htabled, -⟩
  refine addEngine fun k => bind ?_
  refine ((relationalBackend_carries k).answers_yields requests hnames (serves_relational htabled)).mono ?_
  rintro _ c' rfl
  exact pure rfl

/-- **The two families are the same store.**  Whatever the settings, if an engine can be built for them, it answers
requests of any kind, one after another and each from any thread, as the reference store does, as long as none of
them is to create the table that a catalog is kept in. -/
theorem engines_agree (settings : Settings) (timeoutMs : Nat) (requests : List (Nat × Engine.Request α))
    (hwire : (Site.wire settings).1.isOk) (hnames : ∀ request ∈ requests, request.2.Unreserved) :
    answersOf settings timeoutMs requests = .ok (Reference.answers { } (requests.map (·.2))) := by
  obtain ⟨wiring, hwiring⟩ : ∃ wiring, (Site.wire settings).1 = .ok wiring := by
    cases h : (Site.wire settings).1 with
    | ok wiring => exact ⟨wiring, rfl⟩
    | error e =>
      rw [h] at hwire
      cases hwire
  obtain ⟨hsessions, hconnections, ⟨strategy, rfl⟩ | rfl⟩ := wire_eq hwiring
  · exact answersOf_eq hwiring (.buildVersioned strategy timeoutMs requests hsessions hnames)
  · exact answersOf_eq hwiring (.buildRelational timeoutMs requests hconnections hnames)

/-! ### A run of both families -/

/-- The unit of work that counts the notes. -/
def countNotes : Work Id Nat := (Work.call (.scan "notes")).andThen fun rows => .done (.ok rows.length)

/-- One note is kept, another one is lost to a panic, and a new table starts without notes. -/
def takingNotes : List (Nat × Engine.Request Nat) :=
  [(1, .createTable notes),
    (1, .run ((Work.call (.upsert "notes" (note 1))).andThen fun _ => .done (.ok 7))),
    (2, .run ((Work.call (.upsert "notes" (note 2))).andThen fun _ => Work.fail (.panic none))),
    (2, .run countNotes),
    (1, .dropTable "orders"),
    (3, .dropTable "notes"),
    (3, .createTable notes),
    (1, .run countNotes)]

/-- What is answered meanwhile. -/
def notesTaken : List (Except StoreError (Engine.Answer Nat)) :=
  [.ok .done, .ok (.value 7), .error (.workPanicked "unknown panic"), .ok (.value 1),
    .error (.tableNotFound "orders"), .ok .done, .ok .done, .ok (.value 0)]

theorem answers_takingNotes : Reference.answers { } (takingNotes.map (·.2)) = notesTaken := by rfl

/-- Both families take notes alike, with a coordinator that checks for conflicts as with one that does
not. -/
theorem engines_agree_takingNotes :
    answersOf { storage := some "nosql" } defaultTimeoutMs takingNotes = .ok notesTaken ∧
      answersOf { storage := some "nosql", strategy := "thread-local", noConflictCheck := true }
        defaultTimeoutMs takingNotes = .ok notesTaken ∧
      answersOf { storage := some "sql", connectionLimit := 1 } defaultTimeoutMs takingNotes =
        .ok notesTaken := by
  have hnames : ∀ request ∈ takingNotes, request.2.Unreserved := by decide
  rw [← answers_takingNotes]
  exact ⟨engines_agree _ _ _ (by decide +kernel) hnames, engines_agree _ _ _ (by decide +kernel) hnames,
    engines_agree _ _ _ (by decide +kernel) hnames⟩

end Tabular.Bench
