import Tabular.Proofs.Interaction.Attempts
import Tabular.Proofs.Interleaving.Phase

/-!
# Tabular.Proofs.Interleaving.Work — what a unit of work does in a transaction

`LooksOnly tx known post x participants` says that table operations only look at what is shared, and that
`post` holds of what comes of them, if their answers are `known`.  `runs_join` and `runs_lookup` say what
opening a table and looking up a row come to.  Main statement: `fresh_working`, a unit of work in a
transaction looks and writes nothing.
-/

namespace Tabular.Interleaving

open Interaction (Follows Runs Leads)

/-- Whether table operations only look, and `post` holds of what comes of them and of the participants
in the end, if their answers are known. -/
abbrev LooksOnly {β : Type} (tx : Transaction) (known : Step → Prop)
    (post : Except StoreError β → Participants → Prop) (x : Attempt (StateT Participants Program) β)
    (participants : Participants) : Prop :=
  Runs (fun (_ : Unit) step _ => Looks tx step) known (fun _ => post) () x participants

instance : Interaction.Unread Program := ⟨fun _ => rfl⟩

variable {β γ : Type} {tx : Transaction} {known : Step → Prop} {participants : Participants}

/-! ### Tables -/

/-- Opening a table answers its participant, which joins when it is not there yet. -/
theorem runs_join (table : String) :
    LooksOnly tx known
      (fun r after => match r with
        | .ok p => (participants[table]? = some p ∧ after = participants) ∨
            (participants[table]? = none ∧ after = participants.insert table p ∧
              ∃ schema : { schema : TableSchema // schema.name = table },
                p = { schema := schema.1 } ∧ known (.asked (.find table) (.ok schema)))
        | .error _ => after = participants)
      (shared.join tx table) participants := by
  unfold Coordinated.join
  refine Runs.get ?_
  cases hp : participants[table]? with
  | some p => exact .inl ⟨rfl, rfl⟩
  | none =>
    refine Follows.ask fun answer hknown => ⟨(), trivial, ?_⟩
    cases answer with
    | error e => exact rfl
    | ok schema => exact .inr ⟨rfl, rfl, schema, rfl, hknown⟩

/-- A row is looked up among the changes first, and in the store if it is not changed. -/
theorem follows_lookup (p : Participant) (key : RowKey) :
    Follows (fun (_ : Unit) step _ => Looks tx step) known
      (fun _ r => match p.writes[key]? with
        | some cell => r = .ok cell
        | none => ∀ row, r = .ok row → known (.asked (.store (.read p.schema.name key tx)) (.ok row)))
      () (shared.lookup tx p key).run := by
  unfold Coordinated.lookup
  cases p.writes[key]? with
  | some cell => exact rfl
  | none =>
    refine Follows.ask fun answer hknown => ⟨(), rfl, ?_⟩
    rintro row rfl
    exact hknown

/-! ### Nothing is written -/

theorem runs_join_fresh (h : Fresh participants) (table : String) :
    LooksOnly tx known
      (fun r after => Fresh after ∧ ∀ p, r = .ok p → p.schema.name = table ∧ p.persisted = [])
      (shared.join tx table) participants := by
  refine (runs_join table).mono fun _ r after hjoin => ?_
  cases r with
  | error e => exact ⟨hjoin ▸ h, nofun⟩
  | ok p =>
    rcases hjoin with ⟨hp, rfl⟩ | ⟨-, rfl, schema, rfl, -⟩
    · refine ⟨h, ?_⟩
      rintro _ ⟨⟩
      exact h table p hp
    · refine ⟨h.insert schema.2 rfl, ?_⟩
      rintro _ ⟨⟩
      exact ⟨schema.2, rfl⟩

/-- A table operation only looks, and no participant writes. -/
theorem runs_attempt_fresh (h : Fresh participants) (call : TableCall) :
    LooksOnly tx known (fun _ after => Fresh after) (shared.attempt tx call) participants := by
  have hof : ∀ {β : Type} {r : Except StoreError β} {after : Participants}, Fresh after →
      LooksOnly tx known (fun _ after => Fresh after) (Attempt.of r) after :=
    fun hafter => hafter
  have hlookup : ∀ {after : Participants} (p : Participant) (key : RowKey), Fresh after →
      LooksOnly tx known (fun _ after => Fresh after) (shared.lookup tx p key).lifted after :=
    fun p key hafter => Runs.lifted (Follows.mono (follows_lookup p key) fun _ _ _ => hafter)
  have hhold : ∀ {table : String} {after : Participants} {p : Participant},
      p.schema.name = table ∧ p.persisted = [] → Fresh after → ∀ key cell,
        LooksOnly tx known (fun _ after => Fresh after) (Coordinated.hold table p key cell) after :=
    fun hp hafter key cell => hafter.insert hp.1 hp.2
  cases call with
  | visit table =>
    exact (runs_join_fresh h table).andThen (fun _ _ _ h => h.1) fun _ _ _ h => h.1
  | schema table =>
    exact (runs_join_fresh h table).andThen (fun _ _ _ h => h.1) fun _ _ _ h => h.1
  | upsert table row =>
    refine (runs_join_fresh h table).andThen ?_ fun _ _ _ h => h.1
    rintro - p after ⟨hafter, hp⟩
    refine (hof hafter).andThen ?_ fun _ _ _ => id
    intro _ key after hafter
    refine (hlookup p key hafter).andThen ?_ fun _ _ _ => id
    intro _ existing after hafter
    refine (hof hafter).andThen ?_ fun _ _ _ => id
    exact fun _ merged after hafter => hhold (hp p rfl) hafter key (some merged)
  | read table key =>
    refine (runs_join_fresh h table).andThen ?_ fun _ _ _ h => h.1
    rintro - p after ⟨hafter, -⟩
    refine (hof hafter).andThen ?_ fun _ _ _ => id
    exact fun _ key after hafter => hlookup p key hafter
  | delete table key =>
    refine (runs_join_fresh h table).andThen ?_ fun _ _ _ h => h.1
    rintro - p after ⟨hafter, hp⟩
    refine (hof hafter).andThen ?_ fun _ _ _ => id
    exact fun _ key after hafter => hhold (hp p rfl) hafter key none
  | scan table =>
    refine (runs_join_fresh h table).andThen ?_ fun _ _ _ h => h.1
    rintro - p after ⟨hafter, -⟩
    have hscan : LooksOnly tx known (fun _ after => Fresh after)
        (Attempt.lifted (shared.store (.scan p.schema.name tx))) after :=
      Runs.lifted (Follows.ask fun answer _ => ⟨(), rfl, hafter⟩)
    exact hscan.andThen (fun _ _ _ => id) fun _ _ _ => id

/-- A unit of work in a transaction only looks, and no participant writes. -/
theorem fresh_perform {α : Type} (work : Work Elsewhere α) (h : Fresh participants) :
    Follows (fun (_ : Unit) step _ => Looks tx step) known (fun _ r => Fresh r.2) ()
      (((lifted work).perform (shared.tables tx)).run participants) := by
  induction work generalizing participants with
  | done r => exact h
  | act x next ih => exact fun outcome _ => ⟨(), trivial, ih outcome h⟩
  | ask call next ih =>
    exact Follows.bind (p := (shared.attempt tx call).run participants) (runs_attempt_fresh h call)
      fun _ r hr => ih r.1 hr

/-- What a unit of work holds back where it ends is what it has not written yet. -/
theorem fresh_of_leads {α : Type} {work : Work Elsewhere α} {steps : List Step}
    {r : Except Failure α} {held : Participants} (h : (working work tx).Leads steps (.done (r, held))) :
    Fresh held := by
  obtain ⟨_, -, hfresh⟩ := (fresh_perform work Fresh.empty).leads h fun _ _ => trivial
  exact hfresh

/-- The steps of a unit of work are moves, and it is known where they have led. -/
theorem obeys_working {α : Type} {work : Work Elsewhere α} {steps : List Step}
    {p : Program (Except Failure α × Participants)} (h : (working work tx).Leads steps p)
    (hlooks : Follows (fun (_ : Unit) step _ => Looks tx step) (fun _ => True) (fun _ r => Fresh r.2) ()
      p) :
    Follows (Move work) (fun _ => True)
      (fun φ r => ∃ steps, φ = .working tx steps ∧ (working work tx).Leads steps (.done r) ∧ Fresh r.2)
      (.working tx steps) p := by
  induction p generalizing steps with
  | done r => exact ⟨steps, rfl, h, hlooks⟩
  | act x next ih =>
    intro outcome _
    obtain ⟨_, hlook, hnext⟩ := hlooks outcome trivial
    exact ⟨_, .look hlook, ih outcome (h.step (.met x next outcome)) hnext⟩
  | ask call next ih =>
    intro answer _
    obtain ⟨_, hlook, hnext⟩ := hlooks answer trivial
    exact ⟨_, .look hlook, ih answer (h.step (.asked call next answer)) hnext⟩

end Tabular.Interleaving
