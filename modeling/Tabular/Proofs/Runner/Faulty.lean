import Tabular.Proofs.Versioned.Stamped
import Tabular.Runner.Participant

/-!
# Tabular.Proofs.Runner.Faulty — a versioned store some of whose calls fail

A `Faulty` store lets planned calls fail without effect and notes all of them.  `Ends x w post` says that
`x`, started in the state `w`, ends as `post` says, with a rule for each way of putting computations
together; `Ends.ask` is the one for a call.  `After` is what a part of a computation adds to the notes.
-/

namespace Tabular

/-- A call that was asked of a store, with its failure if it failed. -/
structure Asked where
  call : VersionedCall
  failure : Option StoreError := none

/-- The first failure of some calls, or success if none of them failed. -/
def Asked.result (asked : List Asked) : Except StoreError Unit :=
  match asked.findSome? (·.failure) with
  | some e => .error e
  | none => .ok ()

theorem Asked.result_eq_ok_iff {asked : List Asked} :
    Asked.result asked = .ok () ↔ ∀ a ∈ asked, a.failure = none := by
  rw [← List.findSome?_eq_none_iff, Asked.result]
  cases asked.findSome? (·.failure) <;> simp

/-- A versioned store whose calls may fail without effect. -/
structure Faulty where
  store : VersionedStore
  /-- For each of the next calls its failure, or `none` if it works.  All later ones work. -/
  faults : List (Option StoreError)
  /-- The calls so far. -/
  asked : List Asked := []

namespace Faulty

/-- Whether no failure is planned. -/
def Working (faults : List (Option StoreError)) : Prop := ∀ fault ∈ faults, fault = none

/-- What comes of the next call. -/
def outcome (w : Faulty) (call : VersionedCall) : Except StoreError (call.Answer × VersionedStore) :=
  match w.faults.headD none with
  | some e => .error e
  | none => w.store.perform call

/-- A call and the state after it. -/
def serve (w : Faulty) (call : VersionedCall) : Except StoreError call.Answer × Faulty :=
  match w.outcome call with
  | .ok (answer, store) => (.ok answer, ⟨store, w.faults.tail, w.asked ++ [⟨call, none⟩]⟩)
  | .error e => (.error e, ⟨w.store, w.faults.tail, w.asked ++ [⟨call, some e⟩]⟩)

def access : VersionedAccess (StateM Faulty) := fun call => ExceptT.mk fun w => pure (w.serve call)

/-- What is reported is dropped. -/
instance : Journal (StateM Faulty) := ⟨fun _ => pure ()⟩

/-- Whether the calls between two states are the given ones. -/
structure After (w : Faulty) (more : List Asked) (w' : Faulty) : Prop where
  asked : w'.asked = w.asked ++ more
  /-- Calls fail only if that was planned. -/
  working : Working w.faults → Working w'.faults ∧ ∀ a ∈ more, a.failure = none

variable {w w' w'' : Faulty} {more more' : List Asked}

theorem After.refl (w : Faulty) : After w [] w := ⟨by simp, fun h => ⟨h, by simp⟩⟩

theorem After.trans (h : After w more w') (h' : After w' more' w'') : After w (more ++ more') w'' where
  asked := by rw [h'.asked, h.asked, List.append_assoc]
  working hworking := by
    obtain ⟨hworking', hmore⟩ := h.working hworking
    obtain ⟨hworking'', hmore'⟩ := h'.working hworking'
    exact ⟨hworking'', fun a ha => (List.mem_append.1 ha).elim (hmore a) (hmore' a)⟩

theorem Working.headD {faults : List (Option StoreError)} (h : Working faults) : faults.headD none = none := by
  cases faults with
  | nil => rfl
  | cons fault rest => exact h fault List.mem_cons_self

theorem Working.tail {faults : List (Option StoreError)} (h : Working faults) : Working faults.tail :=
  fun fault hfault => h fault (List.mem_of_mem_tail hfault)

/-! ### Computations -/

variable {α β : Type} {x : StateM Faulty α} {f : α → StateM Faulty β} {a : α}

/-- Whether a computation ends as a condition says. -/
def Ends (x : StateM Faulty α) (w : Faulty) (post : α → Faulty → Prop) : Prop :=
  post (x.run w).1 (x.run w).2

namespace Ends

variable {post post' : α → Faulty → Prop} {post'' : β → Faulty → Prop}

theorem mono (h : Ends x w post) (hpost : ∀ a w', post a w' → post' a w') : Ends x w post' := hpost _ _ h

theorem pure (h : post a w) : Ends (Pure.pure a) w post := h

theorem bind (h : Ends x w fun a w' => Ends (f a) w' post'') : Ends (x >>= f) w post'' := h

theorem journal {e : Event} {post : Unit → Faulty → Prop} (h : post () w) : Ends (report e) w post := h

/-- A call that a store can perform either fails without effect or is performed. -/
theorem ask {call : VersionedCall} {answer : call.Answer} {store : VersionedStore}
    {post : Except StoreError call.Answer → Faulty → Prop} (h : w.store.perform call = .ok (answer, store))
    (hfail : ∀ e w', w'.store = w.store → After w [⟨call, some e⟩] w' → post (.error e) w')
    (hdone : ∀ w', w'.store = store → After w [⟨call, none⟩] w' → post (.ok answer) w') :
    Ends (access call).run w post := by
  show post (w.serve call).1 (w.serve call).2
  rw [serve, outcome]
  cases hfault : w.faults.headD none with
  | some e =>
    refine hfail e _ rfl ⟨rfl, fun hworking => ?_⟩
    rw [hworking.headD] at hfault
    cases hfault
  | none =>
    rw [h]
    exact hdone _ rfl ⟨rfl, fun hworking => ⟨hworking.tail, by simp⟩⟩

end Ends

end Faulty

end Tabular
