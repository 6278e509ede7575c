import Tabular.Catalog.Keyed
import Tabular.Proofs.Definition.Standing
import Tabular.Relational.Basic
import Tabular.Versioned.Basic

/-!
# Tabular.Proofs.Definition.Backends — the collaborators of a definition

A call to a collaborator does what the collaborator does, or fails without effect.  Main definition:
`Backends.standing`, which tables of either family have storage and an entry in the catalog.
-/

namespace Tabular

theorem TableSchema.ofDocument_error {document : String} {e : StoreError}
    (h : ofDocument document = .error e) : ∃ reason, e = .serialization reason := by
  unfold ofDocument at h
  cases hread : Json.readAll form.read document with
  | ok schema =>
    rw [hread] at h
    cases h
  | error fault =>
    rw [hread] at h
    cases h
    exact ⟨_, rfl⟩

/-- A document that cannot be read says nothing about which tables there are. -/
theorem TableSchema.ofDocumentChecked_error {document : String} {e : StoreError}
    (h : ofDocumentChecked document = .error e) :
    (∀ name, e ≠ .tableNotFound name) ∧ e.isConsistency = false := by
  unfold ofDocumentChecked at h
  cases hdocument : ofDocument document with
  | error e' =>
    rw [hdocument] at h
    cases h
    obtain ⟨reason, rfl⟩ := ofDocument_error hdocument
    exact ⟨nofun, rfl⟩
  | ok schema =>
    rw [hdocument] at h
    cases hvalid : schema.validate with
    | ok =>
      simp only [hvalid, bind, Except.bind] at h
      cases h
    | error e' =>
      simp only [hvalid, bind, Except.bind] at h
      cases h
      obtain ⟨reason, rfl⟩ := validate_error hvalid
      exact ⟨nofun, rfl⟩

namespace Definition

open Sharing

/-! ### Collaborators -/

/-- What the collaborators of a definition are asked. -/
inductive BackendCall where
  | store (c : VersionedCall)
  | perform (c : RelationalCall)
  | close (session : Nat)
  | inTransaction (session : Nat)
  | describe

/-- What they answer. -/
abbrev BackendCall.Reply : BackendCall → Type
  | store c => Except StoreError c.Answer
  | perform c => Except StoreError c.Answer
  | close _ => Unit
  | inTransaction _ => Bool
  | describe => String

/-- The collaborators of either family. -/
structure Backends where
  store : VersionedStore
  database : Database

namespace Backends

/-- What may become of a call: what is asked for, or an outage without effect. -/
def Answers (b : Backends) : (c : BackendCall) → c.Reply → Backends → Prop
  | .store c, r, b' =>
    (∃ e, Outage e ∧ r = .error e ∧ b' = b) ∨
      match b.store.perform c with
      | .ok (a, store) => r = .ok a ∧ b' = { b with store }
      | .error e => r = .error e ∧ b' = b
  | .perform c, r, b' =>
    (∃ e, Outage e ∧ r = .error e ∧ b' = b) ∨
      r = (b.database.perform c).1 ∧ b' = { b with database := (b.database.perform c).2 }
  | .close session, _, b' => b' = { b with database := b.database.close session }
  | .inTransaction session, r, b' => r = (b.database.staged? session).isSome ∧ b' = b
  | .describe, r, b' => r = b.database.url ∧ b' = b

theorem exists_answers (b : Backends) (c : BackendCall) : ∃ r b', b.Answers c r b' := by
  cases c with
  | store c => exact ⟨_, b, .inl ⟨.connection "lost", trivial, rfl, rfl⟩⟩
  | perform c => exact ⟨_, _, .inr ⟨rfl, rfl⟩⟩
  | close session => exact ⟨(), _, rfl⟩
  | inTransaction session => exact ⟨_, b, rfl, rfl⟩
  | describe => exact ⟨_, b, rfl, rfl⟩

end Backends

/-- A computation around a cache that calls the collaborators. -/
abbrev BackendProgram : Type → Type 1 := Program LookupCache BackendCall.Reply

/-- A cache, and the collaborators behind it. -/
abbrev BackendPlace := Place LookupCache Backends

def askedStore : VersionedAccess BackendProgram := fun c => ExceptT.mk (call (BackendCall.store c))

def askedDatabase : RelationalAccess BackendProgram where
  perform c := ExceptT.mk (call (BackendCall.perform c))
  close session := call (BackendCall.close session)
  inTransaction session := call (BackendCall.inTransaction session)
  describe := call BackendCall.describe

/-- What the storage of a table holds. -/
abbrev Content : StorageKind → Type
  | .versioned => VersionedTable
  | .relational => Rows

/-- What the entry of a table is. -/
abbrev Entry : StorageKind → Type
  | .versioned => String
  | .relational => Row

/-- What the collaborators of a family hold.  The table of the catalog itself does not count. -/
def Backends.standing (b : Backends) : (kind : StorageKind) → Standing (Content kind) (Entry kind)
  | .versioned => ⟨fun table => b.store.tables[table]?, fun table => b.store.metadata[Catalog.entryKey table]?⟩
  | .relational =>
    ⟨fun table => if table = Catalog.catalogTable then none else b.database.tables[table]?,
      fun table => b.database.tables[Catalog.catalogTable]?.bind (·[Catalog.rowKey table]?)⟩

/-- Whether the collaborators of a family are prepared: the catalog has its table, which is not listed. -/
def Backends.Prepared (b : Backends) : StorageKind → Prop
  | .versioned => True
  | .relational =>
    Catalog.catalogTable ∈ b.database.tables ∧ (b.standing .relational).entries Catalog.catalogTable = none

variable {w w' : BackendPlace}

theorem ends_store {c : VersionedCall} {r : Except StoreError c.Answer} :
    Ends Backends.Answers (askedStore c).run w r w' ↔
      ∃ b, w.outside.Answers (.store c) r b ∧ w' = { w with outside := b } := ends_call

theorem ends_perform {c : RelationalCall} {r : Except StoreError c.Answer} :
    Ends Backends.Answers (askedDatabase.perform c).run w r w' ↔
      ∃ b, w.outside.Answers (.perform c) r b ∧ w' = { w with outside := b } := ends_call

/-- What may come of an attempt on the collaborators of a family. -/
abbrev BackendComes (kind : StorageKind) {α : Type} (x : Attempt BackendProgram α)
    (Q : Standing (Content kind) (Entry kind) → Except StoreError α → Standing (Content kind) (Entry kind) →
      Prop) : Prop :=
  Comes Backends.Answers (·.standing kind) (·.Prepared kind) x Q

end Definition

end Tabular
