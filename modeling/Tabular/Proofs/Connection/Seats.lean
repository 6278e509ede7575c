import Mathlib.Data.List.Nodup
import Tabular.Proofs.Relational.Dropped

/-!
# Tabular.Proofs.Connection.Seats — who holds which connection

`Seated db held` says that the connections in `held` are those in use: they are kept apart from each other
and from those that wait to be used again, and the count of connections in use is theirs.  One lemma for
each way in which a connection is taken, used and given back.
-/

namespace Tabular.Database

/-- Whether the connections that are in use are the held ones. -/
structure Seated (db : Database) (held : List Nat) : Prop where
  apart : (held ++ db.sessions.idle).Nodup
  lt : ∀ s ∈ held ++ db.sessions.idle, s < db.nextSession
  outstanding : db.sessions.outstanding = held.length

namespace Seated

variable {db after : Database} {held held' : List Nat} {session : Nat}

/-- Nobody holds a connection of a new database. -/
theorem empty (url : String) (limit waitMs : Nat) : Seated (empty url limit waitMs) [] :=
  ⟨List.nodup_nil, nofun, rfl⟩

theorem perm (h : Seated db held) (hheld : held.Perm held') : Seated db held' where
  apart := (hheld.append_right _).nodup h.apart
  lt s hs := h.lt s ((hheld.append_right _).mem_iff.2 hs)
  outstanding := h.outstanding.trans hheld.length_eq

/-- Calls on connections take and give back none. -/
theorem frame (h : Seated db held) (hframe : Frame db after) : Seated after held := by
  obtain ⟨-, hsessions, hnext⟩ := hframe
  exact ⟨hsessions ▸ h.apart, hsessions ▸ hnext ▸ h.lt, hsessions ▸ h.outstanding⟩

/-- A connection that is opened is held, and was not before. -/
theorem connect (h : Seated db held) (hnew : db.connect.1 = .ok session) :
    Seated db.connect.2 (session :: held) ∧ session ∉ held := by
  obtain ⟨hnodup, hlt, hcount⟩ := h
  unfold Database.connect Pool.taken Pool.take at hnew ⊢
  cases hidle : db.sessions.idle with
  | cons new rest =>
    rw [hidle] at hnodup hlt hnew
    cases hnew
    have hperm : (held ++ session :: rest).Perm (session :: held ++ rest) := List.perm_middle
    have hnodup' := hperm.nodup hnodup
    refine ⟨⟨hnodup', fun s hs => hlt s (hperm.mem_iff.2 hs), ?_⟩, ?_⟩
    · exact congrArg (· + 1) hcount
    · exact fun hmem => (List.nodup_cons.1 hnodup').1 (List.mem_append_left _ hmem)
  | nil =>
    rw [hidle, List.append_nil] at hnodup hlt
    by_cases hroom : db.sessions.hasRoom
    · simp only [hidle, if_pos hroom] at hnew ⊢
      cases hnew
      have hnot : db.nextSession ∉ held := fun hmem => Nat.lt_irrefl _ (hlt _ hmem)
      refine ⟨⟨?_, fun s hs => ?_, ?_⟩, hnot⟩
      · show (db.nextSession :: held ++ db.sessions.idle).Nodup
        rw [hidle, List.append_nil]
        exact List.nodup_cons.2 ⟨hnot, hnodup⟩
      · have hs : s ∈ db.nextSession :: held ++ db.sessions.idle := hs
        rw [hidle, List.append_nil] at hs
        rcases List.mem_cons.1 hs with rfl | hs
        · exact Nat.lt_succ_self _
        · exact Nat.lt_succ_of_lt (hlt s hs)
      · exact congrArg (· + 1) hcount
    · simp only [hidle, if_neg hroom] at hnew
      cases hnew

/-- Whoever is turned away waited in vain, and changes nothing. -/
theorem connect_error (h : Seated db held) {e : StoreError} (he : db.connect.1 = .error e) :
    Seated db.connect.2 held ∧ e = .poolTimeout "sql connection" db.waitMs := by
  obtain ⟨hnodup, hlt, hcount⟩ := h
  unfold Database.connect Pool.taken Pool.take at he ⊢
  cases hidle : db.sessions.idle with
  | cons new rest =>
    rw [hidle] at he
    cases he
  | nil =>
    rw [hidle] at hnodup hlt
    by_cases hroom : db.sessions.hasRoom
    · simp only [hidle, if_pos hroom] at he
      cases he
    · simp only [hidle, if_neg hroom] at he ⊢
      cases he
      exact ⟨⟨hnodup, hlt, hcount⟩, rfl⟩

/-- A connection that is closed waits to be used again. -/
theorem close (h : Seated db (session :: held)) : Seated (db.close session) held := by
  obtain ⟨hnodup, hlt, hcount⟩ := h
  have hperm : (session :: held ++ db.sessions.idle).Perm (held ++ (db.close session).sessions.idle) :=
    List.perm_middle.symm
  refine ⟨hperm.nodup hnodup, fun s hs => hlt s (hperm.mem_iff.2 hs), ?_⟩
  exact (congrArg (· - 1) hcount).trans (Nat.add_sub_cancel ..)

end Seated

variable {db : Database} {session other : Nat}

/-- What others do on their connections is nothing to what a connection keeps aside. -/
theorem staged?_perform_of_ne {call : RelationalCall} (hcall : call.session? = some other)
    (hne : other ≠ session) : (db.perform call).2.staged? session = db.staged? session := by
  have hact := staged?_act db (.call call) session
  simp only [act, Entry.turn_of_ne hcall hne] at hact
  exact hact

theorem staged?_connect_of_ne (h : db.connect.1 = .ok other) (hne : other ≠ session) :
    db.connect.2.staged? session = db.staged? session := by
  rw [staged?_connect_ok db other session h, if_neg hne]

end Tabular.Database
