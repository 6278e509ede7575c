import Tabular.Proofs.Text.Order
import Tabular.Proofs.Versioned.History

/-!
# Tabular.Proofs.Versioned.Metadata — the metadata keys with a given start

`VersionedHistory.metadata?` tells from the calls alone which text is kept under a metadata key;
`getElem?_metadata_play` says that the store keeps the same.  Main statement: `metadataKeys_exact`, the keys
listed for a start are precisely the stored ones that have it, in the order of their bytes.
-/

namespace Tabular

namespace VersionedHistory

/-- The text that the calls have left under a metadata key: the one added first since the key was deleted
last. -/
def metadata? (key : String) : VersionedHistory → Option String
  | [] => none
  | .metadataAdd other value :: earlier =>
    if other = key then (metadata? key earlier).or (some value) else metadata? key earlier
  | .metadataDelete other :: earlier => if other = key then none else metadata? key earlier
  | _ :: earlier => metadata? key earlier

end VersionedHistory

namespace VersionedStore

variable {s : VersionedStore}

theorem metadata_after_alter {call : VersionedCall} {name : String} {change : VersionedTable → VersionedTable}
    (hcall : ∀ (answer : call.Answer) (s' : VersionedStore),
      s.perform call = .ok (answer, s') → s.alter name change = .ok s') :
    (s.after call).metadata = s.metadata := by
  cases hs : s.perform call with
  | error e => rw [after_of_error hs]
  | ok result =>
    obtain ⟨t, -, hresult⟩ := alter_eq_ok_iff.1 (hcall result.1 result.2 hs)
    rw [after_of_ok hs, hresult]

theorem getElem?_metadata_add (key value other : String) :
    (s.after (.metadataAdd key value)).metadata[other]? =
      if key = other then (s.metadata[other]?).or (some value) else s.metadata[other]? := by
  cases hentry : s.metadata[key]? with
  | some text =>
    -- what is there already stays
    have hmem : key ∈ s.metadata := Std.ExtTreeMap.mem_iff_isSome_getElem?.2 (by rw [hentry]; rfl)
    have hkept : s.after (.metadataAdd key value) = s := by simp [after, perform, hmem]
    rw [hkept]
    split
    · rename_i heq
      rw [← heq, hentry, Option.some_or]
    · rfl
  | none =>
    have hnew : key ∉ s.metadata := by
      rw [Std.ExtTreeMap.mem_iff_isSome_getElem?, hentry]
      exact Bool.false_ne_true
    have hadded : (s.after (.metadataAdd key value)).metadata = s.metadata.insert key value := by
      simp [after, perform, hnew]
    rw [hadded, Std.ExtTreeMap.getElem?_insert]
    by_cases heq : key = other
    · subst heq
      simp [hentry]
    · simp [heq]

theorem getElem?_metadata_delete (key other : String) :
    (s.after (.metadataDelete key)).metadata[other]? = if key = other then none else s.metadata[other]? := by
  have hdeleted : (s.after (.metadataDelete key)).metadata = s.metadata.erase key := rfl
  rw [hdeleted, Std.ExtTreeMap.getElem?_erase]
  by_cases heq : key = other <;> simp [heq]

/-- A store keeps the metadata that the calls have left. -/
theorem getElem?_metadata_play (h : VersionedHistory) (key : String) : (play h).metadata[key]? = h.metadata? key := by
  induction h with
  | nil => exact Std.ExtTreeMap.getElem?_empty
  | cons call earlier ih =>
    rw [play]
    cases call with
    | metadataAdd other value => rw [getElem?_metadata_add, VersionedHistory.metadata?, ih]
    | metadataDelete other => rw [getElem?_metadata_delete, VersionedHistory.metadata?, ih]
    | write name row version cell =>
      rw [metadata_after_alter fun _ _ => eq_ok_of_answered]
      exact ih
    | undo name row version =>
      rw [metadata_after_alter fun _ _ => eq_ok_of_answered]
      exact ih
    | createTable name =>
      have hkept : ((play earlier).after (.createTable name)).metadata = (play earlier).metadata := by
        by_cases hname : name ∈ (play earlier).tables <;> simp [after, perform, VersionedStore.createTable, hname]
      rw [hkept]
      exact ih
    | dropTable name =>
      have hkept : ((play earlier).after (.dropTable name)).metadata = (play earlier).metadata := by
        by_cases hname : name ∈ (play earlier).tables <;> simp [after, perform, VersionedStore.dropTable, hname]
      rw [hkept]
      exact ih
    | read name row tx =>
      rw [after_of_kept fun _ _ hs => (perform_read hs).1]
      exact ih
    | scan name tx =>
      rw [after_of_kept fun _ _ hs => perform_scan hs]
      exact ih
    | tableExists name => exact ih
    | metadataGet other => exact ih
    | metadataKeys start => exact ih

theorem pairwise_keys_metadata (s : VersionedStore) : s.metadata.keys.Pairwise (· < ·) :=
  s.metadata.ordered_keys.imp compare_lt_iff_lt.1

/-- The search from the first key that does not come before a start, which ends at the first key without it,
finds every key with it. -/
theorem metadataKeys_eq_filter (s : VersionedStore) (start : String) :
    s.metadataKeys start = s.metadata.keys.filter (start.isPrefixOf ·) :=
  dropWhile_takeWhile_eq_filter s.pairwise_keys_metadata

/-- **Keys are listed by their start, precisely.**  Whatever calls a store has come about by, and whatever the
start, even none at all or one that is a key itself: the metadata keys listed for it are in strictly ascending
order of their bytes, and are precisely the keys stored whose bytes begin with those of the start.  No key is
lost by ending at the first one without the start, because after a key that does not come before the start
and does not have it, no text at all has it. -/
theorem metadataKeys_exact (h : VersionedHistory) (start : String) :
    (∀ key, (play h).perform (.metadataGet key) = .ok (h.metadata? key, play h)) ∧
    (∃ keys : List String, (play h).perform (.metadataKeys start) = .ok (keys, play h) ∧
      keys.Pairwise (fun a b => utf8 a < utf8 b) ∧ keys.Nodup ∧
      ∀ key, key ∈ keys ↔ (h.metadata? key).isSome ∧ utf8 start <+: utf8 key) ∧
    ∀ key later : String, ¬ utf8 key < utf8 start → utf8 key < utf8 later → utf8 start <+: utf8 later →
      utf8 start <+: utf8 key := by
  have hordered := ((play h).pairwise_keys_metadata.filter (start.isPrefixOf ·))
  refine ⟨fun key => by rw [← getElem?_metadata_play]; rfl, ⟨_, rfl, ?_, ?_, fun key => ?_⟩, fun key later => ?_⟩
  · rw [metadataKeys_eq_filter]
    exact hordered.imp utf8_lt_utf8
  · rw [metadataKeys_eq_filter]
    exact hordered.imp fun hlt => ne_of_lt hlt
  · rw [metadataKeys_eq_filter, List.mem_filter, Std.ExtTreeMap.mem_keys,
      Std.ExtTreeMap.mem_iff_isSome_getElem?, getElem?_metadata_play, isPrefixOf_iff, utf8_isPrefix_iff]
  · rw [utf8_lt_utf8_iff, utf8_lt_utf8_iff, utf8_isPrefix_iff, utf8_isPrefix_iff, ← isPrefixOf_iff, ← isPrefixOf_iff]
    exact isPrefixOf_of_lt

end VersionedStore

end Tabular
