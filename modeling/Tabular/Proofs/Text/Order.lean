import Mathlib.Data.String.Basic
import Mathlib.Order.Basic

/-!
# Tabular.Proofs.Text.Order — texts are compared byte by byte

Texts are ordered character by character.  Main statements: `utf8_lt_utf8_iff`, this is the order of their
bytes; `utf8_isPrefix_iff`, a text begins with another one just if its bytes do; and
`dropWhile_takeWhile_eq_filter`, in ascending order those with a given start stand together.
-/

namespace Tabular

/-- The bytes of a text. -/
def utf8 (s : String) : List UInt8 := s.toByteArray.data.toList

theorem utf8_eq (s : String) : utf8 s = s.toList.flatMap String.utf8EncodeChar := by
  have h : s.toByteArray = s.toList.utf8Encode := by
    conv_lhs => rw [← String.ofList_toList (s := s)]
    rfl
  rw [utf8, h, List.utf8Encode, List.toList_data_toByteArray]

/-- The first byte in which two characters differ decides as the characters do, whatever follows. -/
theorem utf8EncodeChar_append_lt {c d : Char} (h : c < d) (as bs : List UInt8) :
    String.utf8EncodeChar c ++ as < String.utf8EncodeChar d ++ bs := by
  have hlt : c.val.toNat < d.val.toNat := h
  have hd : d.val.toNat < 0x110000 := by
    rcases d.valid with hd | hd
    · exact Nat.lt_trans hd (by decide)
    · exact hd.2
  simp only [String.utf8EncodeChar]
  generalize c.val.toNat = v at hlt
  generalize d.val.toNat = w at hlt hd
  -- by the numbers of bytes of the two; where these differ, the first byte tells
  split_ifs <;>
    simp only [List.cons_append, List.nil_append, List.cons_lt_cons_iff, UInt8.lt_iff_toNat_lt,
      ← UInt8.toNat_inj, UInt8.toNat_ofNat'] <;>
    simp (disch := omega) only [Nat.mod_eq_of_lt] <;> omega

theorem flatMap_utf8EncodeChar_lt : ∀ {cs ds : List Char}, cs < ds →
    cs.flatMap String.utf8EncodeChar < ds.flatMap String.utf8EncodeChar
  | _, [], h => absurd h (List.not_lt_nil _)
  | [], d :: ds, _ => by
    obtain ⟨byte, bytes, hd⟩ := List.exists_cons_of_ne_nil (String.utf8EncodeChar_ne_nil (c := d))
    rw [List.flatMap_cons, hd]
    exact List.nil_lt_cons _ _
  | c :: cs, d :: ds, h => by
    rw [List.flatMap_cons, List.flatMap_cons]
    rcases List.cons_lt_cons_iff.1 h with hlt | ⟨rfl, hlt⟩
    · exact utf8EncodeChar_append_lt hlt _ _
    · exact List.append_left_lt (flatMap_utf8EncodeChar_lt hlt)

/-- Comparing texts character by character is comparing their bytes. -/
theorem utf8_lt_utf8 {s t : String} (h : s < t) : utf8 s < utf8 t := by
  rw [utf8_eq, utf8_eq]
  exact flatMap_utf8EncodeChar_lt (String.lt_iff_toList_lt.1 h)

theorem utf8_lt_utf8_iff {s t : String} : utf8 s < utf8 t ↔ s < t := by
  refine ⟨fun h => ?_, utf8_lt_utf8⟩
  rcases lt_trichotomy s t with hlt | rfl | hlt
  · exact hlt
  · exact absurd h (List.lt_irrefl _)
  · exact absurd h (List.lt_asymm (utf8_lt_utf8 hlt))

/-- The bytes of two characters with which equal bytes begin are those of the same character. -/
theorem eq_of_utf8EncodeChar_append_eq {c d : Char} {as bs : List UInt8}
    (h : String.utf8EncodeChar c ++ as = String.utf8EncodeChar d ++ bs) : c = d := by
  rcases lt_trichotomy c d with hlt | heq | hlt
  · exact absurd (h ▸ utf8EncodeChar_append_lt hlt as bs) (List.lt_irrefl _)
  · exact heq
  · exact absurd (h ▸ utf8EncodeChar_append_lt hlt bs as) (List.lt_irrefl _)

theorem flatMap_utf8EncodeChar_isPrefix : ∀ {cs ds : List Char},
    cs.flatMap String.utf8EncodeChar <+: ds.flatMap String.utf8EncodeChar → cs <+: ds
  | [], _, _ => List.nil_prefix
  | c :: cs, [], h => by
    rw [List.flatMap_cons, List.flatMap_nil, List.prefix_nil, List.append_eq_nil_iff] at h
    exact absurd h.1 String.utf8EncodeChar_ne_nil
  | c :: cs, d :: ds, h => by
    obtain ⟨rest, hrest⟩ := h
    rw [List.flatMap_cons, List.flatMap_cons, List.append_assoc] at hrest
    obtain rfl := eq_of_utf8EncodeChar_append_eq hrest
    exact List.cons_prefix_cons.2 ⟨rfl, flatMap_utf8EncodeChar_isPrefix ⟨rest, List.append_cancel_left hrest⟩⟩

/-- The bytes of a text begin with those of another one just if its characters do. -/
theorem utf8_isPrefix_iff {start key : String} : utf8 start <+: utf8 key ↔ start.toList <+: key.toList := by
  rw [utf8_eq, utf8_eq]
  refine ⟨flatMap_utf8EncodeChar_isPrefix, ?_⟩
  rintro ⟨rest, hrest⟩
  exact ⟨rest.flatMap String.utf8EncodeChar, by rw [← hrest, List.flatMap_append]⟩

/-! ### Texts with a given start -/

/-- Characters that do not come before those of a start, and do not start so, come after all that do. -/
theorem append_lt_of_not_isPrefix : ∀ {start cs : List Char}, ¬ cs < start → ¬ start <+: cs →
    ∀ rest, start ++ rest < cs
  | [], cs, _, hstart, _ => absurd List.nil_prefix hstart
  | a :: start, [], hlt, _, _ => absurd (List.nil_lt_cons a start) hlt
  | a :: start, c :: cs, hlt, hstart, rest => by
    rw [List.cons_append]
    rcases lt_trichotomy a c with hac | rfl | hca
    · exact List.cons_lt_cons_iff.2 (.inl hac)
    · refine List.cons_lt_cons_iff.2 (.inr ⟨rfl, append_lt_of_not_isPrefix (fun h => ?_) (fun h => ?_) rest⟩)
      · exact hlt (List.cons_lt_cons_iff.2 (.inr ⟨rfl, h⟩))
      · exact hstart (List.cons_prefix_cons.2 ⟨rfl, h⟩)
    · exact absurd (List.cons_lt_cons_iff.2 (.inl hca)) hlt

theorem isPrefixOf_iff {start key : String} : start.isPrefixOf key = true ↔ start.toList <+: key.toList :=
  String.startsWith_string_iff

theorem not_lt_of_isPrefixOf {start key : String} (h : start.isPrefixOf key = true) : ¬ key < start := by
  obtain ⟨rest, hrest⟩ := isPrefixOf_iff.1 h
  rw [String.lt_iff_toList_lt, ← hrest]
  intro hlt
  cases rest with
  | nil =>
    rw [List.append_nil] at hlt
    exact lt_irrefl _ hlt
  | cons c rest =>
    have hmore : start.toList ++ [] < start.toList ++ c :: rest :=
      List.append_left_lt (List.nil_lt_cons c rest)
    rw [List.append_nil] at hmore
    exact lt_asymm hlt hmore

/-- After a key that does not come before a start, and does not start so, no key does. -/
theorem isPrefixOf_of_lt {start key later : String} (hle : ¬ key < start) (hlt : key < later)
    (hlater : start.isPrefixOf later = true) : start.isPrefixOf key = true := by
  by_contra hnot
  obtain ⟨rest, hrest⟩ := isPrefixOf_iff.1 hlater
  have hkey := append_lt_of_not_isPrefix (mt String.lt_iff_toList_lt.2 hle) (mt isPrefixOf_iff.2 hnot) rest
  rw [hrest, ← String.lt_iff_toList_lt] at hkey
  exact lt_asymm hlt hkey

theorem takeWhile_eq_filter {start : String} : ∀ {keys : List String}, keys.Pairwise (· < ·) →
    (∀ key ∈ keys, ¬ key < start) → keys.takeWhile (start.isPrefixOf ·) = keys.filter (start.isPrefixOf ·)
  | [], _, _ => rfl
  | key :: keys, hsorted, hle => by
    obtain ⟨hfirst, hsorted⟩ := List.pairwise_cons.1 hsorted
    have ih := takeWhile_eq_filter hsorted fun other hother => hle other (List.mem_cons_of_mem _ hother)
    by_cases hkey : start.isPrefixOf key = true
    · rw [List.takeWhile_cons_of_pos hkey, List.filter_cons_of_pos hkey, ih]
    · rw [List.takeWhile_cons_of_neg hkey, List.filter_cons_of_neg hkey, eq_comm, List.filter_eq_nil_iff]
      intro later hlater hstart
      exact hkey (isPrefixOf_of_lt (hle key List.mem_cons_self) (hfirst later hlater) hstart)

theorem dropWhile_takeWhile_eq_filter {start : String} : ∀ {keys : List String}, keys.Pairwise (· < ·) →
    (keys.dropWhile (· < start)).takeWhile (start.isPrefixOf ·) = keys.filter (start.isPrefixOf ·)
  | [], _ => rfl
  | key :: keys, hsorted => by
    obtain ⟨hfirst, htail⟩ := List.pairwise_cons.1 hsorted
    by_cases hkey : key < start
    · have hnot : ¬ start.isPrefixOf key = true := fun h => not_lt_of_isPrefixOf h hkey
      rw [List.dropWhile_cons_of_pos (by simpa using hkey), List.filter_cons_of_neg hnot,
        dropWhile_takeWhile_eq_filter htail]
    · rw [List.dropWhile_cons_of_neg (by simpa using hkey)]
      refine takeWhile_eq_filter hsorted fun other hother => ?_
      rcases List.mem_cons.1 hother with rfl | hother
      · exact hkey
      · exact fun h => hkey (lt_trans (hfirst other hother) h)

end Tabular
