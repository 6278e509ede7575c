import Tabular.Json.Printer
import Tabular.Json.Record

/-!
# Tabular.Proofs.Json.RoundTrip — reading back what was written

`Reads read a cs` says that a reader takes precisely `cs` from the front of a text and answers `a`.  Main
statements: texts, truth values, arrays (`reads_readList`) and records (`Form.reads_read`) are read back from
what the printer writes.
-/

namespace Tabular.Json

/-- Whether a reader takes precisely these characters from the front of any text, and answers a value. -/
def Reads {α : Type} (read : List Char → Except Fault (α × List Char)) (a : α) (cs : List Char) : Prop :=
  ∀ rest, read (cs ++ rest) = .ok (a, rest)

/-! ### Texts -/

theorem toNat?_digits : ∀ n < 32, Hex.toNat? ['0', '0', Hex.digit (n / 16), Hex.digit (n % 16)] = some n := by
  decide

/-- An escape is read back. -/
theorem readEscape_unescape {e c : Char} (he : e ≠ 'u') (h : unescape? e = some c) (rest : List Char) :
    readEscape (e :: rest) = .ok (c, rest) := by
  simp [readEscape, he, h]

theorem readEscape_control {c : Char} (h : c < ' ') (rest : List Char) :
    readEscape ('u' :: '0' :: '0' :: Hex.digit (c.toNat / 16) :: Hex.digit (c.toNat % 16) :: rest) =
      .ok (c, rest) := by
  have hlt : c.toNat < 32 := h
  have hunit : readUnit ('0' :: '0' :: Hex.digit (c.toNat / 16) :: Hex.digit (c.toNat % 16) :: rest) =
      .ok (c.toNat, rest) := by
    simp only [readUnit, toNat?_digits _ hlt]
  have hlow : isLowSurrogate c.toNat = false := by
    simp only [isLowSurrogate, Bool.and_eq_false_iff, decide_eq_false_iff_not]
    omega
  have hhigh : isHighSurrogate c.toNat = false := by
    simp only [isHighSurrogate, Bool.and_eq_false_iff, decide_eq_false_iff_not]
    omega
  simp [readEscape, readUnits, hunit, hlow, hhigh]

/-- What the written form of a character is: an escape of two characters, one of six, or itself. -/
theorem escapeChar_cases (c : Char) :
    (∃ e, escapeChar c = ['\\', e] ∧ e ≠ 'u' ∧ unescape? e = some c) ∨
      (c < ' ' ∧
        escapeChar c = ['\\', 'u', '0', '0', Hex.digit (c.toNat / 16), Hex.digit (c.toNat % 16)]) ∨
      (escapeChar c = [c] ∧ c ≠ '"' ∧ c ≠ '\\' ∧ ¬ c < ' ') := by
  unfold escapeChar
  iterate 7
    split
    · subst c
      exact .inl ⟨_, rfl, by decide, rfl⟩
  split
  · rename_i hcontrol
    exact .inr (.inl ⟨hcontrol, rfl⟩)
  · rename_i hquote hslash _ _ _ _ _ hcontrol
    exact .inr (.inr ⟨rfl, hquote, hslash, hcontrol⟩)

theorem readText_escape {c : Char} {rest after more cs : List Char}
    (h : readEscape rest = .ok (c, after)) (hmore : readText after = .ok (cs, more)) :
    readText ('\\' :: rest) = .ok (c :: cs, more) := by
  rw [readText, if_neg (by decide), if_pos rfl]
  split
  · rename_i fault hfault
    rw [h] at hfault
    cases hfault
  · rename_i c' after' hafter
    rw [h] at hafter
    cases hafter
    rw [hmore]
    rfl

/-- One written character is read back. -/
theorem readText_escapeChar (c : Char) {rest more cs : List Char} (hmore : readText rest = .ok (cs, more)) :
    readText (escapeChar c ++ rest) = .ok (c :: cs, more) := by
  rcases escapeChar_cases c with ⟨e, heq, he, hc⟩ | ⟨hcontrol, heq⟩ | ⟨heq, hquote, hslash, hcontrol⟩
  · rw [heq]
    exact readText_escape (readEscape_unescape he hc rest) hmore
  · rw [heq]
    exact readText_escape (readEscape_control hcontrol rest) hmore
  · rw [heq, List.singleton_append, readText, if_neg hquote, if_neg hslash, if_neg hcontrol, hmore]
    rfl

theorem readText_escaped (cs rest : List Char) : readText (escape cs ++ '"' :: rest) = .ok (cs, rest) := by
  induction cs with
  | nil => rw [escape, List.flatMap_nil, List.nil_append, readText, if_pos rfl]
  | cons c cs ih =>
    rw [escape, List.flatMap_cons, List.append_assoc]
    exact readText_escapeChar c ih

/-! ### Single values -/

theorem skipBlanks_cons {c : Char} (h : isBlank c = false) (cs : List Char) :
    skipBlanks (c :: cs) = c :: cs := by
  simp [skipBlanks, h]

theorem quoted_append (text : String) (rest : List Char) :
    quoted text ++ rest = '"' :: (escape text.toList ++ '"' :: rest) := by
  simp [quoted]

theorem reads_readString (expected text : String) : Reads (readString expected) text (quoted text) := by
  intro rest
  rw [quoted_append, readString, skipBlanks_cons (by decide)]
  simp only [if_true]
  rw [readText_escaped]
  exact congrArg (fun s => Except.ok (s, rest)) String.ofList_toList

theorem reads_readBoolean (b : Bool) : Reads readBoolean b (chars (.boolean b)) := by
  intro rest
  cases b <;> rfl

/-- What is written starts with something that is neither blank nor a closing bracket. -/
theorem exists_chars (v : Json) : ∃ c cs, chars v = c :: cs ∧ isBlank c = false ∧ c ≠ ']' := by
  cases v with
  | string text => exact ⟨_, _, rfl, by decide, by decide⟩
  | boolean b => cases b <;> exact ⟨_, _, rfl, by decide, by decide⟩
  | array items => exact ⟨'[', itemChars items, by rw [chars], by decide, by decide⟩
  | object members => exact ⟨'{', memberChars members, by rw [chars], by decide, by decide⟩

/-! ### Arrays -/

/-- The text from an item on, where another one may stand in front of it. -/
def itemsFrom (isFirst : Bool) (items : List Json) : List Char :=
  if isFirst ∨ items = [] then itemChars items else ',' :: itemChars items

theorem itemChars_cons (v : Json) (items : List Json) :
    itemChars (v :: items) = chars v ++ itemsFrom false items := by
  cases items <;> simp [itemChars, itemsFrom]

theorem nextItem_nil (isFirst : Bool) (rest : List Char) :
    nextItem isFirst (itemsFrom isFirst [] ++ rest) = .ok (false, rest) := by
  rw [itemsFrom, if_pos (.inr rfl), itemChars, List.singleton_append, nextItem, skipBlanks_cons (by decide)]
  rfl

theorem nextItem_cons (isFirst : Bool) (v : Json) (items : List Json) (rest : List Char) :
    nextItem isFirst (itemsFrom isFirst (v :: items) ++ rest) =
      .ok (true, chars v ++ (itemsFrom false items ++ rest)) := by
  obtain ⟨c, cs, hv, hblank, hclose⟩ := exists_chars v
  have hitems : itemChars (v :: items) ++ rest = c :: (cs ++ (itemsFrom false items ++ rest)) := by
    rw [itemChars_cons, hv]
    simp
  rw [hv]
  cases isFirst with
  | true =>
    rw [itemsFrom, if_pos (.inl rfl), hitems, nextItem, skipBlanks_cons hblank]
    simp [hclose]
  | false =>
    rw [itemsFrom, if_neg (by simp), List.cons_append, hitems, nextItem, skipBlanks_cons (by decide)]
    simp [skipBlanks_cons hblank, hclose]

variable {α : Type} {read : List Char → Except Fault (α × List Char)} {toJson : α → Json}

theorem readItems_itemsFrom (hread : ∀ a, Reads read a (chars (toJson a))) :
    ∀ (as : List α) (fuel : Nat) (isFirst : Bool) (rest : List Char), as.length < fuel →
      readItems read fuel isFirst (itemsFrom isFirst (as.map toJson) ++ rest) = .ok (as, rest)
  | _, 0, _, _, h => by omega
  | [], fuel + 1, isFirst, rest, _ => by
    rw [readItems, List.map_nil, nextItem_nil]
    rfl
  | a :: as, fuel + 1, isFirst, rest, h => by
    have hlength : as.length < fuel := Nat.lt_of_succ_lt_succ h
    rw [readItems, List.map_cons, nextItem_cons]
    simp only [bind, Except.bind, if_true]
    rw [hread a]
    simp only
    rw [readItems_itemsFrom hread as fuel false rest hlength]
    rfl

theorem length_le_itemChars : ∀ items : List Json, items.length ≤ (itemChars items).length
  | [] => Nat.zero_le _
  | v :: items => by
    have hrest := length_le_itemChars items
    obtain ⟨c, cs, hv, -⟩ := exists_chars v
    rw [itemChars_cons, hv, itemsFrom]
    split <;> simp only [List.length_append, List.length_cons] <;> omega

/-- An array is read back if its items are. -/
theorem reads_readList (hread : ∀ a, Reads read a (chars (toJson a))) (as : List α) :
    Reads (readList read) as (chars (.array (as.map toJson))) := by
  intro rest
  have hlength : as.length < (itemChars (as.map toJson) ++ rest).length + 1 := by
    have := length_le_itemChars (as.map toJson)
    rw [List.length_map] at this
    rw [List.length_append]
    omega
  rw [chars, List.cons_append, readList, skipBlanks_cons (by decide)]
  exact readItems_itemsFrom hread as _ true rest hlength

/-! ### Records -/

/-- The text from a member on, where another one may stand in front of it. -/
def membersFrom (isFirst : Bool) (members : List (String × Json)) : List Char :=
  if isFirst ∨ members = [] then memberChars members else ',' :: memberChars members

theorem memberChars_cons (name : String) (v : Json) (members : List (String × Json)) :
    memberChars ((name, v) :: members) = quoted name ++ ':' :: (chars v ++ membersFrom false members) := by
  cases members <;> simp [memberChars, membersFrom]

theorem afterColon_colon (rest : List Char) : afterColon (':' :: rest) = .ok rest := rfl

theorem nextName_nil (isFirst : Bool) (rest : List Char) :
    nextName isFirst (membersFrom isFirst [] ++ rest) = .ok (none, rest) := by
  rw [membersFrom, if_pos (.inr rfl), memberChars, List.singleton_append, nextName,
    skipBlanks_cons (by decide)]
  rfl

theorem nextName_cons (isFirst : Bool) (name : String) (v : Json) (members : List (String × Json))
    (rest : List Char) :
    nextName isFirst (membersFrom isFirst ((name, v) :: members) ++ rest) =
      .ok (some name, ':' :: (chars v ++ (membersFrom false members ++ rest))) := by
  have hmembers : memberChars ((name, v) :: members) ++ rest =
      '"' :: (escape name.toList ++ '"' :: ':' :: (chars v ++ (membersFrom false members ++ rest))) := by
    rw [memberChars_cons, List.append_assoc, quoted_append]
    simp
  have hname : ∀ after, nextName.name (escape name.toList ++ '"' :: after) = .ok (some name, after) := by
    intro after
    rw [nextName.name, readText_escaped]
    exact congrArg (fun s => Except.ok (some s, after)) String.ofList_toList
  cases isFirst with
  | true =>
    rw [membersFrom, if_pos (.inl rfl), hmembers, nextName, skipBlanks_cons (by decide)]
    exact hname _
  | false =>
    rw [membersFrom, if_neg (by simp), List.cons_append, hmembers, nextName, skipBlanks_cons (by decide)]
    simp only [skipBlanks_cons (show isBlank '"' = false by decide)]
    exact hname _

namespace Form

variable {Draft : Type}

/-- Whether members, read in turn, make one draft of another. -/
inductive Fills (form : Form Draft α) : Draft → List (String × Json) → Draft → Prop where
  | nil {d : Draft} : Fills form d [] d
  | cons {d d' d'' : Draft} {name : String} {v : Json} {members : List (String × Json)}
    {member : Member Draft} (hfind : form.members.find? (·.name == name) = some member)
    (hnew : member.isGiven d = false) (hread : Reads (member.read d) d' (chars v))
    (hrest : Fills form d' members d'') : Fills form d ((name, v) :: members) d''

variable {form : Form Draft α} {d d' : Draft} {members : List (String × Json)}

theorem readMembers_of_fills (h : form.Fills d members d') (fuel : Nat) (isFirst : Bool)
    (rest : List Char) (hfuel : members.length < fuel) :
    form.readMembers fuel isFirst d (membersFrom isFirst members ++ rest) = .ok (d', rest) := by
  induction h generalizing fuel isFirst with
  | nil =>
    obtain _ | fuel := fuel
    · omega
    rw [readMembers, nextName_nil]
    rfl
  | @cons d d' d'' name v members member hfind hnew hread hrest ih =>
    obtain _ | fuel := fuel
    · omega
    rw [readMembers, nextName_cons]
    simp only [bind, Except.bind, hfind, hnew, afterColon_colon]
    rw [hread]
    exact ih fuel false (Nat.lt_of_succ_lt_succ hfuel)

theorem length_le_memberChars : ∀ members : List (String × Json),
    members.length ≤ (memberChars members).length
  | [] => Nat.zero_le _
  | (name, v) :: members => by
    have hrest := length_le_memberChars members
    rw [memberChars_cons, membersFrom, quoted]
    split <;> simp only [List.length_append, List.length_cons] <;> omega

/-- A record is read back from an object with its members. -/
theorem reads_read {a : α} (h : form.Fills form.empty members d) (hfinish : form.finish d = .ok a) :
    Reads form.read a (chars (.object members)) := by
  intro rest
  have hlength : members.length < (memberChars members ++ rest).length + 1 := by
    have := length_le_memberChars members
    rw [List.length_append]
    omega
  rw [chars, List.cons_append, Form.read, skipBlanks_cons (by decide)]
  have hread := readMembers_of_fills h _ true rest hlength
  rw [membersFrom, if_pos (.inl rfl)] at hread
  show (if '{' = '[' then _ else if '{' = '{' then _ else _ : Except Fault (α × List Char)) = _
  rw [if_neg (by decide), if_pos rfl, hread]
  simp only [bind, Except.bind, hfinish]
  rfl

end Form

/-- A whole text is read back. -/
theorem readAll_of_reads {a : α} {v : Json} (h : Reads read a (chars v)) : readAll read v.render = .ok a := by
  rw [readAll, render, String.toList_ofList, ← List.append_nil (chars v), h]
  rfl

end Tabular.Json
