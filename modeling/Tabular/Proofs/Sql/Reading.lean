import Mathlib.Data.List.Chain
import Tabular.Sql.Token

/-!
# Tabular.Proofs.Sql.Reading — statements read by the lexical rules

`readTokens` reads a text: names stand in double quotes, strings in single ones, in both a doubled quote stands
for one and any other character, a backslash too, for itself.  A statement is `Readable` if its plain tokens
hold no quotes and every quoted token is followed by a plain one or by nothing.  Main statement:
`readTokens_render`, a readable statement is read as it was written.
-/

namespace Tabular.Sql

/-! ### The lexical rules -/

/-- What a quoted token stands for whose opening quote has been read, and what follows its closing quote. -/
def readQuoted (q : Char) : List Char → Option (List Char × List Char)
  | [] => none
  | c :: cs =>
    if c = q then
      match cs with
      | [] => some ([], [])
      | d :: rest =>
        if d = q then (readQuoted q rest).map fun read => (q :: read.1, read.2) else some ([], d :: rest)
    else (readQuoted q cs).map fun read => (c :: read.1, read.2)

/-- The first token of a text and what follows it; outside of quotes every character is a token. -/
def readToken : List Char → Option (Token × List Char)
  | [] => none
  | c :: cs =>
    if c = '"' then (readQuoted c cs).map fun read => (.identifier (.ofList read.1), read.2)
    else if c = '\x27' then (readQuoted c cs).map fun read => (.text (.ofList read.1), read.2)
    else some (.plain (.singleton c), cs)

theorem length_of_readQuoted {q : Char} {cs : List Char} {read : List Char × List Char}
    (h : readQuoted q cs = some read) : read.2.length < cs.length := by
  fun_induction readQuoted q cs generalizing read with
  | case1 => cases h
  | case2 =>
    cases h
    exact Nat.one_pos
  | case3 rest ih =>
    obtain ⟨inner, hinner, rfl⟩ := Option.map_eq_some_iff.1 h
    have := ih hinner
    simp only [List.length_cons]
    omega
  | case4 d rest hd =>
    cases h
    simp
  | case5 c cs hc ih =>
    obtain ⟨inner, hinner, rfl⟩ := Option.map_eq_some_iff.1 h
    have := ih hinner
    simp only [List.length_cons]
    omega

theorem length_of_readToken {cs left : List Char} {token : Token} (h : readToken cs = some (token, left)) :
    left.length < cs.length := by
  cases cs with
  | nil => cases h
  | cons c cs =>
    rw [readToken] at h
    split at h
    · obtain ⟨inner, hinner, ⟨⟩⟩ := Option.map_eq_some_iff.1 h
      exact Nat.lt_succ_of_lt (length_of_readQuoted hinner)
    · split at h
      · obtain ⟨inner, hinner, ⟨⟩⟩ := Option.map_eq_some_iff.1 h
        exact Nat.lt_succ_of_lt (length_of_readQuoted hinner)
      · cases h
        exact Nat.lt_succ_self _

/-- The tokens of a text, if every quoted token in it is closed. -/
def readTokens (cs : List Char) : Option (List Token) :=
  if cs = [] then some []
  else
    match _h : readToken cs with
    | none => none
    | some (token, left) => (readTokens left).map (token :: ·)
termination_by cs.length
decreasing_by exact length_of_readToken _h

theorem readTokens_nil : readTokens [] = some [] := by
  rw [readTokens, if_pos rfl]

theorem readTokens_of_readToken {cs left : List Char} {token : Token} (h : readToken cs = some (token, left)) :
    readTokens cs = (readTokens left).map (token :: ·) := by
  have hne : cs ≠ [] := by
    rintro rfl
    cases h
  rw [readTokens, if_neg hne]
  split
  · rename_i hnone
    rw [hnone] at h
    cases h
  · rename_i hsome
    rw [hsome] at h
    cases h
    rfl

/-! ### Written tokens -/

variable {q : Char} {rest : List Char} {statement before after : Statement} {token : Token}

/-- The quote character of a token that stands in quotes. -/
def Token.quote? : Token → Option Char
  | plain _ => none
  | identifier _ => some '"'
  | text _ => some '\x27'

/-- The tokens that a token is read as: a plain one character by character. -/
def Token.spelled : Token → List Token
  | plain raw => raw.toList.map fun c => .plain (.singleton c)
  | identifier name => [.identifier name]
  | text content => [.text content]

theorem readQuoted_of_ne {c : Char} (hc : c ≠ q) (cs : List Char) :
    readQuoted q (c :: cs) = (readQuoted q cs).map fun read => (c :: read.1, read.2) := by
  cases cs <;> simp [readQuoted, hc]

/-- A doubled quote stands for one, and the quote after it closes the token if no other one follows. -/
theorem readQuoted_doubled (cs : List Char) (hrest : rest.head? ≠ some q) :
    readQuoted q (Quoted.doubled q cs ++ q :: rest) = some (cs, rest) := by
  induction cs with
  | nil =>
    cases rest with
    | nil => simp [readQuoted]
    | cons d rest =>
      have hd : d ≠ q := by simpa using hrest
      simp [readQuoted, hd]
  | cons c cs ih =>
    by_cases hc : c = q
    · simp [readQuoted, hc, ih]
    · simp [readQuoted_of_ne hc, hc, ih]

/-- A quoted token is read to where its written form ends, if the same quote does not follow. -/
theorem readToken_render (hquote : token.quote? = some q) (hrest : rest.head? ≠ some q) :
    readToken (token.render.toList ++ rest) = some (token, rest) := by
  cases token with
  | plain raw => cases hquote
  | identifier name =>
    cases hquote
    rw [Token.render, Quoted.toList_quote, List.append_assoc, List.cons_append, readToken, if_pos rfl,
      List.singleton_append, readQuoted_doubled _ hrest, Option.map_some, String.ofList_toList]
  | text content =>
    cases hquote
    rw [Token.render, Quoted.toList_quote, List.append_assoc, List.cons_append, readToken, if_neg (by decide),
      if_pos rfl, List.singleton_append, readQuoted_doubled _ hrest, Option.map_some, String.ofList_toList]

/-! ### Readable statements -/

/-- Whether a text holds no quotes. -/
def Unquoted (cs : List Char) : Prop := ∀ c ∈ cs, c ≠ '"' ∧ c ≠ '\x27'

instance (cs : List Char) : Decidable (Unquoted cs) := List.decidableBAll _ cs

/-- Whether a text keeps quoted tokens apart: there is something to it, and it holds no quotes. -/
def Separates (raw : String) : Prop := raw ≠ "" ∧ Unquoted raw.toList

instance (raw : String) : Decidable (Separates raw) := instDecidableAnd

/-- Whether a token is quoted, or a plain one without quotes. -/
def Token.Bare : Token → Prop
  | plain raw => Unquoted raw.toList
  | identifier _ | text _ => True

/-- Whether a token may be followed by another: after a quoted one there has to be a plain text. -/
def Token.MayPrecede (a b : Token) : Prop := a.quote? = none ∨ b.quote? = none ∧ b.render ≠ ""

/-- Whether the plain tokens of a statement hold no quotes, and quoted ones do not touch. -/
structure Readable (statement : Statement) : Prop where
  bare : ∀ token ∈ statement, token.Bare
  apart : statement.IsChain Token.MayPrecede

theorem readTokens_unquoted {cs : List Char} (hcs : Unquoted cs) (rest : List Char) :
    readTokens (cs ++ rest) = (readTokens rest).map (cs.map (fun c => .plain (.singleton c)) ++ ·) := by
  induction cs with
  | nil => simp
  | cons c cs ih =>
    obtain ⟨⟨hdouble, hsingle⟩, hcs⟩ := List.forall_mem_cons.1 hcs
    have hread : readToken (c :: (cs ++ rest)) = some (.plain (.singleton c), cs ++ rest) := by
      rw [readToken, if_neg hdouble, if_neg hsingle]
    rw [List.cons_append, readTokens_of_readToken hread, ih hcs, Option.map_map]
    rfl

theorem toList_render_cons (token : Token) (statement : Statement) :
    (render (token :: statement)).toList = token.render.toList ++ (render statement).toList := by
  simp [render, String.toList_join]

namespace Readable

theorem of_append (h : Readable (before ++ after)) : Readable after :=
  ⟨fun token hmem => h.bare token (List.mem_append_right _ hmem), (List.isChain_append.1 h.apart).2.1⟩

theorem tail (h : Readable (token :: after)) : Readable after :=
  ⟨fun token hmem => h.bare token (List.mem_cons_of_mem _ hmem), h.apart.tail⟩

/-- What follows a quoted token does not start with its quote. -/
theorem head?_ne (h : Readable (token :: after)) (hquote : token.quote? = some q) :
    (render after).toList.head? ≠ some q := by
  cases after with
  | nil => simp [render]
  | cons next after =>
    obtain ⟨hnext, hne⟩ := (List.isChain_cons_cons.1 h.apart).1.resolve_left (by simp [hquote])
    cases next with
    | identifier name => cases hnext
    | text content => cases hnext
    | plain raw =>
      have hbare : Unquoted raw.toList := h.bare _ (List.mem_cons_of_mem _ List.mem_cons_self)
      have hchars : raw.toList ≠ [] := mt String.toList_eq_nil_iff.1 hne
      obtain ⟨c, cs, hraw⟩ := List.exists_cons_of_ne_nil hchars
      have hc := hbare c (by simp [hraw])
      rw [toList_render_cons, Token.render, hraw, List.cons_append, List.head?_cons, ne_eq, Option.some_inj]
      cases token with
      | plain raw => cases hquote
      | identifier name =>
        cases hquote
        exact hc.1
      | text content =>
        cases hquote
        exact hc.2

end Readable

/-- A readable statement is read as it was written, each quoted token whole. -/
theorem readTokens_render (h : Readable statement) :
    readTokens (render statement).toList = some (statement.flatMap Token.spelled) := by
  induction statement with
  | nil => exact readTokens_nil
  | cons token after ih =>
    have hafter := ih h.tail
    rw [toList_render_cons, List.flatMap_cons]
    cases token with
    | plain raw =>
      rw [Token.render, readTokens_unquoted (h.bare _ List.mem_cons_self), hafter]
      rfl
    | identifier name =>
      rw [readTokens_of_readToken (readToken_render rfl (h.head?_ne rfl)), hafter]
      rfl
    | text content =>
      rw [readTokens_of_readToken (readToken_render rfl (h.head?_ne rfl)), hafter]
      rfl

/-- A quoted token is read in its place: another character than its quote follows it, and it is read to where its
written form ends. -/
theorem readToken_of_readable (h : Readable (before ++ token :: after)) (hquote : token.quote? = some q) :
    readTokens (render (before ++ token :: after)).toList =
        some (before.flatMap Token.spelled ++ token :: after.flatMap Token.spelled) ∧
      (render after).toList.head? ≠ some q ∧
      readToken (token.render.toList ++ (render after).toList) = some (token, (render after).toList) := by
  have hrest := h.of_append.head?_ne hquote
  have hspelled : token.spelled = [token] := by
    cases token with
    | plain raw => cases hquote
    | _ => rfl
  refine ⟨?_, hrest, readToken_render hquote hrest⟩
  rw [readTokens_render h, List.flatMap_append, List.flatMap_cons, hspelled]
  rfl

/-! ### Making statements readable -/

theorem separated_cons_cons (separator : String) (group next : Statement) (groups : List Statement) :
    separated separator (group :: next :: groups) =
      group ++ .plain separator :: separated separator (next :: groups) := by
  rw [separated, List.intersperse_cons_cons, List.flatten_cons, List.flatten_cons, List.singleton_append]
  rfl

theorem separated_singleton (separator : String) (group : Statement) : separated separator [group] = group := by
  rw [separated, List.intersperse_singleton, List.flatten_singleton]

namespace Readable

theorem nil : Readable [] := ⟨nofun, List.isChain_nil⟩

/-- A plain text may stand before anything. -/
theorem plain {raw : String} (hraw : Unquoted raw.toList) (h : Readable statement) :
    Readable (.plain raw :: statement) where
  bare := List.forall_mem_cons.2 ⟨hraw, h.bare⟩
  apart := h.apart.cons fun _ _ => .inl rfl

/-- After a plain text that keeps tokens apart, anything may follow a statement. -/
theorem join {raw : String} (hbefore : Readable before) (hraw : Separates raw) (hafter : Readable after) :
    Readable (before ++ .plain raw :: after) where
  bare := List.forall_mem_append.2 ⟨hbefore.bare, (hafter.plain hraw.2).bare⟩
  apart := by
    refine List.isChain_append.2 ⟨hbefore.apart, (hafter.plain hraw.2).apart, fun _ _ next hnext => ?_⟩
    cases hnext
    exact .inr ⟨rfl, hraw.1⟩

theorem singleton (hbare : token.Bare) : Readable [token] :=
  ⟨by simpa using hbare, List.isChain_singleton token⟩

/-- A name in front of a plain text. -/
theorem named (name : String) {raw : String} (hraw : Separates raw) (h : Readable after) :
    Readable (.identifier name :: .plain raw :: after) := by
  have hname : Readable [.identifier name] := singleton trivial
  exact hname.join hraw h

theorem separated {separator : String} {groups : List Statement} (hseparator : Separates separator)
    (hgroups : ∀ group ∈ groups, Readable group) : Readable (Sql.separated separator groups) := by
  induction groups with
  | nil => exact nil
  | cons group groups ih =>
    obtain ⟨hgroup, hgroups⟩ := List.forall_mem_cons.1 hgroups
    cases groups with
    | nil => rwa [separated_singleton]
    | cons next groups =>
      rw [separated_cons_cons]
      exact hgroup.join hseparator (ih hgroups)

/-- Statements of one form with a text between any two of them. -/
theorem separated_map {α : Type} {separator : String} {f : α → Statement} {items : List α}
    (hseparator : Separates separator) (hf : ∀ a, Readable (f a)) :
    Readable (Sql.separated separator (items.map f)) := by
  refine .separated hseparator fun group hgroup => ?_
  obtain ⟨a, -, rfl⟩ := List.mem_map.1 hgroup
  exact hf a

end Readable

end Tabular.Sql
