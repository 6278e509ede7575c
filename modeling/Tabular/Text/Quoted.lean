/-!
# Tabular.Text.Quoted — quoting by doubling

A quoted text stands between two quote characters, and each quote character inside it is written
twice.  A backslash is an ordinary character.
-/

namespace Tabular.Quoted

/-- The characters with each `q` written twice. -/
def doubled (q : Char) (cs : List Char) : List Char :=
  cs.flatMap fun c => if c = q then [q, q] else [c]

/-- The text between two `q`, with each `q` inside it written twice. -/
def chars (q : Char) (cs : List Char) : List Char := q :: doubled q cs ++ [q]

/-- The quoted form of `s` with the quote character `q`. -/
def quote (q : Char) (s : String) : String := String.ofList (chars q s.toList)

@[simp] theorem doubled_nil (q : Char) : doubled q [] = [] := rfl

@[simp] theorem doubled_cons (q c : Char) (cs : List Char) :
    doubled q (c :: cs) = (if c = q then [q, q] else [c]) ++ doubled q cs := rfl

@[simp] theorem toList_quote (q : Char) (s : String) :
    (quote q s).toList = q :: doubled q s.toList ++ [q] := by
  simp [quote, chars]

end Tabular.Quoted
