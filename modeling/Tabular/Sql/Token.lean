import Tabular.Text.Quoted

/-!
# Tabular.Sql.Token — statements as token lists

A statement is a list of tokens: quoted identifiers, quoted texts, and the plain text between them.
`render` writes it out.  Names and texts reach a statement only as quoted tokens, so they cannot change
how it is read.
-/

namespace Tabular.Sql

/-- A piece of a statement. -/
inductive Token where
  /-- Keywords, punctuation and literals that need no quotes. -/
  | plain (raw : String)
  | identifier (name : String)
  | text (content : String)
deriving DecidableEq, Repr

/-- The written form of a token. -/
def Token.render : Token → String
  | plain raw => raw
  | identifier name => Quoted.quote '"' name
  | text content => Quoted.quote '\x27' content

/-- A statement, as the list of its tokens. -/
abbrev Statement := List Token

/-- The text of a statement. -/
def render (statement : Statement) : String := String.join (statement.map Token.render)

/-- The given groups of tokens with a plain text between any two of them. -/
def separated (separator : String) (groups : List Statement) : Statement :=
  (groups.intersperse [.plain separator]).flatten

end Tabular.Sql
