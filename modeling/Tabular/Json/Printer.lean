import Tabular.Json.Basic
import Tabular.Json.Escape

/-!
# Tabular.Json.Printer — the compact text of a JSON value

No blanks, members in their order.
-/

namespace Tabular.Json

/-- The characters of a text in quotes. -/
def quoted (text : String) : List Char := '"' :: escape text.toList ++ ['"']

mutual

/-- The characters of a value. -/
def chars : Json → List Char
  | .string text => quoted text
  | .boolean true => "true".toList
  | .boolean false => "false".toList
  | .array items => '[' :: itemChars items
  | .object members => '{' :: memberChars members

/-- The characters of the items of an array and its closing bracket. -/
def itemChars : List Json → List Char
  | [] => [']']
  | [item] => chars item ++ [']']
  | item :: rest => chars item ++ ',' :: itemChars rest

/-- The characters of the members of an object and its closing brace. -/
def memberChars : List (String × Json) → List Char
  | [] => ['}']
  | [(name, value)] => quoted name ++ ':' :: chars value ++ ['}']
  | (name, value) :: rest => quoted name ++ ':' :: chars value ++ ',' :: memberChars rest

end

/-- The compact text of a value. -/
def render (json : Json) : String := String.ofList json.chars

end Tabular.Json
