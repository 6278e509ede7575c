/-!
# Tabular.Json.Basic — JSON values

The values that documents are made of: texts, truth values, arrays, and objects with their members in
order.
-/

namespace Tabular

/-- A JSON value. -/
inductive Json where
  | string (text : String)
  | boolean (value : Bool)
  | array (items : List Json)
  | object (members : List (String × Json))
deriving Inhabited

namespace Json

/-- A list of text values. -/
def ofStrings (l : List String) : Json := .array (l.map .string)

end Json

end Tabular
