/-!
# Tabular.Value — column types and cell values

`FieldType` lists the column types, `Value` the contents of a cell.  Integers are machine words of 32
and 64 bits, floats are kept as the bits of their interchange format (so equality is equality of
bits), a decimal is `unscaled · 10^(-scale)`.
-/

namespace Tabular

/-- The type of a column. -/
inductive FieldType where
  | integer
  | long
  | float
  | double
  | boolean
  | string
  | bytes
  | decimal
deriving DecidableEq, Repr, Inhabited

namespace FieldType

/-- Whether a column of this type may be part of a primary key. -/
def isKeyCapable : FieldType → Bool
  | integer | long | string | bytes => true
  | float | double | boolean | decimal => false

/-- The name of the type in schema documents and messages. -/
def name : FieldType → String
  | integer => "integer"
  | long => "long"
  | float => "float"
  | double => "double"
  | boolean => "boolean"
  | string => "string"
  | bytes => "bytes"
  | decimal => "decimal"

/-- The column type used in table definitions. -/
def sqlType : FieldType → String
  | integer => "INT"
  | long => "BIGINT"
  | float => "REAL"
  | double => "DOUBLE PRECISION"
  | boolean => "BOOLEAN"
  | string => "TEXT"
  | bytes => "BYTEA"
  | decimal => "NUMERIC"

/-- Every column type, in the order of declaration. -/
def all : List FieldType := [integer, long, float, double, boolean, string, bytes, decimal]

/-- The type with exactly this name. -/
def ofName? (text : String) : Option FieldType := all.find? (·.name == text)

theorem ofName?_name (t : FieldType) : ofName? t.name = some t := by cases t <;> decide

/-- Reads a type by its name or one of its short names, in any case of the ASCII letters. -/
def parse (text : String) : Except String FieldType :=
  match text.map Char.toLower with
  | "int" | "integer" => .ok integer
  | "long" | "bigint" => .ok long
  | "float" => .ok float
  | "double" => .ok double
  | "bool" | "boolean" => .ok boolean
  | "string" | "text" => .ok string
  | "bytes" => .ok bytes
  | "decimal" => .ok decimal
  | other => .error s!"unknown field type '{other}'"

instance : ToString FieldType := ⟨name⟩

end FieldType

/-- The content of a cell. -/
inductive Value where
  | null
  | integer (v : Int32)
  | long (v : Int64)
  | float (bits : UInt32)
  /-- A 64-bit float, by its bits. -/
  | double (bits : UInt64)
  | boolean (v : Bool)
  | string (v : String)
  | bytes (v : List UInt8)
  /-- The number `unscaled · 10^(-scale)`. -/
  | decimal (unscaled : Int) (scale : Nat)
deriving DecidableEq, Repr, Inhabited

namespace Value

/-- The type of a value that is not null. -/
def fieldType? : Value → Option FieldType
  | null => none
  | integer _ => some .integer
  | long _ => some .long
  | float _ => some .float
  | double _ => some .double
  | boolean _ => some .boolean
  | string _ => some .string
  | bytes _ => some .bytes
  | decimal _ _ => some .decimal

/-- Whether the value is null. -/
def isNull (v : Value) : Bool := v.fieldType?.isNone

/-- The content of an integer of either width. -/
def toInt64? : Value → Option Int64
  | integer v => some v.toInt64
  | long v => some v
  | _ => none

/-- The content of a string. -/
def toString? : Value → Option String
  | string v => some v
  | _ => none

end Value

end Tabular
