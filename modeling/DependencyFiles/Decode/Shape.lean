import DependencyFiles.Json.Basic
import DependencyFiles.Number.Shortest
import DependencyFiles.Text.Quoted
import DependencyFiles.Toml.Basic

/-!
# Shapes of decoded values

A decoder looks at the shape of a value: the value itself for scalars, the bare kind for
containers. `ShapeError` lists the ways in which a value may fail to have the wanted
shape, and `ShapeError.message` words them.
-/

namespace DependencyFiles

/-- What a decoder sees of a value. -/
inductive Shape where
  | null
  | boolean (value : Bool)
  | integer (value : Int)
  /-- A floating-point number, as the text that messages show. -/
  | float (text : String)
  | string (value : String)
  | sequence
  | map
  deriving DecidableEq, Repr

/-- Why a value cannot be decoded. -/
inductive ShapeError where
  | invalidType (found : Shape) (expected : String)
  | invalidValue (found : Shape) (expected : String)
  | invalidLength (length : Nat) (expected : String)
  | unknownField (name : String) (known : List String)
  | unknownVariant (name : String) (known : List String)
  | missingField (name : String)
  deriving DecidableEq, Repr

/-- How messages speak of a shape. -/
def Shape.describe : Shape → String
  | null => "null"
  | boolean value => "boolean `" ++ toString value ++ "`"
  | integer value => "integer `" ++ toString value ++ "`"
  | float text => "floating point `" ++ text ++ "`"
  | string value => "string " ++ Text.quote value
  | sequence => "sequence"
  | map => "map"

/-- The names that would have been right, between backquotes. -/
def oneOf (names : List String) : String :=
  "expected one of " ++ ", ".intercalate (names.map fun name => "`" ++ name ++ "`")

/-- The wording of an error. -/
def ShapeError.message : ShapeError → String
  | invalidType found expected => "invalid type: " ++ found.describe ++ ", expected " ++ expected
  | invalidValue found expected => "invalid value: " ++ found.describe ++ ", expected " ++ expected
  | invalidLength length expected => "invalid length " ++ toString length ++ ", expected " ++ expected
  | unknownField name known => "unknown field `" ++ name ++ "`, " ++ oneOf known
  | unknownVariant name known => "unknown variant `" ++ name ++ "`, " ++ oneOf known
  | missingField name => "missing field `" ++ name ++ "`"

namespace Shape

/-- The shape of a JSON value; numbers are shown in compact form. -/
def ofJson : Json → Shape
  | .null => null
  | .bool value => boolean value
  | .integer value => integer value
  | .float x => float (Number.compactLayout.render x)
  | .string value => string value
  | .array _ => sequence
  | .object _ => map

/-- The shape of a TOML value; numbers are shown in full, and dates and times count as maps. -/
def ofToml : Toml.Value → Shape
  | .string value => string value
  | .integer value => integer value
  | .float x => float (Number.plainLayout.render x)
  | .boolean value => boolean value
  | .datetime => map
  | .array _ => sequence
  | .table _ => map

/-- The text that is wanted. -/
def asText : Shape → Except ShapeError String
  | string value => .ok value
  | found => .error (.invalidType found "a string")

/-- The truth value that is wanted. -/
def asTruth : Shape → Except ShapeError Bool
  | boolean value => .ok value
  | found => .error (.invalidType found "a boolean")

/-- The natural number that is wanted. -/
def asCount : Shape → Except ShapeError Nat
  | integer value =>
    if 0 ≤ value then .ok value.toNat else .error (.invalidValue (integer value) "usize")
  | found => .error (.invalidType found "usize")

end Shape

end DependencyFiles
