import DependencyFiles.Keyed
import DependencyFiles.Number.Binary64

/-!
# JSON values

Objects list their members in ascending order of keys, each key once. A number is an
integer when it is written without point and exponent and fits 64 bits.
-/

namespace DependencyFiles

/-- A JSON value. -/
inductive Json where
  | null
  | bool (value : Bool)
  | integer (value : Int)
  | float (value : Number.Binary64)
  | string (value : String)
  | array (items : List Json)
  | object (members : List (String × Json))
  deriving Inhabited, Repr

namespace Json

/-- The member of an object under a key. -/
def member? (key : String) : Json → Option Json
  | object members => members.lookup key
  | _ => none

/-- The text of a string value. -/
def string? : Json → Option String
  | string value => some value
  | _ => none

/-- The members of an object. -/
def members? : Json → Option (List (String × Json))
  | object members => some members
  | _ => none

end Json

end DependencyFiles
