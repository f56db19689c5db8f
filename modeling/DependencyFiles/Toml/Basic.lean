import DependencyFiles.Number.Binary64

/-!
# TOML values

Tables list their entries in the order of the document, each key once. Dates and times
carry nothing that this library looks at, so they are all one value.
-/

namespace DependencyFiles.Toml

/-- A TOML value. -/
inductive Value where
  | string (value : String)
  | integer (value : Int)
  | float (value : Number.Binary64)
  | boolean (value : Bool)
  | datetime
  | array (items : List Value)
  | table (entries : List (String × Value))
  deriving Inhabited, Repr

namespace Value

/-- The entry of a table under a key. -/
def valueAt? (key : String) : Value → Option Value
  | table entries => entries.lookup key
  | _ => none

/-- The text of a string value. -/
def string? : Value → Option String
  | string value => some value
  | _ => none

/-- The entries of a table. -/
def entries? : Value → Option (List (String × Value))
  | table entries => some entries
  | _ => none

/-- The items of an array. -/
def items? : Value → Option (List Value)
  | array items => some items
  | _ => none

end Value

end DependencyFiles.Toml
