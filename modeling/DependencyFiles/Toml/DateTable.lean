import DependencyFiles.Toml.Scalars

/-!
# Tables that spell dates and times

A table whose first key is `dateKey` stands for the date or time that the string under that
key spells, by the same rules as a date or time without quotes. Nothing else in the table
counts.
-/

namespace DependencyFiles.Toml

/-- The key that a table needs in first place to stand for a date or time. -/
def dateKey : String := "$__toml_private_datetime"

/-- Whether the whole text spells a date, a time of day, or both with perhaps an offset. -/
def spellsDate (text : List Char) : Bool := afterDatetime? text = some []

/-- The value that makes a table stand for a date or time. -/
def dateValue? : List (String × Value) → Option Value
  | (key, value) :: _ => if key = dateKey then some value else none
  | [] => none

mutual

/-- A value with its tables that stand for dates replaced by dates; none when one of them does
not spell a date. -/
def settle? : Value → Option Value
  | .array items => (settleItems? items).map .array
  | .table entries =>
    match dateValue? entries with
    | some value => if value.string?.any fun text => spellsDate text.toList then some .datetime else none
    | none => (settleEntries? entries).map .table
  | value => some value

/-- The items of an array with their dates replaced. -/
def settleItems? : List Value → Option (List Value)
  | [] => some []
  | item :: rest => do some ((← settle? item) :: (← settleItems? rest))

/-- The entries of a table with their dates replaced. -/
def settleEntries? : List (String × Value) → Option (List (String × Value))
  | [] => some []
  | (key, value) :: rest => do some ((key, ← settle? value) :: (← settleEntries? rest))

end

end DependencyFiles.Toml
