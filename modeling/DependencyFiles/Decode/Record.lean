import DependencyFiles.Decode.Shape

/-!
# Records in JSON

A record is written as an object with a member for each field, or as an array of its
fields in order. Members are decoded in the order of the object, and the first fault
decides; only then missing fields are noticed, in the order of the record.
-/

namespace DependencyFiles

/-- How a record of type `ρ` is decoded from fields gathered in a draft of type `π`. -/
structure RecordFormat (π ρ : Type) where
  /-- The name that messages give the record. -/
  name : String
  fields : List String
  start : π
  /-- Take the value of a field into the draft. -/
  read : String → Json → π → Except ShapeError π
  /-- Complete the draft; a field that is needed and missing is reported by the given error. -/
  finish : (missing : String → ShapeError) → π → Except ShapeError ρ

namespace RecordFormat

variable {π ρ : Type}

/-- Take several fields into the draft, in order. -/
def readAll (format : RecordFormat π ρ) (fields : List (String × Json)) : Except ShapeError π :=
  fields.foldlM (fun draft field => format.read field.1 field.2 draft) format.start

/-- Decode a record. -/
def decode (format : RecordFormat π ρ) : Json → Except ShapeError ρ
  | .object members => do format.finish .missingField (← format.readAll members)
  | .array items => do
    let count := format.fields.length
    let expected := "struct " ++ format.name ++ " with " ++ toString count ++ " elements"
    let draft ← format.readAll (format.fields.zip items)
    let record ← format.finish (fun field => .invalidLength (format.fields.idxOf field) expected) draft
    if count < items.length then .error (.invalidLength items.length "fewer elements in array")
    else .ok record
  | value => .error (.invalidType (Shape.ofJson value) ("struct " ++ format.name))

end RecordFormat

/-- A field that the record cannot do without. -/
def required {α : Type} (missing : String → ShapeError) (field : String) :
    Option α → Except ShapeError α
  | some value => .ok value
  | none => .error (missing field)

/-- The text that is wanted. -/
def Json.asText (value : Json) : Except ShapeError String := (Shape.ofJson value).asText

/-- A value or null. -/
def Json.asOptional {α : Type} (decode : Json → Except ShapeError α) :
    Json → Except ShapeError (Option α)
  | .null => .ok none
  | value => (decode value).map some

end DependencyFiles
