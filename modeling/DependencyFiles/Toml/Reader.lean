import DependencyFiles.Text.Basic
import DependencyFiles.Toml.Scalars
import DependencyFiles.Toml.Strings
import DependencyFiles.Toml.Table

/-!
# Reading TOML

A document is a sequence of statements, each on a line of its own. Reading gives the table
they describe, or nothing when the text is malformed, names a key twice, holds an integer
beyond 64 bits, or nests values or key parts `nestingLimit` deep.
-/

namespace DependencyFiles.Toml

/-- So many parts a dotted key, and so many levels nested values, may not reach. -/
def nestingLimit : Nat := 80

/-- Whether a character may stand in a key without quotes. -/
def isBareKey (c : Char) : Bool := c.isAlphanum || c == '_' || c == '-'

/-- One part of a key, and what follows it. -/
def readKeyPart? (text : List Char) : Option (List Char × List Char) :=
  match text with
  | '"' :: rest => readBasic rest
  | '\'' :: rest => readLiteral rest
  | text =>
    match text.span isBareKey with
    | ([], _) => none
    | (part, rest) => some (part, rest)

/-- The parts of a key after its first ones, with the space around each part. -/
def readKeyParts? : (fuel : Nat) → List Char → Option (List String × List Char)
  | 0, _ => none
  | fuel + 1, text => do
    let (part, rest) ← readKeyPart? (skipSpace text)
    match skipSpace rest with
    | '.' :: rest =>
      let (parts, rest) ← readKeyParts? fuel rest
      some (String.ofList part :: parts, rest)
    | rest => some ([String.ofList part], rest)

/-- A key as its last part and the path before it, and what follows. -/
def readKey? (text : List Char) : Option (List String × String × List Char) := do
  let (parts, rest) ← readKeyParts? nestingLimit text
  if nestingLimit ≤ parts.length then none
  some (parts.dropLast, ← parts.getLast?, rest)

mutual

/-- The value at the start of a text, and what follows; `depth` more levels may nest. -/
def readValue : (fuel depth : Nat) → List Char → Option (Value × List Char)
  | 0, _, _ => none
  | fuel + 1, depth, text =>
    match text with
    | '[' :: rest =>
      match depth with
      | 0 => none
      | depth + 1 => (readItems fuel depth rest).map fun (items, rest) => (.array items, rest)
    | '\x7b' :: rest =>
      match depth with
      | 0 => none
      | depth + 1 =>
        match skipSpace rest with
        | '\x7d' :: rest => some (.table [], rest)
        | rest => do
          let (pairs, rest) ← readPairs fuel depth rest
          some (← inlineTableOf? pairs, rest)
    | c :: _ =>
      if c = '"' ∨ c = '\'' then
        (readString? text).map fun (text, rest) => (.string (String.ofList text), rest)
      else readScalar? text
    | [] => none

/-- The items of an array up to its closing bracket; a comma may follow the last one. -/
def readItems : (fuel depth : Nat) → List Char → Option (List Value × List Char)
  | 0, _, _ => none
  | fuel + 1, depth, text =>
    match skipGaps false text with
    | ']' :: rest => some ([], rest)
    | text => do
      let (item, rest) ← readValue fuel depth text
      match skipGaps false rest with
      | ',' :: rest =>
        let (items, rest) ← readItems fuel depth rest
        some (item :: items, rest)
      | ']' :: rest => some ([item], rest)
      | _ => none

/-- The pairs of an inline table up to its closing brace, at least one. -/
def readPairs : (fuel depth : Nat) → List Char → Option (List (List String × String × Value) × List Char)
  | 0, _, _ => none
  | fuel + 1, depth, text => do
    let (path, key, rest) ← readKey? text
    let (value, rest) ← readValue fuel depth (skipSpace (← afterChar? '=' rest))
    match skipSpace rest with
    | ',' :: rest =>
      let (pairs, rest) ← readPairs fuel depth rest
      some ((path, key, value) :: pairs, rest)
    | '\x7d' :: rest => some ([(path, key, value)], rest)
    | _ => none

end

/-- The statement at the start of a text, and what follows the rest of its line. -/
def readStatement? (fuel : Nat) (text : List Char) : Option (Statement × List Char) :=
  match text with
  | '[' :: '[' :: rest => do
    let (path, key, rest) ← readKey? rest
    some (.arrayHeader path key, ← afterLine? (← afterChar? ']' (← afterChar? ']' rest)))
  | '[' :: rest => do
    let (path, key, rest) ← readKey? rest
    some (.header path key, ← afterLine? (← afterChar? ']' rest))
  | text => do
    let (path, key, rest) ← readKey? text
    let (value, rest) ← readValue fuel (nestingLimit - 1) (skipSpace (← afterChar? '=' rest))
    some (.pair path key value, ← afterLine? rest)

/-- The statements of a document. -/
def readStatements? (valueFuel : Nat) : (fuel : Nat) → List Char → Option (List Statement)
  | 0, _ => none
  | fuel + 1, text =>
    match skipBlank text with
    | [] => some []
    | '#' :: rest => do readStatements? valueFuel fuel (← afterLine? ('#' :: rest))
    | rest => do
      let (statement, rest) ← readStatement? valueFuel rest
      let statements ← readStatements? valueFuel fuel rest
      some (statement :: statements)

/-- The table that a document holds; a byte order mark may stand before it. -/
def read? (text : String) : Option Value := do
  let fuel := 2 * text.length + 2
  let statements ← readStatements? fuel fuel ((Text.after? ['\ufeff'] text.toList).getD text.toList)
  tableOf? statements

end DependencyFiles.Toml
