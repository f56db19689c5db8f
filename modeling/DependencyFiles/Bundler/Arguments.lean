import DependencyFiles.Text.Blank

/-!
# Arguments of a method call

Calls are read from the text behind the method's name, with or without parentheses.
Commas, closing parentheses and comment signs only count outside of string literals, and
commas only outside of brackets; any closing bracket closes the innermost open one.
-/

namespace DependencyFiles.Bundler

open Text

/-- Where in a line a character stands: in a string literal, and inside how many brackets. -/
structure Nesting where
  quote : Option Char := none
  depth : Nat := 0
  deriving DecidableEq, Repr

/-- Whether a character opens or closes a string literal. -/
def isQuote (c : Char) : Bool := c == '"' || c == '\''

/-- Whether a character opens a bracket. -/
def opensBracket (c : Char) : Bool := c == '(' || c == '[' || c == '\x7b'

/-- Whether a character closes a bracket. -/
def closesBracket (c : Char) : Bool := c == ')' || c == ']' || c == '\x7d'

/-- The nesting after one more character. -/
def Nesting.step (n : Nesting) (c : Char) : Nesting :=
  match n.quote with
  | some q => if c = q then { n with quote := none } else n
  | none =>
    if isQuote c then { n with quote := some c }
    else if opensBracket c then { n with depth := n.depth + 1 }
    else if closesBracket c then { n with depth := n.depth - 1 }
    else n

/-- Whether the place is outside of string literals and brackets. -/
def Nesting.isOutside (n : Nesting) : Bool := n.quote.isNone && n.depth == 0

/-- The text up to the comment sign of a line. -/
def withoutComment (n : Nesting) : List Char → List Char
  | [] => []
  | c :: rest =>
    if n.quote.isNone ∧ c = '#' then [] else c :: withoutComment (n.step c) rest

/-- The text before the parenthesis that closes one opened before the text. -/
def beforeClosing? (n : Nesting) : List Char → Option (List Char)
  | [] => none
  | c :: rest =>
    if n.isOutside ∧ c = ')' then some []
    else (beforeClosing? (n.step c) rest).map (c :: ·)

/-- The pieces between commas outside of string literals and brackets. -/
def commaPieces (n : Nesting) : List Char → List (List Char)
  | [] => [[]]
  | c :: rest =>
    if n.isOutside ∧ c = ',' then [] :: commaPieces n rest
    else
      match commaPieces (n.step c) rest with
      | [] => [[c]]
      | piece :: more => (c :: piece) :: more

/-- Drop the last piece when it is empty. -/
def dropEmptyLast : List (List Char) → List (List Char)
  | [] => []
  | [piece] => if piece.isEmpty then [] else [piece]
  | piece :: next :: more => piece :: dropEmptyLast (next :: more)

/-- The arguments in a text, trimmed; only the last one is left out when it is empty. -/
def splitArguments (text : List Char) : List (List Char) :=
  dropEmptyLast ((commaPieces {} text).map trim)

/-- Whether a text is the opener of a block: `do`, perhaps with parameters, or a brace. -/
def isBlockOpener : List Char → Bool
  | 'd' :: 'o' :: rest =>
    allBlank rest ||
      match trimStart rest with
      | '|' :: parameters =>
        match parameters.dropWhile (· ≠ '|') with
        | '|' :: rest => allBlank rest
        | _ => false
      | _ => false
  | '\x7b' :: rest => allBlank rest
  | _ => false

/-- The text before a block opener at its end, with the blanks between them left out. -/
def dropBlockOpener : List Char → List Char
  | [] => []
  | c :: rest =>
    if isBlank c && isBlockOpener (trimStart rest) then [] else c :: dropBlockOpener rest

/-- The arguments of a call, from the text behind the method's name; nothing when that text
is no argument list. -/
def callArguments? : List Char → Option (List (List Char))
  | [] => some []
  | '(' :: rest => (beforeClosing? {} rest).map splitArguments
  | c :: rest =>
    if isBlank c then
      let text := trim (dropBlockOpener (c :: rest))
      if text.head? = some '=' then none else some (splitArguments text)
    else none

end DependencyFiles.Bundler
