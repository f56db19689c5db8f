import DependencyFiles.Number.Numeral

/-!
# TOML strings and comments

The four kinds of strings, each read from behind its opening delimiter, and the text that
may stand between tokens. Line ends inside strings over several lines are read as line
feeds.
-/

namespace DependencyFiles.Toml

/-- Whether a character separates tokens within a line. -/
def isSpace (c : Char) : Bool := c == ' ' || c == '\t'

/-- Drop spaces and tabs. -/
def skipSpace (text : List Char) : List Char := text.dropWhile isSpace

/-- Whether a character may stand in a comment and in most strings: no control character but the tab. -/
def isText (c : Char) : Bool := c == '\t' || (' ' ≤ c && c != '\x7f')

/-- What follows a line end, when one stands next. -/
def afterNewline? : List Char → Option (List Char)
  | '\n' :: rest => some rest
  | '\r' :: '\n' :: rest => some rest
  | _ => none

/-- What follows a comment, when one stands next; the line end stays. -/
def skipComment (text : List Char) : List Char :=
  match text with
  | '#' :: rest => rest.dropWhile isText
  | rest => rest

/-- What follows the rest of a line: space, a comment, and the line end or the end of the text. -/
def afterLine? (text : List Char) : Option (List Char) :=
  match skipComment (skipSpace text) with
  | [] => some []
  | rest => afterNewline? rest

/-- Drop spaces and line ends. -/
def skipBlank : List Char → List Char
  | ' ' :: rest => skipBlank rest
  | '\t' :: rest => skipBlank rest
  | '\n' :: rest => skipBlank rest
  | '\r' :: '\n' :: rest => skipBlank rest
  | rest => rest

/-- Drop spaces, line ends and comments; `inComment` while a comment goes on. -/
def skipGaps (inComment : Bool) : List Char → List Char
  | [] => []
  | '\r' :: '\n' :: rest => skipGaps false rest
  | c :: rest =>
    if c = '\n' then skipGaps false rest
    else if inComment ∧ isText c then skipGaps true rest
    else if isSpace c then skipGaps false rest
    else if c = '#' ∧ !inComment then skipGaps true rest
    else c :: rest

/-- The character with the number that hexadecimal digits spell, surrogates excluded. -/
def scalarOf? (digits : List Char) : Option Char := do
  let n ← Number.ofDigits? 16 digits
  if n < 0xD800 ∨ (0xDFFF < n ∧ n < 0x110000) then some (Char.ofNat n) else none

/-- The character that a backslash and a letter stand for. -/
def escaped? : Char → Option Char
  | 'b' => some '\x08'
  | 'f' => some '\x0c'
  | 'n' => some '\n'
  | 'r' => some '\r'
  | 't' => some '\t'
  | '"' => some '"'
  | '\\' => some '\\'
  | _ => none

/-- The text of a basic string up to its closing quote, and what follows it. -/
def readBasic : List Char → Option (List Char × List Char)
  | [] => none
  | '"' :: rest => some ([], rest)
  | '\\' :: 'u' :: a :: b :: c :: d :: rest => do
    let char ← scalarOf? [a, b, c, d]
    let (text, rest) ← readBasic rest
    some (char :: text, rest)
  | '\\' :: 'U' :: a :: b :: c :: d :: e :: f :: g :: h :: rest => do
    let char ← scalarOf? [a, b, c, d, e, f, g, h]
    let (text, rest) ← readBasic rest
    some (char :: text, rest)
  | '\\' :: e :: rest => do
    let char ← escaped? e
    let (text, rest) ← readBasic rest
    some (char :: text, rest)
  | c :: rest =>
    if isText c ∧ c ≠ '\\' then do
      let (text, rest) ← readBasic rest
      some (c :: text, rest)
    else none

/-- The text of a literal string up to its closing quote, and what follows it. -/
def readLiteral : List Char → Option (List Char × List Char)
  | [] => none
  | '\'' :: rest => some ([], rest)
  | c :: rest =>
    if isText c then do
      let (text, rest) ← readLiteral rest
      some (c :: text, rest)
    else none

/-- The end of a string over several lines: up to two quotes before the closing three are text. -/
def closeMultiline (quote : Char) (text : List Char) : List Char × List Char :=
  let extra := min 2 (text.takeWhile (· == quote)).length
  (List.replicate extra quote, text.drop extra)

/-- Whether a backslash before the text ends its line. -/
def endsLine (text : List Char) : Bool := (afterNewline? (skipSpace text)).isSome

/-- The text of a basic string over several lines; `gap` while a backslash swallows the space
and line ends after it. -/
def readMultilineBasic (gap : Bool) : List Char → Option (List Char × List Char)
  | [] => none
  | '"' :: '"' :: '"' :: rest => some (closeMultiline '"' rest)
  | '\r' :: '\n' :: rest => do
    let (text, rest) ← readMultilineBasic gap rest
    some (if gap then text else '\n' :: text, rest)
  | '\\' :: 'u' :: a :: b :: c :: d :: rest => do
    let char ← scalarOf? [a, b, c, d]
    let (text, rest) ← readMultilineBasic false rest
    some (char :: text, rest)
  | '\\' :: 'U' :: a :: b :: c :: d :: e :: f :: g :: h :: rest => do
    let char ← scalarOf? [a, b, c, d, e, f, g, h]
    let (text, rest) ← readMultilineBasic false rest
    some (char :: text, rest)
  | '\\' :: e :: rest =>
    match escaped? e with
    | some char => do
      let (text, rest) ← readMultilineBasic false rest
      some (char :: text, rest)
    | none => if endsLine (e :: rest) then readMultilineBasic true (e :: rest) else none
  | c :: rest =>
    if gap ∧ (isSpace c ∨ c = '\n') then readMultilineBasic true rest
    else if (isText c ∧ c ≠ '\\') ∨ c = '\n' then do
      let (text, rest) ← readMultilineBasic false rest
      some (c :: text, rest)
    else none

/-- The text of a literal string over several lines. -/
def readMultilineLiteral : List Char → Option (List Char × List Char)
  | [] => none
  | '\'' :: '\'' :: '\'' :: rest => some (closeMultiline '\'' rest)
  | '\r' :: '\n' :: rest => do
    let (text, rest) ← readMultilineLiteral rest
    some ('\n' :: text, rest)
  | c :: rest =>
    if isText c ∨ c = '\n' then do
      let (text, rest) ← readMultilineLiteral rest
      some (c :: text, rest)
    else none

/-- Drop the line end that may follow an opening delimiter of three quotes. -/
def skipFirstNewline (text : List Char) : List Char := (afterNewline? text).getD text

/-- The string at the start of a text, when a quote stands there, and what follows it. -/
def readString? : List Char → Option (List Char × List Char)
  | '"' :: '"' :: '"' :: rest => readMultilineBasic false (skipFirstNewline rest)
  | '"' :: rest => readBasic rest
  | '\'' :: '\'' :: '\'' :: rest => readMultilineLiteral (skipFirstNewline rest)
  | '\'' :: rest => readLiteral rest
  | _ => none

end DependencyFiles.Toml
