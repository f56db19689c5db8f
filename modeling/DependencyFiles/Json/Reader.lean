import DependencyFiles.Json.Basic
import DependencyFiles.Number.Numeral

/-!
# Reading JSON

A strict reader: no byte order mark, no comments, no trailing commas, no raw control
characters in strings, no unpaired surrogates, and containers at most `nestingLimit` deep.
Reading either gives the value of the whole text or nothing.
-/

namespace DependencyFiles.Json

/-- How many arrays and objects may stand inside one another. -/
def nestingLimit : Nat := 127

/-- Whether a character may stand between tokens. -/
def isSpace (c : Char) : Bool := c == ' ' || c == '\n' || c == '\t' || c == '\r'

/-- Drop the space before the next token. -/
def skipSpace (text : List Char) : List Char := text.dropWhile isSpace

/-- The character that a backslash and a letter stand for. -/
def escaped? : Char → Option Char
  | '"' => some '"'
  | '\\' => some '\\'
  | '/' => some '/'
  | 'b' => some '\x08'
  | 'f' => some '\x0c'
  | 'n' => some '\n'
  | 'r' => some '\r'
  | 't' => some '\t'
  | _ => none

/-- The characters of a string up to its closing quote, and what follows it. -/
def readString : List Char → Option (List Char × List Char)
  | [] => none
  | '"' :: rest => some ([], rest)
  | '\\' :: 'u' :: a :: b :: c :: d :: rest => do
    let unit ← Number.ofDigits? 16 [a, b, c, d]
    if 0xD800 ≤ unit ∧ unit < 0xDC00 then
      match rest with
      | '\\' :: 'u' :: e :: f :: g :: h :: rest => do
        let low ← Number.ofDigits? 16 [e, f, g, h]
        if 0xDC00 ≤ low ∧ low < 0xE000 then
          let (text, rest) ← readString rest
          some (Char.ofNat (0x10000 + (unit - 0xD800) * 0x400 + (low - 0xDC00)) :: text, rest)
        else none
      | _ => none
    else if 0xDC00 ≤ unit ∧ unit < 0xE000 then none
    else
      let (text, rest) ← readString rest
      some (Char.ofNat unit :: text, rest)
  | '\\' :: e :: rest => do
    let c ← escaped? e
    let (text, rest) ← readString rest
    some (c :: text, rest)
  | c :: rest =>
    if c < ' ' ∨ c = '\\' then none
    else do
      let (text, rest) ← readString rest
      some (c :: text, rest)

/-- The decimal digits at the start of a text, and what follows them. -/
def takeDigits (text : List Char) : List Char × List Char := text.span Char.isDigit

/-- Take digits into a significand for as long as it fits 64 bits; the digits left over come second. -/
def gather : Nat → List Char → Nat × List Char
  | n, [] => (n, [])
  | n, c :: rest =>
    let next := n * 10 + Number.digitValue c
    if next < Nat.pow 2 64 then gather next rest else (n, c :: rest)

/-- Divide by powers of ten of at most `10 ^ 308` each, at most `steps` times. -/
def scaleDown : (steps : Nat) → Number.Binary64 → Nat → Number.Binary64
  | 0, x, _ => x
  | steps + 1, x, power =>
    if power ≤ 308 then x.overPower power
    else if x.isZero then x
    else scaleDown steps (x.overPower 308) (power - 308)

/-- A significand with its sign times a power of ten, refused when it overflows. -/
def scaled? (negative : Bool) (significand : Nat) (power : Int) : Option Number.Binary64 :=
  let x := Number.Binary64.ofDecimal negative significand 0
  if power < 0 then some (scaleDown 4 x (-power).toNat)
  else if x.isZero then some x
  else if 308 < power then none
  else some (x.timesPower power.toNat) |>.filter (·.isFinite)

/-- The value of a number from its parts; `fraction` and `exponent` are missing when not written. -/
def numberValue? (negative : Bool) (whole : List Char) (fraction : Option (List Char))
    (exponent : Option Int) : Option Json :=
  let n := Number.ofDigits 10 whole
  if fraction.isNone ∧ exponent.isNone ∧ n < Nat.pow 2 64 ∧ ¬ (negative ∧ (n = 0 ∨ Nat.pow 2 63 < n)) then
    some (integer (if negative then -n else n))
  else
    let (significand, left) := gather 0 whole
    let fractionDigits := fraction.getD []
    let (significand, fractionLeft) :=
      if left.isEmpty then gather significand fractionDigits else (significand, fractionDigits)
    let power : Int := left.length - (fractionDigits.length - fractionLeft.length : Nat)
    (scaled? negative significand (power + exponent.getD 0)).map float

/-- The digits of a fraction when a point stands next, and what follows; a point needs digits. -/
def readFraction? : List Char → Option (Option (List Char) × List Char)
  | '.' :: rest =>
    match takeDigits rest with
    | ([], _) => none
    | (digits, rest) => some (some digits, rest)
  | rest => some (none, rest)

/-- The digits of an exponent without its sign, which are required. -/
def readExponentDigits? (sign : Int) (text : List Char) : Option (Option Int × List Char) :=
  match takeDigits text with
  | ([], _) => none
  | (digits, rest) => some (some (sign * Number.ofDigits 10 digits), rest)

/-- The exponent when one stands next, and what follows. -/
def readExponent? : List Char → Option (Option Int × List Char)
  | e :: rest =>
    if e = 'e' ∨ e = 'E' then
      match rest with
      | '+' :: rest => readExponentDigits? 1 rest
      | '-' :: rest => readExponentDigits? (-1) rest
      | rest => readExponentDigits? 1 rest
    else some (none, e :: rest)
  | [] => some (none, [])

/-- The number at the start of a text after its sign, and what follows. -/
def readUnsigned? (negative : Bool) (text : List Char) : Option (Json × List Char) := do
  let (whole, rest) := takeDigits text
  if whole.isEmpty ∨ (whole.head? = some '0' ∧ 1 < whole.length) then none
  let (fraction, rest) ← readFraction? rest
  let (exponent, rest) ← readExponent? rest
  some (← numberValue? negative whole fraction exponent, rest)

/-- The literal or number at the start of a text, and what follows. -/
def readScalar? (text : List Char) : Option (Json × List Char) :=
  match text with
  | 'n' :: 'u' :: 'l' :: 'l' :: rest => some (null, rest)
  | 't' :: 'r' :: 'u' :: 'e' :: rest => some (bool true, rest)
  | 'f' :: 'a' :: 'l' :: 's' :: 'e' :: rest => some (bool false, rest)
  | '-' :: rest => readUnsigned? true rest
  | text => readUnsigned? false text

mutual

/-- The value at the start of a text, and what follows; `depth` more containers may open. -/
def readValue : (fuel depth : Nat) → List Char → Option (Json × List Char)
  | 0, _, _ => none
  | fuel + 1, depth, text =>
    match skipSpace text with
    | '[' :: rest =>
      match depth with
      | 0 => none
      | depth + 1 =>
        match skipSpace rest with
        | ']' :: rest => some (array [], rest)
        | rest => (readItems fuel depth rest).map fun (items, rest) => (array items, rest)
    | '\x7b' :: rest =>
      match depth with
      | 0 => none
      | depth + 1 =>
        match skipSpace rest with
        | '\x7d' :: rest => some (object [], rest)
        | rest =>
          (readMembers fuel depth rest).map fun (members, rest) => (object (Keyed.sorted members), rest)
    | '"' :: rest => (readString rest).map fun (text, rest) => (string (String.ofList text), rest)
    | text => readScalar? text

/-- The items of an array up to its closing bracket, at least one, and what follows. -/
def readItems : (fuel depth : Nat) → List Char → Option (List Json × List Char)
  | 0, _, _ => none
  | fuel + 1, depth, text => do
    let (item, rest) ← readValue fuel depth text
    match skipSpace rest with
    | ',' :: rest =>
      let (items, rest) ← readItems fuel depth rest
      some (item :: items, rest)
    | ']' :: rest => some ([item], rest)
    | _ => none

/-- The members of an object up to its closing brace, at least one, and what follows. -/
def readMembers : (fuel depth : Nat) → List Char → Option (List (String × Json) × List Char)
  | 0, _, _ => none
  | fuel + 1, depth, text =>
    match skipSpace text with
    | '"' :: rest => do
      let (key, rest) ← readString rest
      match skipSpace rest with
      | ':' :: rest =>
        let (value, rest) ← readValue fuel depth rest
        match skipSpace rest with
        | ',' :: rest =>
          let (members, rest) ← readMembers fuel depth rest
          some ((String.ofList key, value) :: members, rest)
        | '\x7d' :: rest => some ([(String.ofList key, value)], rest)
        | _ => none
      | _ => none
    | _ => none

end

/-- The value that a text holds, when it holds one value and nothing else. -/
def read? (text : String) : Option Json := do
  let (value, rest) ← readValue (2 * text.length + 2) nestingLimit text.toList
  if (skipSpace rest).isEmpty then some value else none

end DependencyFiles.Json
