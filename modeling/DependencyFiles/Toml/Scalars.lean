import DependencyFiles.Number.Numeral
import DependencyFiles.Toml.Basic

/-!
# TOML numbers, dates and times

Digits may be grouped by single underscores. A date needs a day that its month has, a
time hours below 24, minutes below 60 and seconds up to 60.
-/

namespace DependencyFiles.Toml

/-- The digits of the base at the start of a text, with an underscore between any two dropped. -/
def moreDigits (base : Nat) : List Char → List Char × List Char
  | [] => ([], [])
  | '_' :: c :: rest =>
    if Number.isDigitOf base c then
      let (digits, rest) := moreDigits base rest
      (c :: digits, rest)
    else ([], '_' :: c :: rest)
  | c :: rest =>
    if Number.isDigitOf base c then
      let (digits, rest) := moreDigits base rest
      (c :: digits, rest)
    else ([], c :: rest)

/-- One or more digits of the base, the first of them bare. -/
def readDigits? (base : Nat) : List Char → Option (List Char × List Char)
  | c :: rest =>
    if Number.isDigitOf base c then
      let (digits, rest) := moreDigits base rest
      some (c :: digits, rest)
    else none
  | [] => none

/-- Decimal digits without a leading zero, unless it is the only digit. -/
def readWhole? : List Char → Option (List Char × List Char)
  | '0' :: rest => some (['0'], rest)
  | text => readDigits? 10 text

/-- Whether a minus stands next, and what follows a sign. -/
def readSign : List Char → Bool × List Char
  | '-' :: rest => (true, rest)
  | '+' :: rest => (false, rest)
  | text => (false, text)

/-- An integer, which must fit 64 bits with a sign. -/
def integer? (negative : Bool) (base : Nat) (digits : List Char) : Option Value :=
  let n := Number.ofDigits base digits
  if negative then if n ≤ Nat.pow 2 63 then some (.integer (-n)) else none
  else if n < Nat.pow 2 63 then some (.integer n) else none

/-- The digits after the point of a number, none when no point stands next. -/
def readFraction? : List Char → Option (List Char × List Char)
  | '.' :: rest => readDigits? 10 rest
  | rest => some ([], rest)

/-- The exponent of a number, zero when none stands next. -/
def readExponent? : List Char → Option (Int × List Char)
  | [] => some (0, [])
  | e :: rest =>
    if e = 'e' ∨ e = 'E' then do
      let (negative, rest) := readSign rest
      let (digits, rest) ← readDigits? 10 rest
      let n : Int := Number.ofDigits 10 digits
      some (if negative then -n else n, rest)
    else some (0, e :: rest)

/-- A number in decimal notation after its sign; one that overflows upwards is refused. -/
def readDecimal? (negative : Bool) (text : List Char) : Option (Value × List Char) := do
  let (whole, rest) ← readWhole? text
  let isFloat := rest.head?.any fun c => c == '.' || c == 'e' || c == 'E'
  if isFloat then
    let (fraction, rest) ← readFraction? rest
    let (exponent, rest) ← readExponent? rest
    let x := Number.Binary64.ofDecimal negative (Number.ofDigits 10 (whole ++ fraction))
      (exponent - fraction.length)
    if x = .infinite false then none else some (.float x, rest)
  else some (← integer? negative 10 whole, rest)

/-- A number, with a sign or in another base. -/
def readNumber? (text : List Char) : Option (Value × List Char) :=
  match text with
  | '0' :: 'x' :: rest => inBase 16 rest
  | '0' :: 'o' :: rest => inBase 8 rest
  | '0' :: 'b' :: rest => inBase 2 rest
  | text =>
    match readSign text with
    | (negative, 'i' :: 'n' :: 'f' :: rest) => some (.float (.infinite negative), rest)
    | (_, 'n' :: 'a' :: 'n' :: rest) => some (.float .nan, rest)
    | (negative, text) => readDecimal? negative text
where
  inBase (base : Nat) (text : List Char) : Option (Value × List Char) := do
    let (digits, rest) ← readDigits? base text
    some (← integer? false base digits, rest)

/-- The number of a fixed count of bare decimal digits, and what follows. -/
def readFixed? (count : Nat) (text : List Char) : Option (Nat × List Char) := do
  let digits := text.take count
  if digits.length < count then none
  some (← Number.ofDigits? 10 digits, text.drop count)

/-- What follows a character, when it stands next. -/
def afterChar? (expected : Char) : List Char → Option (List Char)
  | c :: rest => if c = expected then some rest else none
  | [] => none

/-- How many days a month has; none for a month that is no month. -/
def daysOf (year month : Nat) : Nat :=
  if month = 2 then
    if year % 4 = 0 ∧ (year % 100 ≠ 0 ∨ year % 400 = 0) then 29 else 28
  else if month = 4 ∨ month = 6 ∨ month = 9 ∨ month = 11 then 30
  else if 1 ≤ month ∧ month ≤ 12 then 31
  else 0

/-- What follows a date, when one stands next. -/
def afterDate? (text : List Char) : Option (List Char) := do
  let (year, rest) ← readFixed? 4 text
  let (month, rest) ← readFixed? 2 (← afterChar? '-' rest)
  let (day, rest) ← readFixed? 2 (← afterChar? '-' rest)
  if 1 ≤ day ∧ day ≤ daysOf year month then some rest else none

/-- What follows hours and minutes with a colon between them. -/
def afterMinutes? (text : List Char) : Option (List Char) := do
  let (hour, rest) ← readFixed? 2 text
  let (minute, rest) ← readFixed? 2 (← afterChar? ':' rest)
  if hour ≤ 23 ∧ minute ≤ 59 then some rest else none

/-- What follows a time of day with seconds and perhaps a fraction of them. -/
def afterTime? (text : List Char) : Option (List Char) := do
  let (second, rest) ← readFixed? 2 (← afterChar? ':' (← afterMinutes? text))
  if 60 < second then none
  match rest with
  | '.' :: fraction => if fraction.head?.any Char.isDigit then some (fraction.dropWhile Char.isDigit) else some rest
  | rest => some rest

/-- What follows the distance of a time from universal time, which may be left out. -/
def afterOffset? : List Char → Option (List Char)
  | [] => some []
  | c :: rest =>
    if c = 'Z' ∨ c = 'z' then some rest
    else if c = '+' ∨ c = '-' then afterMinutes? rest
    else some (c :: rest)

/-- What follows a date, a time of day, or both with perhaps an offset. -/
def afterDatetime? (text : List Char) : Option (List Char) :=
  match afterDate? text with
  | none => afterTime? text
  | some rest =>
    match rest with
    | c :: clock =>
      if c = 'T' ∨ c = 't' ∨ c = ' ' then
        match afterTime? clock with
        | none => some rest
        | some rest => afterOffset? rest
      else some rest
    | [] => some []

/-- The number, date, time or truth value at the start of a text, and what follows it. -/
def readScalar? (text : List Char) : Option (Value × List Char) :=
  match text with
  | 't' :: 'r' :: 'u' :: 'e' :: rest => some (.boolean true, rest)
  | 'f' :: 'a' :: 'l' :: 's' :: 'e' :: rest => some (.boolean false, rest)
  | text =>
    match afterDatetime? text with
    | some rest => some (.datetime, rest)
    | none => readNumber? text

end DependencyFiles.Toml
