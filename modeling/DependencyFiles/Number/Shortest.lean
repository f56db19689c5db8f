import DependencyFiles.Number.Binary64

/-!
# Shortest decimal text of a floating-point number

A number is written with the fewest decimal digits that read back as that number; of two
such decimals of the same length the nearer one is taken. `Layout` says how the digits
are set out and which way a tie between two equally near decimals goes.
-/

namespace DependencyFiles.Number

/-- Decimal digits times a power of ten. -/
structure Digits where
  digits : Nat
  power : Int
  deriving DecidableEq, Repr

/-- Which of two equally near decimals is taken. -/
inductive Tie where
  | up
  | even
  deriving DecidableEq, Repr

/-- A positive ratio of natural numbers compared with a decimal: whether it is at most the decimal. -/
def ratioLe (num den : Nat) (d : Digits) : Bool :=
  num * Nat.pow 10 (-d.power).toNat ≤ d.digits * Nat.pow 10 d.power.toNat * den

/-- Whether a positive ratio of natural numbers is at least the decimal. -/
def ratioGe (num den : Nat) (d : Digits) : Bool :=
  d.digits * Nat.pow 10 d.power.toNat * den ≤ num * Nat.pow 10 (-d.power).toNat

/-- The ends of the interval that rounds to a positive number, in quarters of its last place. -/
def roundingInterval (significand : Nat) (exponent : Int) : Nat × Nat :=
  let below := if significand = Nat.pow 2 52 ∧ Binary64.leastExponent < exponent then 1 else 2
  (4 * significand - below, 4 * significand + 2)

/-- Whether a decimal reads back as the positive number. -/
def readsBack (significand : Nat) (exponent : Int) (d : Digits) : Bool :=
  let (low, high) := roundingInterval significand exponent
  let scale := exponent - 2
  let up := Nat.pow 2 scale.toNat
  let den := Nat.pow 2 (-scale).toNat
  let closed := significand % 2 = 0
  let above := ratioLe (low * up) den d && (closed || !ratioGe (low * up) den d)
  let under := ratioGe (high * up) den d && (closed || !ratioLe (high * up) den d)
  above && under

/-- The number of decimal digits before the point of a positive ratio; negative for leading zeros. -/
def decimalMagnitude (num den : Nat) : Int :=
  let digitsOf (n : Nat) : Int := (Nat.toDigits 10 n).length
  let guess := digitsOf num - digitsOf den
  if ratioGe num den ⟨1, guess⟩ then guess + 1 else guess

/-- The decimal of the given length that reads back as the positive number, if there is one. -/
def ofLength? (tie : Tie) (significand : Nat) (exponent : Int) (length : Nat) : Option Digits :=
  let num := significand * Nat.pow 2 exponent.toNat
  let den := Nat.pow 2 (-exponent).toNat
  let power := decimalMagnitude num den - length
  let scaledNum := num * Nat.pow 10 (-power).toNat
  let scaledDen := den * Nat.pow 10 power.toNat
  let below : Digits := ⟨scaledNum / scaledDen, power⟩
  let above : Digits := ⟨scaledNum / scaledDen + 1, power⟩
  let remainder := 2 * (scaledNum % scaledDen)
  match readsBack significand exponent below, readsBack significand exponent above with
  | true, true =>
    if remainder < scaledDen then some below
    else if scaledDen < remainder then some above
    else if tie = .even ∧ below.digits % 2 = 0 then some below
    else some above
  | true, false => some below
  | false, true => some above
  | false, false => none

/-- The fewest digits that read back as the positive number, without trailing zeros. -/
def shortest (tie : Tie) (significand : Nat) (exponent : Int) : Digits :=
  let found := (List.range 17).findSome? fun n => ofLength? tie significand exponent (n + 1)
  stripZeros 17 (found.getD ⟨significand, 0⟩)
where
  stripZeros : Nat → Digits → Digits
    | 0, d => d
    | n + 1, d => if d.digits ≠ 0 ∧ d.digits % 10 = 0 then stripZeros n ⟨d.digits / 10, d.power + 1⟩ else d

/-- How the digits of a number are set out as text. -/
structure Layout where
  tie : Tie
  /-- Positional notation ends where the point would stand this many digits after the first. -/
  greatestPoint : Option Int
  /-- Positional notation starts where the point would stand this many digits before the first. -/
  leastPoint : Option Int

/-- Digits with a point after the first `point` of them, padded with zeros as needed. -/
def positional (text : List Char) (point : Int) : List Char :=
  if point ≤ 0 then '0' :: '.' :: List.replicate (-point).toNat '0' ++ text
  else if text.length ≤ point.toNat then
    text ++ List.replicate (point.toNat - text.length) '0' ++ ['.', '0']
  else text.take point.toNat ++ '.' :: text.drop point.toNat

/-- Digits with a point after the first one and the exponent of ten behind them, which always
has a sign. -/
def exponential (text : List Char) (point : Int) : List Char :=
  let fraction := text.drop 1
  let lead := if fraction.isEmpty then text else text.take 1 ++ '.' :: fraction
  let sign := if point < 1 then '-' else '+'
  lead ++ 'e' :: sign :: Nat.toDigits 10 (point - 1).natAbs

/-- The text of a number under a layout. -/
def Layout.render (layout : Layout) : Binary64 → String
  | .nan => "NaN"
  | .infinite negative => if negative then "-inf" else "inf"
  | .finite negative significand exponent =>
    let body :=
      if significand = 0 then ['0', '.', '0']
      else
        let d := shortest layout.tie significand exponent
        let text := Nat.toDigits 10 d.digits
        let point : Int := text.length + d.power
        if layout.greatestPoint.any (· < point) || layout.leastPoint.any (point < ·) then
          exponential text point
        else positional text point
    String.ofList (if negative then '-' :: body else body)

/-- Every number is written out in full, and a tie goes up. -/
def plainLayout : Layout := ⟨.up, none, none⟩

/-- Numbers below `10 ^ 16` and from `10 ^ -5` on are written out in full, others with an
exponent; a tie goes to the even digit. -/
def compactLayout : Layout := ⟨.even, some 16, some (-4)⟩

end DependencyFiles.Number
