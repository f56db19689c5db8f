/-!
# Binary floating point with 64 bits

A finite number is a significand times a power of two. Every operation here computes an
exact ratio of natural numbers and rounds it once, to the nearest number of the format
and to the even significand when two are equally near.
-/

namespace DependencyFiles.Number

/-- A 64-bit binary floating-point number. -/
inductive Binary64 where
  | finite (negative : Bool) (significand : Nat) (exponent : Int)
  | infinite (negative : Bool)
  | nan
  deriving DecidableEq, Repr

namespace Binary64

/-- The exponent of the smallest numbers. -/
def leastExponent : Int := -1074

/-- The exponent of the largest numbers. -/
def greatestExponent : Int := 971

/-- The quotient rounded to the nearest natural number, a half to the even one. -/
def roundDiv (num den : Nat) : Nat :=
  let quotient := num / den
  let remainder := num % den
  if 2 * remainder < den then quotient
  else if den < 2 * remainder then quotient + 1
  else quotient + quotient % 2

/-- The largest power of two that is at most the positive ratio, as an exponent. -/
def log2Ratio (num den : Nat) : Int :=
  let guess : Int := (num.log2 : Int) - den.log2
  if num * Nat.pow 2 (-guess).toNat < den * Nat.pow 2 guess.toNat then guess - 1 else guess

/-- The number nearest to a ratio of natural numbers. -/
def ofRatio (negative : Bool) (num den : Nat) : Binary64 :=
  if num = 0 then finite negative 0 leastExponent
  else
    let exponent := max (log2Ratio num den - 52) leastExponent
    let significand := roundDiv (num * Nat.pow 2 (-exponent).toNat) (den * Nat.pow 2 exponent.toNat)
    let (significand, exponent) :=
      if significand = Nat.pow 2 53 then (Nat.pow 2 52, exponent + 1) else (significand, exponent)
    if greatestExponent < exponent then infinite negative else finite negative significand exponent

/-- The number nearest to a natural number times a power of ten.

Powers so large or small that every nonzero multiple overflows or vanishes are cut short. -/
def ofDecimal (negative : Bool) (digits : Nat) (power : Int) : Binary64 :=
  if digits = 0 then finite negative 0 leastExponent
  else
    let length : Int := (Nat.toDigits 10 digits).length
    if 400 < length + power then infinite negative
    else if length + power < -400 then finite negative 0 leastExponent
    else ofRatio negative (digits * Nat.pow 10 power.toNat) (Nat.pow 10 (-power).toNat)

/-- The rounded product with a power of ten that is itself rounded first. -/
def timesPower (x : Binary64) (power : Nat) : Binary64 :=
  match x, ofRatio false (Nat.pow 10 power) 1 with
  | finite negative m q, finite _ n r =>
    ofRatio negative (m * n * Nat.pow 2 (q + r).toNat) (Nat.pow 2 (-(q + r)).toNat)
  | x, _ => x

/-- The rounded quotient by a power of ten that is itself rounded first. -/
def overPower (x : Binary64) (power : Nat) : Binary64 :=
  match x, ofRatio false (Nat.pow 10 power) 1 with
  | finite negative m q, finite _ n r =>
    ofRatio negative (m * Nat.pow 2 (q - r).toNat) (n * Nat.pow 2 (r - q).toNat)
  | x, _ => x

/-- Whether the number is neither infinite nor undefined. -/
def isFinite : Binary64 → Bool
  | finite .. => true
  | _ => false

/-- Whether the number is a zero of either sign. -/
def isZero : Binary64 → Bool
  | finite _ m _ => m == 0
  | _ => false

end Binary64

end DependencyFiles.Number
