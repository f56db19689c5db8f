/-!
# Numerals

Digits of bases up to sixteen and the natural numbers they spell, most significant digit
first.
-/

namespace DependencyFiles.Number

/-- The value of a digit in bases up to sixteen; letters count in either case. -/
def digitValue (c : Char) : Nat :=
  if c.isDigit then c.toNat - '0'.toNat
  else if 'a' ≤ c ∧ c ≤ 'f' then c.toNat - 'a'.toNat + 10
  else if 'A' ≤ c ∧ c ≤ 'F' then c.toNat - 'A'.toNat + 10
  else 16

/-- Whether a character is a digit of the base. -/
def isDigitOf (base : Nat) (c : Char) : Bool := digitValue c < base

/-- The number that digits of the base spell. -/
def ofDigits (base : Nat) (digits : List Char) : Nat :=
  digits.foldl (fun n c => n * base + digitValue c) 0

/-- The number that the digits spell, when all of them belong to the base. -/
def ofDigits? (base : Nat) (digits : List Char) : Option Nat :=
  if digits.all (isDigitOf base) then some (ofDigits base digits) else none

end DependencyFiles.Number
