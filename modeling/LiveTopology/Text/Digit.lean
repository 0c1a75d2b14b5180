/-!
# Digits

Digits of the bases up to sixteen and the numbers that they write.
-/

namespace LiveTopology.Text

/-- The value of a digit. -/
def digitValue? (c : Char) : Option Nat :=
  if '0' ≤ c ∧ c ≤ '9' then some (c.toNat - '0'.toNat)
  else if 'a' ≤ c ∧ c ≤ 'f' then some (c.toNat - 'a'.toNat + 10)
  else if 'A' ≤ c ∧ c ≤ 'F' then some (c.toNat - 'A'.toNat + 10)
  else none

/-- A decimal digit. -/
def isDigit (c : Char) : Bool := '0' ≤ c && c ≤ '9'

/-- A digit of base sixteen. -/
def isHexDigit (c : Char) : Bool := (digitValue? c).isSome

/-- A digit of a base. -/
def isDigitOf (base : Nat) (c : Char) : Bool := (digitValue? c).any (· < base)

/-- The number that digits of a base write. -/
def numeral (base : Nat) (digits : List Char) : Nat :=
  digits.foldl (fun value digit => value * base + (digitValue? digit).getD 0) 0

end LiveTopology.Text
