/-!
# Double-precision numbers

A double is its 64-bit pattern: one sign bit, eleven bits of exponent and fifty-two of fraction.
Patterns keep every NaN apart, so a double survives being written and read; numeric equality, under
which a NaN differs from itself and the two zeros agree, is the separate test `numericallyEqual`.
-/

namespace Rankwise

/-- A double-precision number, by its bit pattern. -/
structure Double where
  /-- The pattern: sign, then exponent, then fraction. -/
  bits : UInt64
deriving DecidableEq, Repr

namespace Double

/-- Whether the sign bit is set. -/
def isNegative (x : Double) : Bool := decide (0x8000000000000000 ≤ x.bits.toNat)

/-- The eleven exponent bits, as a number. -/
def exponentBits (x : Double) : Nat := x.bits.toNat / 0x10000000000000 % 0x800

/-- The fifty-two fraction bits, as a number. -/
def fractionBits (x : Double) : Nat := x.bits.toNat % 0x10000000000000

/-- Whether the pattern stands for no number. -/
def isNaN (x : Double) : Bool := decide (x.exponentBits = 2047 ∧ x.fractionBits ≠ 0)

/-- Whether the pattern stands for an infinity of either sign. -/
def isInfinite (x : Double) : Bool := decide (x.exponentBits = 2047 ∧ x.fractionBits = 0)

/-- Whether the pattern stands for a zero of either sign. -/
def isZero (x : Double) : Bool := decide (x.exponentBits = 0 ∧ x.fractionBits = 0)

/-- The integer `m` of the absolute value `m * 2 ^ scale` of a finite double. -/
def significand (x : Double) : Nat :=
  if x.exponentBits = 0 then x.fractionBits else 0x10000000000000 + x.fractionBits

/-- The exponent of the absolute value `significand * 2 ^ scale` of a finite double. -/
def scale (x : Double) : Int :=
  if x.exponentBits = 0 then -1074 else (x.exponentBits : Int) - 1075

/-- Equality of numbers: a NaN differs from everything, the two zeros are equal. -/
def numericallyEqual (x y : Double) : Bool :=
  !x.isNaN && !y.isNaN && (decide (x = y) || (x.isZero && y.isZero))

/-- A finite double as a ratio of its absolute value: numerator and positive denominator. -/
def ratio (x : Double) : Nat × Nat :=
  (x.significand * Nat.pow 2 x.scale.toNat, Nat.pow 2 (-x.scale).toNat)

end Double

end Rankwise
