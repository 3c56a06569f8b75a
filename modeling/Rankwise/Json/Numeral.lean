import Rankwise.Double.Nearest

/-!
# Numerals

A JSON number as it is written: its sign and the digits of its three parts. A numeral without
fraction and exponent that fits a 64-bit word is an integer. Any other one is a double, which is
worked out as follows. The digits are read into a 64-bit significand; a digit that does not fit is
left out, together with all later digits of the same part, and a left-out digit before the point
counts in the exponent instead. The significand is rounded to a double and multiplied or divided by
the power of ten, each step rounding once. A result beyond the largest double is refused.
-/

namespace Rankwise

/-- A number as it is written. Digits are values from zero to nine. -/
structure Numeral where
  negative : Bool
  /-- The digits before the point. -/
  whole : List Nat
  /-- The digits behind the point, if there is one. -/
  fraction : Option (List Nat) := none
  /-- Sign and digits of the exponent, if there is one. -/
  exponent : Option (Bool × List Nat) := none
deriving Repr, DecidableEq

namespace Numeral

/-- The natural that the digits stand for. -/
def ofDigits (digits : List Nat) : Nat :=
  digits.foldl (fun n digit => 10 * n + digit) 0

/-- Reads digits into a significand as long as it stays below `2 ^ 64`. Gives the significand and
the digits that were left out. -/
def takeDigits (significand : Nat) : List Nat → Nat × List Nat
  | [] => (significand, [])
  | digit :: rest =>
    if 10 * significand + digit < 0x10000000000000000 then
      takeDigits (10 * significand + digit) rest
    else (significand, digit :: rest)

/-- The value as an integer, if the numeral has neither fraction nor exponent and fits a word. A
negative zero is no integer. -/
def integer? (numeral : Numeral) : Option Int :=
  match numeral.fraction, numeral.exponent with
  | none, none =>
    let magnitude := ofDigits numeral.whole
    if numeral.negative then
      if 0 < magnitude ∧ magnitude ≤ 0x8000000000000000 then some (-magnitude) else none
    else if magnitude < 0x10000000000000000 then some magnitude
    else none
  | _, _ => none

/-- Multiplies or divides by `10 ^ exponent`. The largest power of ten among the doubles is
`10 ^ 308`; beyond it the value is divided in steps, and any larger value is refused. -/
def scaled? (value : Double) (exponent : Int) : Option Double :=
  if 308 < exponent then
    if value.isZero then some value else none
  else if 0 ≤ exponent then
    let result := value.product (.powerOfTen exponent.toNat)
    if result.isInfinite then none else some result
  else
    some (shrink ((-exponent).toNat / 308) value (-exponent).toNat)
where
  /-- Divides by `10 ^ exponent`, the first `steps` times by `10 ^ 308` as long as the rest of the
  exponent is larger than that. -/
  shrink : Nat → Double → Nat → Double
    | 0, value, exponent => value.quotient (.powerOfTen exponent)
    | steps + 1, value, exponent =>
      if exponent ≤ 308 then value.quotient (.powerOfTen exponent)
      else if value.isZero then value
      else shrink steps (value.quotient (.powerOfTen 308)) (exponent - 308)

/-- The exponent as it is written, or `none` if it does not fit a 32-bit integer. -/
def writtenExponent? (numeral : Numeral) : Option Int :=
  match numeral.exponent with
  | none => some 0
  | some (negative, digits) =>
    let magnitude := ofDigits digits
    if magnitude < 0x80000000 then some (if negative then -magnitude else magnitude) else none

/-- The value as a double, or `none` if it is too large for one. -/
def double? (numeral : Numeral) : Option Double := do
  let (whole, leftOut) := takeDigits 0 numeral.whole
  let (significand, ignored) := takeDigits whole (numeral.fraction.getD [])
  let fractionDigits := (numeral.fraction.getD []).length - ignored.length
  let magnitude ←
    match numeral.writtenExponent? with
    | some exponent =>
      scaled? (.ofNat significand) (exponent + leftOut.length - fractionDigits)
    | none =>
      -- The exponent is out of all proportion: the value is zero or too large.
      let vanishes := significand = 0 ∨ numeral.exponent.any Prod.fst
      if vanishes then some (.ofNat 0) else none
  return if numeral.negative then magnitude.negated else magnitude

end Numeral

/-- The value of a number: an exact integer that fits a word, or a double. -/
inductive Number where
  | integer (value : Int)
  | double (value : Double)
deriving DecidableEq, Repr

/-- The value of a numeral, or `none` if it is too large for a double. -/
def Numeral.value? (numeral : Numeral) : Option Number :=
  match numeral.integer? with
  | some value => some (.integer value)
  | none => numeral.double?.map .double

end Rankwise
