import Rankwise.Double

/-!
# The shortest decimal that reads back

Of all decimals that round to a given double, `shortest` picks one with the fewest digits, and of
those the one nearest to the double. `Tie` decides between two that are equally near.

The reals that round to a double form an interval, which has its ends exactly if the significand is
even. For one digit, two digits, and so on, the two neighbours of the double on the grid of decimals
with that many digits are tried; if any decimal of the grid lies in the interval, one of these two
does. Seventeen digits always suffice.
-/

namespace Rankwise.Double

/-- Which of two equally near decimals is taken. -/
inductive Tie where
  /-- The one of the larger magnitude. -/
  | away
  /-- The one whose last digit is even. -/
  | even
deriving DecidableEq, Repr

/-- The decimal `coefficient * 10 ^ exponent`. -/
structure Decimal where
  coefficient : Nat
  exponent : Int
deriving DecidableEq, Repr

/-- The reals that round to a positive double, over a common denominator. -/
structure Interval where
  lower : Nat
  value : Nat
  upper : Nat
  denominator : Nat
  /-- Whether the two ends round to the double as well. -/
  closed : Bool

/-- The interval of a positive finite double. Below a power of two the neighbour is only half as far
away as above it. -/
def interval (x : Double) : Interval :=
  let unit := Nat.pow 2 (x.scale - 2).toNat
  let below := if x.fractionBits = 0 ∧ 1 < x.exponentBits then 1 else 2
  { lower := (4 * x.significand - below) * unit
    value := 4 * x.significand * unit
    upper := (4 * x.significand + 2) * unit
    denominator := Nat.pow 2 (2 - x.scale).toNat
    closed := x.significand % 2 = 0 }

namespace Interval

/-- Whether the ratio `numerator / denominator` lies in the interval. -/
def contains (span : Interval) (numerator denominator : Nat) : Bool :=
  let scaled := numerator * span.denominator
  if span.closed then
    decide (span.lower * denominator ≤ scaled ∧ scaled ≤ span.upper * denominator)
  else
    decide (span.lower * denominator < scaled ∧ scaled < span.upper * denominator)

/-- The exponent `k` with `10 ^ (k - 1) ≤ value < 10 ^ k`. -/
def decimalPoint (span : Interval) : Int :=
  if span.denominator ≤ span.value then
    ((Nat.toDigits 10 (span.value / span.denominator)).length : Int)
  else
    let inverse := (span.denominator + span.value - 1) / span.value
    1 - ((Nat.toDigits 10 (inverse - 1)).length : Int)

/-- A decimal with `count` digits in the interval, the nearest one to the value. -/
def withDigits? (span : Interval) (tie : Tie) (count : Nat) : Option Decimal :=
  let exponent := span.decimalPoint - count
  -- The grid of these decimals has the step `up / down`.
  let up := Nat.pow 10 exponent.toNat
  let down := Nat.pow 10 (-exponent).toNat
  let floor := span.value * down / (span.denominator * up)
  let below : Decimal := ⟨floor, exponent⟩
  let above : Decimal := ⟨floor + 1, exponent⟩
  match span.contains (floor * up) down, span.contains ((floor + 1) * up) down with
  | false, false => none
  | true, false => some below
  | false, true => some above
  | true, true =>
    let toBelow := span.value * down - floor * up * span.denominator
    let toAbove := (floor + 1) * up * span.denominator - span.value * down
    if toBelow < toAbove then some below
    else if toAbove < toBelow then some above
    else match tie with
      | .away => some above
      | .even => if floor % 2 = 0 then some below else some above

end Interval

/-- Takes trailing zeros of the coefficient into the exponent, at most `count` of them. -/
def Decimal.trimmed (decimal : Decimal) : Nat → Decimal
  | 0 => decimal
  | count + 1 =>
    if decimal.coefficient ≠ 0 ∧ decimal.coefficient % 10 = 0 then
      Decimal.trimmed ⟨decimal.coefficient / 10, decimal.exponent + 1⟩ count
    else decimal

/-- The shortest decimal that reads back as the absolute value of a finite double. -/
def shortest (tie : Tie) (x : Double) : Decimal :=
  if x.isZero then ⟨0, 0⟩
  else
    let found := (List.range 17).findSome? fun digits => x.interval.withDigits? tie (digits + 1)
    (found.getD ⟨0, 0⟩).trimmed 17

/-- The decimal digits of the coefficient. -/
def Decimal.digits (decimal : Decimal) : List Char :=
  Nat.toDigits 10 decimal.coefficient

/-- Where the decimal point stands, counted from the front of the digits. -/
def Decimal.point (decimal : Decimal) : Int :=
  decimal.digits.length + decimal.exponent

/-- The decimal without an exponent; an integer gets no point. -/
def Decimal.positional (decimal : Decimal) : String :=
  let digits := decimal.digits
  let point := decimal.point
  if point ≤ 0 then
    "0." ++ String.ofList (List.replicate (-point).toNat '0' ++ digits)
  else if decimal.exponent ≥ 0 then
    String.ofList (digits ++ List.replicate decimal.exponent.toNat '0')
  else
    String.ofList (digits.take point.toNat ++ '.' :: digits.drop point.toNat)

/-- The decimal with one digit before the point and an exponent behind an `e`. -/
def Decimal.scientific (decimal : Decimal) : String :=
  let exponent := toString (decimal.point - 1)
  match decimal.digits with
  | [] => "0e" ++ exponent
  | [digit] => String.ofList [digit] ++ "e" ++ exponent
  | digit :: rest => String.ofList (digit :: '.' :: rest) ++ "e" ++ exponent

end Rankwise.Double
