import Rankwise.Double

/-!
# The double nearest to a ratio

`nearest` rounds a ratio of naturals to a double, a tie going to the even significand, a value that
is too large to infinity. It carries the little arithmetic on doubles that reading decimal numbers
needs: products and quotients, each rounded once.
-/

namespace Rankwise.Double

/-- The quotient rounded to the nearest natural, a tie going to the even one. The divisor is
positive. -/
def roundedQuotient (dividend divisor : Nat) : Nat :=
  let floor := dividend / divisor
  let twice := 2 * (dividend % divisor)
  if twice < divisor then floor
  else if divisor < twice then floor + 1
  else if floor % 2 = 0 then floor else floor + 1

/-- The power of two of which a ratio's significand has exactly fifty-three digits, or the least
power that a double can have. -/
def scaleOf (numerator denominator : Nat) : Int :=
  let guess : Int := (numerator.log2 : Int) - denominator.log2 - 52
  -- The ratio divided by `2 ^ guess` lies between `2 ^ 51` and `2 ^ 53`.
  let exact :=
    if numerator * Nat.pow 2 (-guess).toNat
        < 0x10000000000000 * denominator * Nat.pow 2 guess.toNat then guess - 1
    else guess
  max exact (-1074)

/-- The double nearest to `numerator / denominator`, with the given sign. The denominator is
positive. -/
def nearest (negative : Bool) (numerator denominator : Nat) : Double :=
  let sign := if negative then 0x8000000000000000 else 0
  if numerator = 0 then ⟨UInt64.ofNat sign⟩
  else
    let scale := scaleOf numerator denominator
    let digits := roundedQuotient (numerator * Nat.pow 2 (-scale).toNat)
      (denominator * Nat.pow 2 scale.toNat)
    -- A significand that was rounded up to `2 ^ 53` moves on to the next exponent by itself.
    let magnitude := (scale + 1074).toNat * 0x10000000000000 + digits
    ⟨UInt64.ofNat (sign + min magnitude 0x7ff0000000000000)⟩

/-- The product of two doubles that are not negative and not infinite, rounded once. -/
def product (x y : Double) : Double :=
  nearest false (x.ratio.1 * y.ratio.1) (x.ratio.2 * y.ratio.2)

/-- The quotient of two doubles that are not negative and not infinite, rounded once. The divisor
is not zero. -/
def quotient (x y : Double) : Double :=
  nearest false (x.ratio.1 * y.ratio.2) (x.ratio.2 * y.ratio.1)

/-- The double nearest to a natural. -/
def ofNat (n : Nat) : Double := nearest false n 1

/-- The double nearest to a power of ten. -/
def powerOfTen (exponent : Nat) : Double := nearest false (Nat.pow 10 exponent) 1

/-- The same magnitude with the other sign. -/
def negated (x : Double) : Double := ⟨x.bits ^^^ 0x8000000000000000⟩

end Rankwise.Double
