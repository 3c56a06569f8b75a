import Rankwise.Double.Shortest

/-!
# Scalars

The single values that columns are made of, and the types that columns are declared with. Integers
are machine words, since their width is part of what they are. Two scalars are *equal as values*
when they have the same type and compare equal there; a NaN is not equal to itself.
-/

namespace Rankwise

/-- The declared type of a column. -/
inductive Datatype where
  | null
  | boolean
  | int32
  | int64
  | uint64
  | float64
  | utf8
  /-- Microseconds since the start of 1970. -/
  | timestamp
deriving DecidableEq, Repr

namespace Datatype

/-- Whether values of the type can be added up. -/
def isNumeric : Datatype → Bool
  | int32 | int64 | uint64 | float64 => true
  | _ => false

/-- The type as people see it. -/
def text : Datatype → String
  | null => "Null"
  | boolean => "Boolean"
  | int32 => "Int32"
  | int64 => "Int64"
  | uint64 => "UInt64"
  | float64 => "Float64"
  | utf8 => "Utf8"
  | timestamp => "Timestamp(μs)"

end Datatype

/-- A single value. -/
inductive Scalar where
  | null
  | boolean (value : Bool)
  | int32 (value : Int32)
  | int64 (value : Int64)
  | uint64 (value : UInt64)
  | float64 (value : Double)
  | utf8 (value : String)
  | timestamp (microseconds : Int64)
deriving DecidableEq, Repr

namespace Scalar

/-- The type of the value. -/
def datatype : Scalar → Datatype
  | null => .null
  | boolean _ => .boolean
  | int32 _ => .int32
  | int64 _ => .int64
  | uint64 _ => .uint64
  | float64 _ => .float64
  | utf8 _ => .utf8
  | timestamp _ => .timestamp

/-- Whether there is no value. -/
def isNull : Scalar → Bool
  | null => true
  | _ => false

/-- The value as a number of things, if it is an integer that is not negative. -/
def count? : Scalar → Option Nat
  | int32 value => if 0 ≤ value.toInt then some value.toInt.toNat else none
  | int64 value => if 0 ≤ value.toInt then some value.toInt.toNat else none
  | uint64 value => some value.toNat
  | _ => none

/-- The value as a truth value, if it is one. -/
def boolean? : Scalar → Option Bool
  | boolean value => some value
  | _ => none

/-- The value as a text, if it is one. -/
def utf8? : Scalar → Option String
  | utf8 value => some value
  | _ => none

/-- The number `n` as a scalar. It is smaller than `2 ^ 64` wherever this is used for a size. -/
def ofCount (n : Nat) : Scalar := uint64 (UInt64.ofNat n)

/-- A double as people see it: the fewest digits that read back, never with an exponent. -/
def doubleText (x : Double) : String :=
  if x.isNaN then "NaN"
  else
    let sign := if x.isNegative then "-" else ""
    if x.isInfinite then sign ++ "inf" else sign ++ (x.shortest .away).positional

/-- The value as people see it. -/
def text : Scalar → String
  | null => "NULL"
  | boolean value => if value then "true" else "false"
  | int32 value => toString value.toInt
  | int64 value => toString value.toInt
  | uint64 value => toString value.toNat
  | float64 value => doubleText value
  | utf8 value => value
  | timestamp microseconds => toString microseconds.toInt ++ "μs"

/-- Equality of values: doubles are compared as numbers, all else exactly. -/
def equalAsValue : Scalar → Scalar → Bool
  | float64 x, float64 y => x.numericallyEqual y
  | a, b => decide (a = b)

end Scalar

end Rankwise
