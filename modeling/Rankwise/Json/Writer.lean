import Rankwise.Double.Shortest
import Rankwise.Json

/-!
# Writing values

Texts are written without blanks, the members of an object in their order. In strings only the
quote, the backslash and the control characters are escaped. Doubles get the fewest digits that read
back and always show that they are no integers: by a point or by an exponent.
-/

namespace Rankwise.Json

/-- A digit of a hexadecimal number, in lower case. -/
def hexadecimalDigit (n : Nat) : Char :=
  if n < 10 then Char.ofNat ('0'.toNat + n) else Char.ofNat ('a'.toNat + (n - 10))

/-- A character as it stands between the quotes of a string. -/
def escaped (c : Char) : List Char :=
  if c = '"' then ['\\', '"']
  else if c = '\\' then ['\\', '\\']
  else if c = '\x08' then ['\\', 'b']
  else if c = '\x0c' then ['\\', 'f']
  else if c = '\n' then ['\\', 'n']
  else if c = '\r' then ['\\', 'r']
  else if c = '\t' then ['\\', 't']
  else if c < ' ' then
    ['\\', 'u', '0', '0', hexadecimalDigit (c.toNat / 16), hexadecimalDigit (c.toNat % 16)]
  else [c]

/-- A text in quotes. -/
def quoted (text : String) : String :=
  String.ofList ('"' :: (text.toList.flatMap escaped ++ ['"']))

/-- A finite double. The point stands within or right behind the digits if it is at most sixteen
places from their front, and at most four zeros are written between the point and the digits; beyond
that there is an exponent. -/
def doubleText (x : Double) : String :=
  let sign := if x.isNegative then "-" else ""
  let decimal := x.shortest .even
  let point := decimal.point
  sign ++
    if x.isZero then "0.0"
    else if -5 < point ∧ point ≤ 16 then
      if 0 ≤ decimal.exponent then decimal.positional ++ ".0" else decimal.positional
    else decimal.scientific

mutual

/-- The text of a value. -/
def text : Json → String
  | null => "null"
  | boolean value => if value then "true" else "false"
  | integer value => toString value
  | double value => doubleText value
  | string value => quoted value
  | array items => "[" ++ ",".intercalate (itemTexts items) ++ "]"
  | object members => "\x7b" ++ ",".intercalate (memberTexts members) ++ "\x7d"

/-- The texts of the items. -/
def itemTexts : List Json → List String
  | [] => []
  | item :: rest => text item :: itemTexts rest

/-- The texts of the members, each with its name in front. -/
def memberTexts : List (String × Json) → List String
  | [] => []
  | (name, value) :: rest => (quoted name ++ ":" ++ text value) :: memberTexts rest

end

end Rankwise.Json
