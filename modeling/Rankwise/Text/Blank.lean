/-!
# Blanks around texts, and numbers in them

A blank is a character with the `White_Space` property of Unicode. Texts from the surroundings are
read without the blanks around them.
-/

namespace Rankwise.Text

/-- Whether a character is a blank. -/
def isBlank (c : Char) : Bool :=
  let code := c.toNat
  (9 ≤ code && code ≤ 13) || code = 0x20 || code = 0x85 || code = 0xa0 || code = 0x1680
    || (0x2000 ≤ code && code ≤ 0x200a) || code = 0x2028 || code = 0x2029 || code = 0x202f
    || code = 0x205f || code = 0x3000

/-- The characters without the blanks around them. -/
def trimmed (chars : List Char) : List Char :=
  ((chars.dropWhile isBlank).reverse.dropWhile isBlank).reverse

/-- The text without the blanks around it. -/
def trim (text : String) : String := String.ofList (trimmed text.toList)

/-- The value of decimal digits. -/
def decimal? : List Char → Option Nat
  | [] => none
  | digits =>
    if digits.all Char.isDigit then
      some (digits.foldl (fun value digit => 10 * value + (digit.toNat - '0'.toNat)) 0)
    else none

/-- Reads a natural below `2 ^ width` in decimal digits. A plus sign may stand before them. -/
def natural? (width : Nat) (text : String) : Option Nat := do
  let digits := match text.toList with
    | '+' :: digits => digits
    | digits => digits
  let value ← decimal? digits
  if value < Nat.pow 2 width then some value else none

/-- Reads the size of something. -/
def size? (text : String) : Option Nat := natural? 64 text

/-- The parts of a list that are separated by commas, without blanks around them and without empty
ones. -/
def listed (text : String) : List String :=
  ((text.splitOn ",").map trim).filter fun part => part ≠ ""

end Rankwise.Text
