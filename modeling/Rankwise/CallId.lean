import Rankwise.Json.Token

/-!
# Identifiers of calls

Each call to a group bears an identifier, a number that is written as thirty-two hexadecimal digits
in five groups. Identifiers are made from a counter, so two calls never share one. What is read has
at most 128 bits.
-/

namespace Rankwise

/-- The identifier of a call. -/
structure CallId where
  /-- The identifier as a number. -/
  number : Nat
deriving DecidableEq, Repr

namespace CallId

/-- The identifier of the call that comes after `calls` others. Version four and the usual variant
are marked in it. -/
def ofCounter (calls : Nat) : CallId := ⟨0xf0000000000040008000000000000000 + calls⟩

/-- The thirty-two hexadecimal digits, in lower case. -/
def digits (id : CallId) : List Char :=
  let found := Nat.toDigits 16 id.number
  List.replicate (32 - found.length) '0' ++ found

/-- The digits in groups of eight, four, four, four and twelve. -/
def text (id : CallId) : String :=
  let digits := id.digits
  String.ofList <|
    digits.take 8 ++ '-' :: (digits.drop 8).take 4 ++ '-' :: (digits.drop 12).take 4
      ++ '-' :: (digits.drop 16).take 4 ++ '-' :: digits.drop 20

/-- The identifier with the given thirty-two digits. -/
def ofDigits? (digits : List Char) : Option CallId := do
  let values ← digits.mapM Json.Lexer.hexadecimal?
  if values.length = 32 then
    some ⟨values.foldl (fun n digit => 16 * n + digit) 0⟩
  else none

/-- The identifier in five groups. -/
def ofGroups? (written : List Char) : Option CallId :=
  if written.length = 36 ∧ [8, 13, 18, 23].all (fun place => written[place]? = some '-') then
    ofDigits? (written.take 8 ++ (written.drop 9).take 4 ++ (written.drop 14).take 4
      ++ (written.drop 19).take 4 ++ written.drop 24)
  else none

/-- Reads an identifier. Besides the five groups in either case it may be written without hyphens,
in braces, or as a name of the `urn:uuid:` space. -/
def ofText? (written : String) : Option CallId :=
  let chars := written.toList
  match chars.length with
  | 32 => ofDigits? chars
  | 36 => ofGroups? chars
  | 38 =>
    if chars.head? = some '\x7b' ∧ chars.getLast? = some '\x7d' then
      ofGroups? ((chars.drop 1).take 36)
    else none
  | 45 => if chars.take 9 = "urn:uuid:".toList then ofGroups? (chars.drop 9) else none
  | _ => none

end CallId

end Rankwise
