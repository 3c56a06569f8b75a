import Rankwise.Json.Numeral

/-!
# Tokens

The tokens of JSON texts and the machine that finds them. The input is a list of characters in which
`none` stands for a byte that belongs to no character. Such a byte is tolerated inside a string, and
so is an escape that names half of a surrogate pair: the token is found all the same, but it has no
content. Whoever needs the content refuses the token, whoever skips over it does not notice.

The machine reads one character at a time and never goes back, so reading a text is a fold.
-/

namespace Rankwise.Json

/-- A text in which some bytes may belong to no character. -/
abbrev Text := List (Option Char)

/-- A token of a JSON text. -/
inductive Token where
  | openArray
  | closeArray
  | openObject
  | closeObject
  | comma
  | colon
  | null
  | boolean (value : Bool)
  | number (numeral : Numeral)
  /-- A string with its content, if it has one. -/
  | string (content : Option String)
deriving Repr

/-- One piece between the quotes of a string. -/
inductive Piece where
  /-- A character, written as itself or by a short escape. -/
  | character (value : Char)
  /-- A sixteen-bit unit, written by a hexadecimal escape. -/
  | unit (value : Nat)
  /-- A byte that belongs to no character. -/
  | stray
deriving Repr

namespace Piece

/-- Whether the unit is the first half of a surrogate pair. -/
def isLeading (unit : Nat) : Bool := decide (0xD800 ≤ unit ∧ unit < 0xDC00)

/-- Whether the unit is the second half of a surrogate pair. -/
def isTrailing (unit : Nat) : Bool := decide (0xDC00 ≤ unit ∧ unit < 0xE000)

/-- The characters that the pieces stand for. Units of a surrogate pair make one character; a unit
that lacks its partner, and a stray byte, make none. -/
def content? : List Piece → Option (List Char)
  | [] => some []
  | character value :: rest => (content? rest).map (value :: ·)
  | stray :: _ => none
  | unit leading :: unit trailing :: rest =>
    if isLeading leading && isTrailing trailing then
      let code := 0x10000 + (leading - 0xD800) * 0x400 + (trailing - 0xDC00)
      (content? rest).map (Char.ofNat code :: ·)
    else if isLeading leading || isTrailing leading then none
    else (content? (unit trailing :: rest)).map (Char.ofNat leading :: ·)
  | unit single :: rest =>
    if isLeading single || isTrailing single then none
    else (content? rest).map (Char.ofNat single :: ·)

end Piece

/-- Where the machine stands within a number. The next digit belongs to the part that is named. -/
inductive Digits where
  /-- Behind the minus sign. -/
  | start
  /-- Behind a leading zero: no digit may follow. -/
  | zero
  | whole
  /-- Behind the point, before the first digit of the fraction. -/
  | point
  | fraction
  /-- Behind the mark of the exponent, where a sign may stand. -/
  | mark
  /-- Behind the sign of the exponent, before its first digit. -/
  | sign
  | exponent
deriving DecidableEq, Repr

/-- Where the machine stands within a string. -/
inductive Escape where
  | outside
  /-- Behind a backslash. -/
  | backslash
  /-- Within a hexadecimal escape: the digits still to come, and the value so far. -/
  | hexadecimal (missing value : Nat)
deriving DecidableEq, Repr

/-- What the machine is reading. -/
inductive Reading where
  | between
  /-- A word, of which these characters are still to come. -/
  | word (missing : List Char) (token : Token)
  /-- A number. The digits of the part being read are last in their list. -/
  | number (place : Digits) (numeral : Numeral)
  /-- A string, with its pieces so far, the last one first. -/
  | string (escape : Escape) (pieces : List Piece)
deriving Repr

/-- The machine: what it is reading, and the tokens found so far, the last one first. -/
structure Lexer where
  reading : Reading := .between
  found : List Token := []
deriving Repr

namespace Lexer

/-- The value of a decimal digit. -/
def digit? (c : Char) : Option Nat :=
  if '0' ≤ c ∧ c ≤ '9' then some (c.toNat - '0'.toNat) else none

/-- The value of a hexadecimal digit of either case. -/
def hexadecimal? (c : Char) : Option Nat :=
  if '0' ≤ c ∧ c ≤ '9' then some (c.toNat - '0'.toNat)
  else if 'a' ≤ c ∧ c ≤ 'f' then some (c.toNat - 'a'.toNat + 10)
  else if 'A' ≤ c ∧ c ≤ 'F' then some (c.toNat - 'A'.toNat + 10)
  else none

/-- The character that a short escape stands for. -/
def shortEscape? : Char → Option Char
  | '"' => some '"'
  | '\\' => some '\\'
  | '/' => some '/'
  | 'b' => some '\x08'
  | 'f' => some '\x0c'
  | 'n' => some '\n'
  | 'r' => some '\r'
  | 't' => some '\t'
  | _ => none

/-- Adds a digit to the part of the numeral that is being read. -/
def addDigit (place : Digits) (numeral : Numeral) (digit : Nat) : Option (Digits × Numeral) :=
  match place with
  | .start =>
    some (if digit = 0 then .zero else .whole, { numeral with whole := [digit] })
  | .zero => none
  | .whole => some (.whole, { numeral with whole := numeral.whole ++ [digit] })
  | .point | .fraction =>
    some (.fraction, { numeral with fraction := some (numeral.fraction.getD [] ++ [digit]) })
  | .mark | .sign | .exponent =>
    let (negative, digits) := numeral.exponent.getD (false, [])
    some (.exponent, { numeral with exponent := some (negative, digits ++ [digit]) })

/-- Whether a number may end at this place. -/
def mayEnd : Digits → Bool
  | .zero | .whole | .fraction | .exponent => true
  | _ => false

/-- The step from a character that stands between tokens. -/
def begin (found : List Token) (c : Char) : Option Lexer :=
  match c with
  | ' ' | '\t' | '\n' | '\r' => some { found }
  | '[' => some { found := .openArray :: found }
  | ']' => some { found := .closeArray :: found }
  | '{' => some { found := .openObject :: found }
  | '}' => some { found := .closeObject :: found }
  | ',' => some { found := .comma :: found }
  | ':' => some { found := .colon :: found }
  | '"' => some { reading := .string .outside [], found }
  | 'n' => some { reading := .word ['u', 'l', 'l'] .null, found }
  | 't' => some { reading := .word ['r', 'u', 'e'] (.boolean true), found }
  | 'f' => some { reading := .word ['a', 'l', 's', 'e'] (.boolean false), found }
  | '-' => some { reading := .number .start { negative := true, whole := [] }, found }
  | _ =>
    match digit? c with
    | some digit =>
      (addDigit .start { negative := false, whole := [] } digit).map fun (place, numeral) =>
        { reading := .number place numeral, found }
    | none => none

/-- The step within a number, from a character that may also end it. -/
def inNumber (found : List Token) (place : Digits) (numeral : Numeral) (c : Char) : Option Lexer :=
  match digit? c with
  | some digit =>
    (addDigit place numeral digit).map fun (place, numeral) =>
      { reading := .number place numeral, found }
  | none =>
    match place, c with
    | .zero, '.' | .whole, '.' =>
      some { reading := .number .point { numeral with fraction := some [] }, found }
    | .zero, 'e' | .zero, 'E' | .whole, 'e' | .whole, 'E' | .fraction, 'e' | .fraction, 'E' =>
      some { reading := .number .mark { numeral with exponent := some (false, []) }, found }
    | .mark, '+' => some { reading := .number .sign numeral, found }
    | .mark, '-' =>
      some { reading := .number .sign { numeral with exponent := some (true, []) }, found }
    | _, _ => if mayEnd place then begin (.number numeral :: found) c else none

/-- The step within a string. -/
def inString (found : List Token) (escape : Escape) (pieces : List Piece) (c : Option Char) :
    Option Lexer :=
  match escape, c with
  | .outside, none => some { reading := .string .outside (.stray :: pieces), found }
  | .outside, some '"' =>
    let content := (Piece.content? pieces.reverse).map String.ofList
    some { found := .string content :: found }
  | .outside, some '\\' => some { reading := .string .backslash pieces, found }
  | .outside, some c =>
    if c < ' ' then none
    else some { reading := .string .outside (.character c :: pieces), found }
  | .backslash, some 'u' => some { reading := .string (.hexadecimal 4 0) pieces, found }
  | .backslash, some c =>
    (shortEscape? c).map fun meant =>
      { reading := .string .outside (.character meant :: pieces), found }
  | .hexadecimal missing value, some c =>
    (hexadecimal? c).map fun digit =>
      let value := 16 * value + digit
      if missing ≤ 1 then { reading := .string .outside (.unit value :: pieces), found }
      else { reading := .string (.hexadecimal (missing - 1) value) pieces, found }
  | _, none => none

/-- One step of the machine. -/
def step (lexer : Lexer) (c : Option Char) : Option Lexer :=
  match lexer.reading, c with
  | .string escape pieces, c => inString lexer.found escape pieces c
  | _, none => none
  | .between, some c => begin lexer.found c
  | .word [] token, some c => begin (token :: lexer.found) c
  | .word [last] token, some c =>
    if c = last then some { found := token :: lexer.found } else none
  | .word (next :: missing) token, some c =>
    if c = next then some { reading := .word missing token, found := lexer.found } else none
  | .number place numeral, some c => inNumber lexer.found place numeral c

/-- The tokens, if the text may end where the machine stands. -/
def finish (lexer : Lexer) : Option (List Token) :=
  match lexer.reading with
  | .between => some lexer.found.reverse
  | .number place numeral =>
    if mayEnd place then some (Token.number numeral :: lexer.found).reverse else none
  | _ => none

end Lexer

/-- The tokens of a text, or `none` if it is no sequence of tokens. -/
def tokens? (text : Text) : Option (List Token) :=
  (text.foldlM Lexer.step {}).bind Lexer.finish

end Rankwise.Json
