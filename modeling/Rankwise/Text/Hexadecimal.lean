import Rankwise.Json.Token
import Rankwise.Json.Writer

/-!
# Bytes in hexadecimal

Each byte is written as two hexadecimal digits, the higher one first. Digits of either case are
read.
-/

namespace Rankwise.Text

/-- Bytes as hexadecimal digits. -/
def hexadecimal (bytes : List UInt8) : String :=
  String.ofList (bytes.flatMap fun byte =>
    [Json.hexadecimalDigit (byte.toNat / 16), Json.hexadecimalDigit (byte.toNat % 16)])

/-- The bytes that hexadecimal digits stand for. -/
def bytesOfDigits? : List Char → Option (List UInt8)
  | [] => some []
  | [_] => none
  | high :: low :: rest => do
    let byte := 16 * (← Json.Lexer.hexadecimal? high) + (← Json.Lexer.hexadecimal? low)
    return UInt8.ofNat byte :: (← bytesOfDigits? rest)

/-- The bytes that a text in hexadecimal stands for. -/
def bytes? (text : String) : Option (List UInt8) := bytesOfDigits? text.toList

end Rankwise.Text
