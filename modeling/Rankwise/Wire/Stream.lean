import Rankwise.Json.Writer
import Rankwise.Wire.Message

/-!
# Messages in a stream of bytes

Each message is written as its length in four bytes, the least significant first, and its text in
UTF-8. A stream may end before a message; it also counts as ended where fewer than four bytes are
left. A text that breaks off is an error.
-/

namespace Rankwise

/-- The characters of a text in UTF-8. A byte that belongs to no character stands for itself. -/
def Json.Text.ofBytes (bytes : ByteArray) : Json.Text :=
  go 0
where
  /-- The characters from the byte `start` on. -/
  go (start : Nat) : Json.Text :=
    if start < bytes.size then
      match bytes.utf8DecodeChar? start with
      | some c => some c :: go (start + c.utf8Size)
      | none => none :: go (start + 1)
    else []
  termination_by bytes.size - start
  decreasing_by
    · have := c.utf8Size_pos; omega
    · omega

namespace Message

/-- The greatest length of a message in bytes. -/
def lengthLimit : Nat := 0x40000000

/-- The message is longer than any message may be. -/
def tooLarge (length : Nat) : Failure where
  kind := .protocol
  message := "Frame too large"
  fields := [("len", toString length)]

/-- The text of a message in UTF-8. -/
def body (message : Message) : List UInt8 :=
  message.encode.text.toList.flatMap String.utf8EncodeChar

/-- A length in four bytes, the least significant first. -/
def lengthBytes (length : Nat) : List UInt8 :=
  [UInt8.ofNat length, UInt8.ofNat (length / 0x100), UInt8.ofNat (length / 0x10000),
    UInt8.ofNat (length / 0x1000000)]

/-- A message as it stands in a stream. -/
def toBytes (message : Message) : Except Failure (List UInt8) :=
  let body := message.body
  if lengthLimit < body.length then .error (tooLarge body.length)
  else .ok (lengthBytes body.length ++ body)

/-- The message that a text stands for. -/
def ofBody (body : List UInt8) : Except Failure Message :=
  match Json.read? decode (Json.Text.ofBytes body.toByteArray) with
  | some message => .ok message
  | none => .error (.ofForeign "Failed to decode frame" "not a message")

/-- The length that four bytes stand for, the least significant byte first. -/
def lengthIn (a b c d : UInt8) : Nat :=
  a.toNat + 0x100 * b.toNat + 0x10000 * c.toNat + 0x1000000 * d.toNat

/-- Takes the next message from a stream, or finds that the stream has ended. -/
def next? : List UInt8 → Except Failure (Option (Message × List UInt8))
  | a :: b :: c :: d :: rest =>
    let length := lengthIn a b c d
    if lengthLimit < length then .error (tooLarge length)
    else if rest.length < length then .error (.ofInputOutput "the stream ended within a message")
    else (ofBody (rest.take length)).map fun message => some (message, rest.drop length)
  | _ => .ok none

/-- A message takes at least its four length bytes off the stream. -/
theorem length_lt_of_next? {stream rest : List UInt8} {message : Message}
    (taken : next? stream = .ok (some (message, rest))) : rest.length < stream.length := by
  match stream with
  | [] | [_] | [_, _] | [_, _, _] => simp [next?] at taken
  | a :: b :: c :: d :: following =>
    simp only [next?] at taken
    split at taken
    · simp at taken
    · split at taken
      · simp at taken
      · cases found : ofBody (following.take (lengthIn a b c d)) with
        | error failure => simp [found, Except.map] at taken
        | ok other =>
          simp only [found, Except.map, Except.ok.injEq, Option.some.injEq, Prod.mk.injEq] at taken
          rw [← taken.2]
          simp only [List.length_drop, List.length_cons]
          omega

/-- All messages of a stream, up to its end or to a failure. -/
def readAll (stream : List UInt8) : List Message × Option Failure :=
  match taken : next? stream with
  | .ok (some (message, rest)) =>
    have := length_lt_of_next? taken
    let (messages, failure) := readAll rest
    (message :: messages, failure)
  | .ok none => ([], none)
  | .error failure => ([], some failure)
  termination_by stream.length

end Message

end Rankwise
