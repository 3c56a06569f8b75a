import Rankwise.Proofs.Texts
import Rankwise.Proofs.Traversals
import Rankwise.Proofs.WholeMessages
import Rankwise.Wire.Stream

/-!
# Messages are read back out of a stream

Whatever messages are written to a stream one after another, reading the stream gives the same
messages in the same order and then the end of the stream (`Message.readAll_written`). The message
that a text stands for is the one that the text was made from (`ofBody_body`), and the length in
front of the text tells where the next message begins, whatever that one is (`next?_framed`). By
induction the whole stream is read back (`readAll_framed`).
-/

namespace Rankwise

namespace Json.Text

/-- The characters behind some others. -/
theorem go_utf8Encode (before chars : List Char) :
    ofBytes.go (before ++ chars).utf8Encode before.utf8Encode.size = chars.map some := by
  induction chars generalizing before with
  | nil => rw [ofBytes.go, List.append_nil, if_neg (lt_irrefl _), List.map_nil]
  | cons c rest inductionHypothesis =>
    have size : (before ++ c :: rest).utf8Encode.size =
        before.utf8Encode.size + (c :: rest).utf8Encode.size := by
      rw [List.utf8Encode_append, ByteArray.size_append]
    have width : [c].utf8Encode.size = c.utf8Size := by
      rw [List.utf8Encode_singleton, List.size_toByteArray, String.length_utf8EncodeChar]
    have more : before.utf8Encode.size < (before ++ c :: rest).utf8Encode.size := by
      have positive := c.utf8Size_pos
      rw [size, List.utf8Encode_cons, ByteArray.size_append, width]
      omega
    have decoded : (before ++ c :: rest).utf8Encode.utf8DecodeChar? before.utf8Encode.size =
        some c := by
      rw [ByteArray.utf8DecodeChar?_eq_utf8DecodeChar?_extract, size, List.utf8Encode_append,
        ByteArray.extract_append_eq_right rfl rfl]
      exact List.utf8DecodeChar?_utf8Encode_cons
    have following : before.utf8Encode.size + c.utf8Size = (before ++ [c]).utf8Encode.size := by
      rw [List.utf8Encode_append, ByteArray.size_append, width]
    have further := inductionHypothesis (before ++ [c])
    rw [List.append_assoc, List.singleton_append, ← following] at further
    rw [ofBytes.go, if_pos more, decoded, List.map_cons]
    exact congrArg (some c :: ·) further

/-- Characters in UTF-8 stand for themselves. -/
theorem ofBytes_utf8Encode (chars : List Char) : ofBytes chars.utf8Encode = chars.map some :=
  go_utf8Encode [] chars

end Json.Text

namespace Message

/-- A text stands for the message that it was made from. -/
theorem ofBody_body (message : Message) (fits : message.Fits)
    (shallow : message.encode.depth ≤ Json.depthLimit) : ofBody message.body = .ok message := by
  have text : Json.Text.ofBytes message.body.toByteArray = message.encode.text.toList.map some :=
    Json.Text.ofBytes_utf8Encode _
  have tree := Json.ofText?_text message.encode (message.isWhole fits)
  have read : decode Json.depthLimit message.encode.written = some message :=
    message.reads fits .given Json.depthLimit shallow
  rw [ofBody, Json.read?, text, tree, Option.bind_some, read]

/-- Four bytes hold every length that a message may have. -/
theorem lengthIn_lengthBytes (length : Nat) (small : length ≤ lengthLimit) :
    lengthIn (UInt8.ofNat length) (UInt8.ofNat (length / 0x100)) (UInt8.ofNat (length / 0x10000))
      (UInt8.ofNat (length / 0x1000000)) = length := by
  rw [lengthLimit] at small
  simp only [lengthIn, UInt8.toNat_ofNat']
  omega

/-- A text behind its length. -/
def framed (message : Message) : List UInt8 :=
  lengthBytes message.body.length ++ message.body

/-- A message whose text is short enough can be written. -/
theorem toBytes_eq (message : Message) (short : message.body.length ≤ lengthLimit) :
    message.toBytes = .ok message.framed :=
  if_neg (Nat.not_lt.mpr short)

/-- The text of a message is taken off the stream, whatever it stands for, and what comes behind it
is left as it is. -/
theorem next?_text (message : Message) (short : message.body.length ≤ lengthLimit)
    (rest : List UInt8) :
    next? (message.framed ++ rest) = (ofBody message.body).map fun found => some (found, rest) := by
  rw [framed, List.append_assoc, lengthBytes]
  show next? (_ :: _ :: _ :: _ :: (message.body ++ rest)) = _
  rw [next?, lengthIn_lengthBytes _ short]
  have complete : ¬ (message.body ++ rest).length < message.body.length := by
    rw [List.length_append]
    omega
  simp only [if_neg (Nat.not_lt.mpr short), if_neg complete, List.take_left, List.drop_left]

/-- The next message is read back. -/
theorem next?_framed (message : Message) (fits : message.Fits)
    (short : message.body.length ≤ lengthLimit)
    (shallow : message.encode.depth ≤ Json.depthLimit) (rest : List UInt8) :
    next? (message.framed ++ rest) = .ok (some (message, rest)) := by
  rw [message.next?_text short, message.ofBody_body fits shallow]
  rfl

/-- Reading takes the next message and goes on with the rest, until there is none. -/
theorem readAll_eq (stream : List UInt8) :
    readAll stream =
      match next? stream with
      | .ok (some (message, rest)) => (message :: (readAll rest).1, (readAll rest).2)
      | .ok none => ([], none)
      | .error failure => ([], some failure) := by
  rw [readAll]
  split <;> simp [*]

/-- Messages that can be read back are read back one after another, to the end of the stream. -/
theorem readAll_framed (messages : List Message)
    (each : ∀ message ∈ messages, ∀ rest,
      next? (message.framed ++ rest) = .ok (some (message, rest))) :
    readAll (messages.map framed).flatten = (messages, none) := by
  induction messages with
  | nil => exact readAll_eq []
  | cons message others inductionHypothesis =>
    obtain ⟨first, further⟩ := List.forall_mem_cons.mp each
    rw [List.map_cons, List.flatten_cons, readAll_eq, first]
    exact congrArg (fun read => (message :: read.1, read.2)) (inductionHypothesis further)

/-- Whatever messages are written to a stream, the same messages are read back in the same order,
and then the stream has ended. -/
theorem readAll_written (messages : List Message) (fit : ∀ message ∈ messages, message.Fits)
    (short : ∀ message ∈ messages, message.body.length ≤ lengthLimit)
    (shallow : ∀ message ∈ messages, message.encode.depth ≤ Json.depthLimit) :
    ∃ stream, messages.mapM toBytes = .ok stream ∧ readAll stream.flatten = (messages, none) := by
  refine ⟨messages.map framed, ?_, ?_⟩
  · exact mapM_eq_ok fun message member => message.toBytes_eq (short message member)
  · exact readAll_framed messages fun message member =>
      message.next?_framed (fit message member) (short message member) (shallow message member)

/-- Messages with a text to be escaped, a NaN with bits of its own, and a structured value. -/
def assorted : List Message :=
  [.environment [("TZ", "\"UTC\"\n")],
    .value (.tuple [.scalar (.float64 ⟨0x7ff8000000000001⟩), .json (.array [.integer (-7)])]),
    .status none]

/-- A stream of assorted messages is read back from its bytes, which are computed. -/
theorem readAll_assorted :
    ∃ stream, assorted.mapM toBytes = .ok stream ∧ readAll stream.flatten = (assorted, none) := by
  apply readAll_written assorted
  · simp [assorted, Fits, Named.Ordered, Value.Fits, Value.ItemsFit, Json.IsOrdered,
      Json.ItemsAreOrdered, Json.IsWhole, Json.ItemsAreWhole]
  · decide +kernel
  · decide

end Message

end Rankwise
