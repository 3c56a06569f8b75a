import Rankwise.Proofs.Streams

/-!
# Streams that break off

A stream of messages may break off at any byte. What lies before the cut is some whole messages and,
unless the cut falls between two messages, the beginning of a further one. Reading gives what the
whole messages stand for (`readAll_cut`). It then finds the end of the stream if less than a length
is left, and fails if more is. So it tells how the stream was cut exactly if every whole message is
given back by its own text and the cut does not fall within a length (`cut_told_exact`).
-/

namespace Rankwise.Message

/-- The messages that lie before the cut as a whole. -/
def wholeBefore : List Message → Nat → List Message
  | [], _ => []
  | message :: rest, cut =>
    if message.framed.length ≤ cut then message :: wholeBefore rest (cut - message.framed.length)
    else []

/-- The beginning of a further message that lies before the cut. There is none if the cut falls
between two messages. -/
def tornBefore : List Message → Nat → List UInt8
  | [], _ => []
  | message :: rest, cut =>
    if message.framed.length ≤ cut then tornBefore rest (cut - message.framed.length)
    else message.framed.take cut

/-- The text of a message stands for the message itself. -/
def IsGivenBack (message : Message) : Prop := ofBody message.body = .ok message

/-- What the texts of some messages stand for, up to the first that stands for nothing. -/
def reread : List Message → List Message × Option Failure
  | [] => ([], none)
  | message :: rest =>
    match ofBody message.body with
    | .ok found => (found :: (reread rest).1, (reread rest).2)
    | .error failure => ([], some failure)

/-- How reading ends at the beginning of a message that breaks off. -/
def endAt (torn : List UInt8) : Option Failure :=
  if torn.length < 4 then none else some (.ofInputOutput "the stream ended within a message")

/-- Reading tells how the stream of the messages was cut: it gives exactly the messages that lie
before the cut, and then it finds the end of the stream if the cut falls between two messages, and
fails otherwise. -/
def TellsCut (stream : List UInt8) (messages : List Message) (cut : Nat) : Prop :=
  (readAll (stream.take cut)).1 = wholeBefore messages cut ∧
    ((readAll (stream.take cut)).2 = none ↔ tornBefore messages cut = [])

variable {messages : List Message} {message : Message}

/-- A message takes the bytes of its text and four more. -/
theorem length_framed (message : Message) : message.framed.length = 4 + message.body.length := by
  rw [framed, List.length_append]
  rfl

/-- What lies before a cut is the whole messages and the beginning of a further one. -/
theorem take_framed (messages : List Message) (cut : Nat) :
    (messages.map framed).flatten.take cut =
      ((wholeBefore messages cut).map framed).flatten ++ tornBefore messages cut := by
  induction messages generalizing cut with
  | nil => simp [wholeBefore, tornBefore]
  | cons message rest inductionHypothesis =>
    rw [List.map_cons, List.flatten_cons, List.take_append, wholeBefore, tornBefore]
    by_cases whole : message.framed.length ≤ cut
    · rw [if_pos whole, if_pos whole, List.take_of_length_le whole, inductionHypothesis,
        List.map_cons, List.flatten_cons, List.append_assoc]
    · have nothing : cut - message.framed.length = 0 := by omega
      simp [whole, nothing]

/-- A message that breaks off looks like the end of the stream as long as its length is not
complete, and is found to be broken off from then on. -/
theorem next?_torn (short : message.body.length ≤ lengthLimit) {cut : Nat}
    (torn : cut < message.framed.length) :
    next? (message.framed.take cut) =
      if cut < 4 then .ok none
      else .error (.ofInputOutput "the stream ended within a message") := by
  rw [length_framed] at torn
  rw [framed, lengthBytes]
  rcases cut with _ | _ | _ | _ | begun
  case zero | succ.zero | succ.succ.zero | succ.succ.succ.zero => rfl
  case succ.succ.succ.succ =>
    show next? (_ :: _ :: _ :: _ :: message.body.take begun) = _
    have missing : (message.body.take begun).length < message.body.length := by
      rw [List.length_take]
      omega
    rw [next?, lengthIn_lengthBytes _ short]
    simp only [if_neg (Nat.not_lt.mpr short), if_pos missing, if_neg (by omega : ¬ begun + 4 < 4)]

/-- From the beginning of a message that breaks off no message is read. -/
theorem readAll_torn (short : ∀ message ∈ messages, message.body.length ≤ lengthLimit) (cut : Nat) :
    readAll (tornBefore messages cut) = ([], endAt (tornBefore messages cut)) := by
  induction messages generalizing cut with
  | nil => exact readAll_eq []
  | cons message rest inductionHypothesis =>
    obtain ⟨shortFirst, shortOthers⟩ := List.forall_mem_cons.mp short
    rw [tornBefore]
    split
    case isTrue => exact inductionHypothesis shortOthers _
    case isFalse outside =>
      have torn : cut < message.framed.length := Nat.not_le.mp outside
      have length : (message.framed.take cut).length = cut := by
        rw [List.length_take]
        omega
      rw [readAll_eq, next?_torn shortFirst torn, endAt, length]
      split_ifs <;> rfl

/-- Reading messages one after another gives what their texts stand for. If all of them stand for
something, it goes on with what comes behind them. -/
theorem readAll_texts (short : ∀ message ∈ messages, message.body.length ≤ lengthLimit)
    {rest : List UInt8} {ending : Option Failure} (ended : readAll rest = ([], ending)) :
    readAll ((messages.map framed).flatten ++ rest) =
      ((reread messages).1, (reread messages).2.or ending) := by
  induction messages with
  | nil => exact ended
  | cons message others inductionHypothesis =>
    obtain ⟨shortFirst, shortOthers⟩ := List.forall_mem_cons.mp short
    rw [List.map_cons, List.flatten_cons, List.append_assoc, readAll_eq,
      message.next?_text shortFirst, reread]
    cases ofBody message.body with
    | error failure => rfl
    | ok found =>
      have further := inductionHypothesis shortOthers
      simp [Except.map, further]

/-- The messages before the cut are some of those that were written. -/
theorem mem_wholeBefore {cut : Nat} (member : message ∈ wholeBefore messages cut) :
    message ∈ messages := by
  induction messages generalizing cut with
  | nil => exact member
  | cons first rest inductionHypothesis =>
    rw [wholeBefore] at member
    split at member
    case isTrue =>
      rcases List.mem_cons.mp member with rfl | further
      · exact List.mem_cons_self
      · exact List.mem_cons_of_mem first (inductionHypothesis further)
    case isFalse => cases member

/-- What reading gives on a stream that breaks off. -/
theorem readAll_cut (short : ∀ message ∈ messages, message.body.length ≤ lengthLimit) (cut : Nat) :
    readAll ((messages.map framed).flatten.take cut) =
      ((reread (wholeBefore messages cut)).1,
        (reread (wholeBefore messages cut)).2.or (endAt (tornBefore messages cut))) := by
  rw [take_framed]
  exact readAll_texts (fun _ member => short _ (mem_wholeBefore member)) (readAll_torn short cut)

/-- Messages are read as they are only if each of them is given back by its text. -/
theorem givenBack_of_reread (same : (reread messages).1 = messages) :
    ∀ message ∈ messages, message.IsGivenBack := by
  induction messages with
  | nil => exact nofun
  | cons message rest inductionHypothesis =>
    rw [reread] at same
    cases found : ofBody message.body with
    | error failure => simp [found] at same
    | ok other =>
      simp only [found, List.cons.injEq] at same
      refine List.forall_mem_cons.mpr ⟨?_, inductionHypothesis same.2⟩
      rw [IsGivenBack, found, same.1]

/-- Messages whose texts stand for them are read as they are. -/
theorem reread_of_givenBack (given : ∀ message ∈ messages, message.IsGivenBack) :
    reread messages = (messages, none) := by
  induction messages with
  | nil => rfl
  | cons message rest inductionHypothesis =>
    obtain ⟨first, others⟩ := List.forall_mem_cons.mp given
    rw [reread, first, inductionHypothesis others]

/-- The beginning of a message is taken for the end of the stream exactly if it has fewer than four
bytes. -/
theorem endAt_eq_none_iff (torn : List UInt8) : endAt torn = none ↔ torn.length < 4 := by
  rw [endAt]
  split_ifs with small <;> simp [small]

/-- Over every list of messages that can be written, and every cut: reading tells how their stream
was cut exactly if each message that lies before the cut is given back by its own text, and the cut
does not fall within the length of a further one. Messages without doubles in their structured
values, and without too deep a nesting, are given back. -/
theorem cut_told_exact (messages : List Message)
    (short : ∀ message ∈ messages, message.body.length ≤ lengthLimit) (cut : Nat) :
    ∃ stream, messages.mapM toBytes = .ok stream ∧
      (TellsCut stream.flatten messages cut ↔
        (∀ message ∈ wholeBefore messages cut, message.IsGivenBack) ∧
          (tornBefore messages cut = [] ∨ 4 ≤ (tornBefore messages cut).length)) ∧
      ∀ message ∈ messages, message.Fits → message.encode.depth ≤ Json.depthLimit →
        message.IsGivenBack := by
  refine ⟨messages.map framed, mapM_eq_ok fun message member => message.toBytes_eq (short _ member),
    ?_, fun message _ fits shallow => message.ofBody_body fits shallow⟩
  rw [TellsCut, readAll_cut short]
  -- The cut falls between two messages, within a length or behind one.
  have ending := endAt_eq_none_iff (tornBefore messages cut)
  constructor
  · rintro ⟨same, ends⟩
    have given := givenBack_of_reread same
    refine ⟨given, ?_⟩
    rw [reread_of_givenBack given] at ends
    by_contra torn
    push Not at torn
    exact torn.1 (ends.mp (ending.mpr torn.2))
  · rintro ⟨given, complete⟩
    rw [reread_of_givenBack given]
    refine ⟨rfl, (ending.trans ⟨fun small => ?_, fun none => by simp [none]⟩)⟩
    exact complete.resolve_right (Nat.not_le.mpr small)

/-- The stream of two messages, broken off within the text of the second. -/
theorem broken_text_told :
    (∀ message ∈ [completed, completed], message.body.length ≤ lengthLimit) ∧
      tornBefore [completed, completed] 20 = [11, 0, 0, 0, 34] ∧
      ∃ stream, [completed, completed].mapM toBytes = .ok stream ∧
        TellsCut stream.flatten [completed, completed] 20 := by
  have short : ∀ message ∈ [completed, completed], message.body.length ≤ lengthLimit := by
    decide +kernel
  have begun : tornBefore [completed, completed] 20 = [11, 0, 0, 0, 34] := by decide +kernel
  obtain ⟨stream, written, exact, given⟩ := cut_told_exact [completed, completed] short 20
  refine ⟨short, begun, stream, written, exact.mpr ⟨fun message before => ?_, .inr ?_⟩⟩
  · obtain rfl : message = completed := by simpa using mem_wholeBefore before
    exact given completed List.mem_cons_self trivial (by decide)
  · rw [begun]
    decide

/-- The stream of two messages, broken off within the length of the second. It reads as if it had
ended behind the first. -/
theorem broken_length_untold :
    tornBefore [completed, completed] 17 = [11, 0] ∧
      ∃ stream, [completed, completed].mapM toBytes = .ok stream ∧
        readAll (stream.flatten.take 17) = ([completed], none) ∧
        ¬ TellsCut stream.flatten [completed, completed] 17 := by
  have short : ∀ message ∈ [completed, completed], message.body.length ≤ lengthLimit := by
    decide +kernel
  have begun : tornBefore [completed, completed] 17 = [11, 0] := by decide +kernel
  have length : completed.framed.length = 15 := by decide +kernel
  have whole : wholeBefore [completed, completed] 17 = [completed] := by
    simp [wholeBefore, length]
  have given : completed.IsGivenBack := completed.ofBody_body trivial (by decide)
  have found : readAll (([completed, completed].map framed).flatten.take 17) = ([completed], none) := by
    rw [readAll_cut short, whole, begun, reread_of_givenBack (by simpa using given)]
    rfl
  refine ⟨begun, [completed, completed].map framed,
    mapM_eq_ok fun message member => message.toBytes_eq (short message member), found, ?_⟩
  rintro ⟨-, ends⟩
  rw [found, begun] at ends
  exact List.cons_ne_nil _ _ (ends.mp rfl)

end Rankwise.Message
