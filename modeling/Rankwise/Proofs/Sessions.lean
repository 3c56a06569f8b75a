import Rankwise.Proofs.Fleet

/-!
# What a worker makes of messages

`Session.Leads` tells how a session goes on that is handed some messages: what it sends on the way
and what is left of it. From its rules for the two kinds of moves follow rules for composed
sessions, for serving a command and for receiving arguments, so that the work on a command can be
followed part by part. `Station.deliverAll_leads` says what that means for a worker at its place.
-/

namespace Rankwise

namespace Session

variable {α β : Type}

/-- Handed `input`, message by message, the session sends `output` and goes on as `rest`. -/
inductive Leads : Session α → List Message → List Message → Session α → Prop
  | refl (session : Session α) : Leads session [] [] session
  | send (message : Message) (next : Except Failure Unit → Session α)
      {input output : List Message} {rest : Session α}
      (later : Leads (next (.ok ())) input output rest) :
      Leads (.send message next) input (message :: output) rest
  | receive (message : Message) (next : Except Failure Message → Session α)
      {input output : List Message} {rest : Session α}
      (later : Leads (next (.ok message)) input output rest) :
      Leads (.receive next) (message :: input) output rest

namespace Leads

variable {session middle rest : Session α} {input output furtherInput furtherOutput : List Message}

/-- A session is led on from where it was led to. -/
theorem trans (first : Leads session input output middle)
    (second : Leads middle furtherInput furtherOutput rest) :
    Leads session (input ++ furtherInput) (output ++ furtherOutput) rest := by
  induction first with
  | refl => exact second
  | send message next _ inductionHypothesis => exact .send message next (inductionHypothesis second)
  | receive message next _ inductionHypothesis =>
    exact .receive message next (inductionHypothesis second)

/-- A beginning that neither takes nor sends anything. -/
theorem quiet (first : Leads session [] [] middle) (second : Leads middle input output rest) :
    Leads session input output rest := first.trans second

/-- A beginning that takes one message. -/
theorem taking {message : Message} (first : Leads session [message] [] middle)
    (second : Leads middle input output rest) : Leads session (message :: input) output rest :=
  first.trans second

/-- A beginning that only takes messages. -/
theorem takingAll (first : Leads session input [] middle)
    (second : Leads middle furtherInput output rest) :
    Leads session (input ++ furtherInput) output rest := first.trans second

/-- A beginning that sends one message. -/
theorem sending {message : Message} (first : Leads session [] [message] middle)
    (second : Leads middle input output rest) : Leads session input (message :: output) rest :=
  first.trans second

/-- What leads a session leads it in front of another one, too. -/
theorem bind (first : Leads session input output rest) (continuation : α → Session β) :
    Leads (session.bind continuation) input output (rest.bind continuation) := by
  induction first with
  | refl => exact .refl _
  | send message next _ inductionHypothesis => exact .send message _ inductionHypothesis
  | receive message next _ inductionHypothesis => exact .receive message _ inductionHypothesis

end Leads

end Session

namespace Station

/-- Where a worker stands that is handed some messages while it is on its way. -/
theorem settled_leads (worker : Worker) (session rest : Work) (input output : List Message)
    (leads : Session.Leads session input output rest) :
    (settled worker session).1 ++ ((settled worker session).2.deliverAll worker input).1 =
        output ++ (settled worker rest).1 ∧
      ((settled worker session).2.deliverAll worker input).2 = (settled worker rest).2 := by
  induction leads with
  | refl => simp
  | send message next _ inductionHypothesis =>
    simpa [settled_send] using inductionHypothesis
  | receive message next _ inductionHypothesis =>
    simpa [deliverAll_cons] using inductionHypothesis

/-- What a waiting worker makes of a command and of the messages behind it. -/
theorem deliverAll_leads (worker : Worker) (store : ResultStore) (message : Message)
    (input output : List Message) (rest : Work)
    (leads : Session.Leads (worker.next store (.ok message)) input output rest) :
    (idle worker store).deliverAll worker (message :: input) =
      (output ++ (settled worker rest).1, (settled worker rest).2) := by
  obtain ⟨sent, stands⟩ := settled_leads worker _ _ _ _ leads
  rw [deliverAll_cons]
  exact Prod.ext sent stands

end Station

/-- Handed `input`, the serving sends `output` and gives `value`; the worker stores `later` then. -/
def Serves {α : Type} (serving : Serving α) (store : ResultStore) (input output : List Message)
    (value : α) (later : ResultStore) : Prop :=
  Session.Leads (serving.run.run store) input output (.done (.ok value, later))

namespace Serves

variable {α β : Type} {serving : Serving α} {continuation : α → Serving β}
  {store later last : ResultStore} {input output furtherInput furtherOutput : List Message}
  {value : α} {result : β}

/-- To give a value takes no message and sends none. -/
theorem pure (value : α) (store : ResultStore) :
    Serves (Pure.pure value) store [] [] value store := .refl _

/-- The beginning of a composed serving. -/
theorem begin (first : Serves serving store input output value later) :
    Session.Leads ((serving >>= continuation).run.run store) input output
      ((continuation value).run.run later) :=
  Session.Leads.bind first _

/-- Two parts of a service run one after the other, and so do their messages. -/
theorem bind (first : Serves serving store input output value later)
    (second : Serves (continuation value) later furtherInput furtherOutput result last) :
    Serves (serving >>= continuation) store (input ++ furtherInput) (output ++ furtherOutput)
      result last :=
  (begin first).trans second

/-- A composed serving whose first part neither sends nor receives. -/
theorem bindQuiet (first : Serves serving store [] [] value later)
    (second : Serves (continuation value) later input output result last) :
    Serves (serving >>= continuation) store input output result last :=
  bind first second

/-- A composed serving whose first part takes one message. -/
theorem bindTaking {message : Message} (first : Serves serving store [message] [] value later)
    (second : Serves (continuation value) later input output result last) :
    Serves (serving >>= continuation) store (message :: input) output result last :=
  bind first second

/-- A composed serving whose first part only sends. -/
theorem bindSending (first : Serves serving store [] output value later)
    (second : Serves (continuation value) later input furtherOutput result last) :
    Serves (serving >>= continuation) store input (output ++ furtherOutput) result last :=
  bind first second

/-- To send a message sends this message. -/
theorem send (message : Message) (store : ResultStore) :
    Serves (Worker.send message) store [] [message] () store :=
  Session.Leads.send message _ (.refl _)

/-- To receive takes the next message, if it is one that is selected. -/
theorem receive {select : Message → Except Failure α} {message : Message} (value : α)
    (selected : select message = .ok value) :
    Serves (Worker.receive select) store [message] [] value store := by
  refine Session.Leads.receive message _ ?_
  show Session.Leads ((Worker.accept select (.ok message)).run.run store) [] [] _
  simp only [Worker.accept, Except.bind, selected]
  exact .refl _

/-- To look into the store changes nothing. -/
theorem get (store : ResultStore) : Serves (get : Serving ResultStore) store [] [] store store :=
  .refl _

/-- To change the store takes no message and sends none. -/
theorem modify (update : ResultStore → ResultStore) (store : ResultStore) :
    Serves (modify update : Serving Unit) store [] [] () (update store) := .refl _

end Serves

/-- Handed `input`, the receiving gives `value`, and what was found out is `found` instead of
`intake` then. Nothing is sent and nothing changes in the store. -/
def Receives {α : Type} (receiving : Worker.Receiving α) (store : ResultStore)
    (intake : Worker.Intake) (input : List Message) (value : α) (found : Worker.Intake) : Prop :=
  Serves (receiving.run intake) store input [] (value, found) store

namespace Receives

variable {α β : Type} {receiving : Worker.Receiving α} {continuation : α → Worker.Receiving β}
  {store : ResultStore} {intake found last : Worker.Intake} {input furtherInput : List Message}
  {value : α} {result : β}

/-- To give a value takes nothing in. -/
theorem pure (value : α) (store : ResultStore) (intake : Worker.Intake) :
    Receives (Pure.pure value) store intake [] value intake := .refl _

/-- Two parts of an intake run one after the other, and so do their messages. -/
theorem bind (first : Receives receiving store intake input value found)
    (second : Receives (continuation value) store found furtherInput result last) :
    Receives (receiving >>= continuation) store intake (input ++ furtherInput) result last :=
  Serves.bind first second

/-- Composed receiving whose first part takes nothing. -/
theorem bindQuiet (first : Receives receiving store intake [] value found)
    (second : Receives (continuation value) store found input result last) :
    Receives (receiving >>= continuation) store intake input result last := bind first second

/-- Composed receiving whose first part takes one message. -/
theorem bindTaking {message : Message} (first : Receives receiving store intake [message] value found)
    (second : Receives (continuation value) store found input result last) :
    Receives (receiving >>= continuation) store intake (message :: input) result last :=
  bind first second

/-- What is made of a value that was received takes in what the value does. -/
theorem map (function : α → β) (first : Receives receiving store intake input value found) :
    Receives (do return function (← receiving)) store intake input (function value) found := by
  have whole : Receives (receiving >>= fun value => Pure.pure (function value)) store intake
      (input ++ []) (function value) found := bind first (pure (function value) store found)
  simpa using whole

/-- What serves can be used while arguments are received. -/
theorem lift {serving : Serving α} (serves : Serves serving store input [] value store) :
    Receives (liftM serving) store intake input value intake := by
  have whole : Serves (serving >>= fun value => Pure.pure (value, intake)) store (input ++ []) []
      (value, intake) store := Serves.bind serves (Serves.pure (value, intake) store)
  rw [List.append_nil] at whole
  exact whole

/-- To change the intake takes no message. -/
theorem modify (update : Worker.Intake → Worker.Intake) (store : ResultStore)
    (intake : Worker.Intake) :
    Receives (modify update) store intake [] () (update intake) := .refl _

end Receives

end Rankwise
