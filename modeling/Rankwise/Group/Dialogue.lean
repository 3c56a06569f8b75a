import Rankwise.Group.Frame

/-!
# What the coordinator asks of the outside

The coordinator does not touch processes or threads itself. It asks for groups to be launched, for
messages to be sent and received, and for groups to be shut down, and goes on with the answers. A
`Dialogue` is the tree of these requests: what is asked next depends on the answers so far. Every
law about the coordinator that is to hold whatever the outside does is a law about all paths of such
a tree.

An `Outside` answers the requests. It may also never answer, as when a message is awaited that
nobody sends.
-/

namespace Rankwise

/-- What is needed to start the workers of a group. -/
structure LaunchRequest where
  workers : Nat
  /-- Variables to set for every worker. -/
  environment : Named String
  /-- How much the workers log. -/
  verbosity : Nat
deriving DecidableEq, Repr

/-- The name of the connection to the workers of a group. -/
structure Link where
  index : Nat
deriving DecidableEq, Repr

/-- What is asked of the outside, and how to go on. -/
inductive Dialogue (α : Type) where
  | done (value : α)
  /-- Start the workers of a group for a spawner. -/
  | launch (spawner : SpawnerId) (request : LaunchRequest) (next : Except Failure Link → Dialogue α)
  /-- Send a message to a rank. -/
  | send (link : Link) (rank : Nat) (message : Message) (next : Except Failure Unit → Dialogue α)
  /-- Await the next message from a rank. -/
  | receive (link : Link) (rank : Nat) (next : Except Failure Message → Dialogue α)
  /-- Close the connection and wait for all workers to end. -/
  | shutdown (link : Link) (next : Except Failure Unit → Dialogue α)

namespace Dialogue

variable {α β : Type}

/-- Goes on with a further dialogue. -/
def bind : Dialogue α → (α → Dialogue β) → Dialogue β
  | done value, continuation => continuation value
  | launch spawner request next, continuation =>
    launch spawner request fun answer => (next answer).bind continuation
  | send link rank message next, continuation =>
    send link rank message fun answer => (next answer).bind continuation
  | receive link rank next, continuation =>
    receive link rank fun answer => (next answer).bind continuation
  | shutdown link next, continuation => shutdown link fun answer => (next answer).bind continuation

instance : Monad Dialogue where
  pure := done
  bind := bind

/-- To go on by giving the answer back is to do nothing more. -/
theorem bind_done (dialogue : Dialogue α) : dialogue.bind done = dialogue := by
  induction dialogue with
  | done value => rfl
  | launch spawner request next inductionHypothesis =>
    exact congrArg _ (funext inductionHypothesis)
  | send link rank message next inductionHypothesis =>
    exact congrArg _ (funext inductionHypothesis)
  | receive link rank next inductionHypothesis => exact congrArg _ (funext inductionHypothesis)
  | shutdown link next inductionHypothesis => exact congrArg _ (funext inductionHypothesis)

/-- It makes no difference how dialogues that follow each other are grouped. -/
theorem bind_assoc {γ : Type} (dialogue : Dialogue α) (first : α → Dialogue β)
    (second : β → Dialogue γ) :
    (dialogue.bind first).bind second = dialogue.bind fun value => (first value).bind second := by
  induction dialogue with
  | done value => rfl
  | launch spawner request next inductionHypothesis =>
    exact congrArg _ (funext inductionHypothesis)
  | send link rank message next inductionHypothesis =>
    exact congrArg _ (funext inductionHypothesis)
  | receive link rank next inductionHypothesis => exact congrArg _ (funext inductionHypothesis)
  | shutdown link next inductionHypothesis => exact congrArg _ (funext inductionHypothesis)

instance : LawfulMonad Dialogue :=
  LawfulMonad.mk' Dialogue (fun dialogue => bind_done dialogue) (fun _ _ => rfl)
    fun dialogue first second => bind_assoc dialogue first second

end Dialogue

/-- Whatever answers the requests of the coordinator, with a state of its own. There is no answer
where it keeps the coordinator waiting for ever. -/
structure Outside (σ : Type) where
  launch : SpawnerId → LaunchRequest → σ → Option (Except Failure Link × σ)
  send : Link → Nat → Message → σ → Option (Except Failure Unit × σ)
  receive : Link → Nat → σ → Option (Except Failure Message × σ)
  shutdown : Link → σ → Option (Except Failure Unit × σ)

/-- Conducts a dialogue. There is no result where the outside does not answer. -/
def Dialogue.run {σ α : Type} (outside : Outside σ) : Dialogue α → σ → Option (α × σ)
  | done value, state => some (value, state)
  | launch spawner request next, state =>
    (outside.launch spawner request state).bind fun (answer, state) =>
      (next answer).run outside state
  | send link rank message next, state =>
    (outside.send link rank message state).bind fun (answer, state) =>
      (next answer).run outside state
  | receive link rank next, state =>
    (outside.receive link rank state).bind fun (answer, state) => (next answer).run outside state
  | shutdown link next, state =>
    (outside.shutdown link state).bind fun (answer, state) => (next answer).run outside state

/-- A dialogue is conducted part by part. -/
theorem Dialogue.run_bind {σ α β : Type} (outside : Outside σ) (dialogue : Dialogue α)
    (continuation : α → Dialogue β) (state : σ) :
    (dialogue.bind continuation).run outside state =
      (dialogue.run outside state).bind fun (value, state) =>
        (continuation value).run outside state := by
  induction dialogue generalizing state with
  | done value => rfl
  | launch spawner request next inductionHypothesis =>
    simp only [bind, run, Option.bind_assoc, inductionHypothesis]
  | send link rank message next inductionHypothesis =>
    simp only [bind, run, Option.bind_assoc, inductionHypothesis]
  | receive link rank next inductionHypothesis =>
    simp only [bind, run, Option.bind_assoc, inductionHypothesis]
  | shutdown link next inductionHypothesis =>
    simp only [bind, run, Option.bind_assoc, inductionHypothesis]

end Rankwise
