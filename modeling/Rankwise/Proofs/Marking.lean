import Rankwise.Proofs.Utterances

/-!
# Laws about groups

Talk with the workers of a group marks the group as broken if some answer is a failure, and changes
nothing else in it. So a law about groups that bears the mark is kept whatever the outside answers,
on all paths of a dialogue (`Dialogue.Always`); the main statement is `Group.Law.keeps_submit`. Two
laws are of use: nothing takes the mark away (`Group.Law.marking`), and the generation of a group is
always the same (`Group.Law.ofGeneration`).
-/

namespace Rankwise

namespace Dialogue

variable {α β : Type}

/-- Whatever is answered, `holds` is true of the value at the end. It is told whether some answer
was a failure, in this dialogue or before it. -/
def Always (holds : Bool → α → Prop) : Bool → Dialogue α → Prop
  | failed, done value => holds failed value
  | failed, launch _ _ next =>
    (∀ link, (next (.ok link)).Always holds failed) ∧
      ∀ failure, (next (.error failure)).Always holds true
  | failed, send _ _ _ next =>
    (next (.ok ())).Always holds failed ∧ ∀ failure, (next (.error failure)).Always holds true
  | failed, receive _ _ next =>
    (∀ message, (next (.ok message)).Always holds failed) ∧
      ∀ failure, (next (.error failure)).Always holds true
  | failed, shutdown _ next =>
    (next (.ok ())).Always holds failed ∧ ∀ failure, (next (.error failure)).Always holds true

/-- What is true whatever comes of the first part can be used for what follows it. -/
theorem always_bind {holds : Bool → α → Prop} {last : Bool → β → Prop} (dialogue : Dialogue α)
    (continuation : α → Dialogue β) (failed : Bool) (first : dialogue.Always holds failed)
    (second : ∀ failed value, holds failed value → (continuation value).Always last failed) :
    (dialogue.bind continuation).Always last failed := by
  induction dialogue generalizing failed with
  | done value => exact second failed value first
  | launch spawner request next inductionHypothesis =>
    constructor
    · intro link
      exact inductionHypothesis _ _ (first.1 link)
    · intro failure
      exact inductionHypothesis _ _ (first.2 failure)
  | send link rank message next inductionHypothesis =>
    constructor
    · exact inductionHypothesis _ _ first.1
    · intro failure
      exact inductionHypothesis _ _ (first.2 failure)
  | receive link rank next inductionHypothesis =>
    constructor
    · intro message
      exact inductionHypothesis _ _ (first.1 message)
    · intro failure
      exact inductionHypothesis _ _ (first.2 failure)
  | shutdown link next inductionHypothesis =>
    constructor
    · exact inductionHypothesis _ _ first.1
    · intro failure
      exact inductionHypothesis _ _ (first.2 failure)

/-- Nothing is asked of an answer of which nothing is said. -/
theorem always_true (dialogue : Dialogue α) (failed : Bool) :
    dialogue.Always (fun _ _ => True) failed := by
  induction dialogue generalizing failed with
  | done value => trivial
  | launch spawner request next inductionHypothesis =>
    exact ⟨fun link => inductionHypothesis _ _, fun failure => inductionHypothesis _ _⟩
  | send link rank message next inductionHypothesis =>
    exact ⟨inductionHypothesis _ _, fun failure => inductionHypothesis _ _⟩
  | receive link rank next inductionHypothesis =>
    exact ⟨fun message => inductionHypothesis _ _, fun failure => inductionHypothesis _ _⟩
  | shutdown link next inductionHypothesis =>
    exact ⟨inductionHypothesis _ _, fun failure => inductionHypothesis _ _⟩

end Dialogue

namespace Group

/-- Something that can be true of a group, given whether some answer was a failure, and that stays
true if it is marked as broken at a failure. -/
structure Law where
  holds : Bool → Group → Prop
  broken : ∀ failed group, holds failed group → holds true { group with broken := true }

namespace Law

/-- Talk keeps to the law, whatever is answered. -/
def Keeps {α : Type} (law : Law) (talk : StateT Group Dialogue α) : Prop :=
  ∀ (group : Group) (failed : Bool), law.holds failed group →
    (talk.run group).Always (fun failed result => law.holds failed result.2) failed

namespace Keeps

variable {law : Law} {α β : Type}

/-- To give a value keeps to every law. -/
theorem pure (value : α) : law.Keeps (Pure.pure value) := by
  intro group failed before
  exact before

/-- Two talks that keep to the law do so one after the other. -/
theorem bind {talk : StateT Group Dialogue α} {continuation : α → StateT Group Dialogue β}
    (first : law.Keeps talk) (second : ∀ value, law.Keeps (continuation value)) :
    law.Keeps (talk >>= continuation) := by
  intro group failed before
  apply Dialogue.always_bind _ _ _ (first group failed before)
  rintro failed ⟨value, later⟩ kept
  exact second value later failed kept

/-- To look at the group keeps to every law. -/
theorem look : law.Keeps (MonadState.get : StateT Group Dialogue Group) := by
  intro group failed before
  exact before

/-- Talk about each item keeps to the law if the talk about one does. -/
theorem forEach (items : List α) (talk : α → StateT Group Dialogue Unit)
    (each : ∀ item, law.Keeps (talk item)) : law.Keeps (items.forM talk) := by
  induction items with
  | nil => exact pure _
  | cons item rest inductionHypothesis => exact bind (each item) fun _ => inductionHypothesis

end Keeps

variable (law : Law)

/-- To send a message keeps to every law. -/
theorem keeps_send (rank : Nat) (message : Message) : law.Keeps (send rank message).run := by
  intro group failed before
  constructor
  · exact before
  · intro failure
    exact law.broken failed group before

/-- To receive a message keeps to every law. -/
theorem keeps_receive (rank : Nat) : law.Keeps (receive rank).run := by
  intro group failed before
  constructor
  · intro message
    exact before
  · intro failure
    exact law.broken failed group before

/-- All talk but the end of a group keeps to the law. -/
theorem keeps_uttered {may : Message → Prop} {α : Type} {talk : StateT Group Dialogue α}
    (utters : Utters may talk) : law.Keeps talk := by
  induction utters with
  | pure value => exact Keeps.pure value
  | bind _ _ first second => exact Keeps.bind first second
  | look => exact Keeps.look
  | send rank message _ => exact law.keeps_send rank message
  | receive rank => exact law.keeps_receive rank

/-- Calls keep to the law. -/
theorem keeps_submit (isLive : Handle → Bool) (surroundings : List (String × String))
    (call : CallId) (computation : Computation) (arguments : CallArguments) :
    law.Keeps (submit isLive surroundings call computation arguments) :=
  law.keeps_uttered (utters_submit isLive surroundings call computation arguments)

/-- To make the workers forget a result keeps to every law. -/
theorem keeps_deleteResult (id : ResultId) : law.Keeps (deleteResult id).run :=
  law.keeps_uttered (utters_deleteResult (fun _ => True) id trivial)

/-- A group is broken once some answer was a failure. -/
def marking : Law where
  holds failed group := failed = true → group.broken = true
  broken _ _ _ _ := rfl

/-- The generation of a group is always the same. -/
def ofGeneration (generation : Nat) : Law where
  holds _ group := group.generation = generation
  broken _ _ same := same

end Law

end Group

end Rankwise
