import Rankwise.Proofs.Marking
import Rankwise.Proofs.Traffic

/-!
# Side by side, with failures

The connection of the coordinator may fail: any request may be answered by any failure, at any time,
and nothing is assumed of the state of affairs after that. Main statement (`ends_or_failed`): what
comes of a dialogue then is what comes of it without failures, or it is true of it what holds after
every failure.
-/

namespace Rankwise

namespace Dialogue

/-- The next request of a dialogue is answered by a failure. -/
inductive Fails {α : Type} : Dialogue α → Dialogue α → Prop
  | launch (spawner : SpawnerId) (request : LaunchRequest)
      (next : Except Failure Link → Dialogue α) (failure : Failure) :
      Fails (.launch spawner request next) (next (.error failure))
  | send (link : Link) (rank : Nat) (message : Message) (next : Except Failure Unit → Dialogue α)
      (failure : Failure) : Fails (.send link rank message next) (next (.error failure))
  | receive (link : Link) (rank : Nat) (next : Except Failure Message → Dialogue α)
      (failure : Failure) : Fails (.receive link rank next) (next (.error failure))
  | shutdown (link : Link) (next : Except Failure Unit → Dialogue α) (failure : Failure) :
      Fails (.shutdown link next) (next (.error failure))

variable {σ α : Type} {holds : Bool → α → Prop}

/-- What is true whatever is answered is true after a failure. -/
theorem always_fails (dialogue next : Dialogue α) (failed : Bool)
    (always : dialogue.Always holds failed) (fails : dialogue.Fails next) :
    next.Always holds true := by
  cases fails with
  | launch spawner request next failure => exact always.2 failure
  | send link rank message next failure => exact always.2 failure
  | receive link rank next failure => exact always.2 failure
  | shutdown link next failure => exact always.2 failure

/-- An answer goes one way if it is fine, and the other way if it is a failure. -/
theorem always_answer {β : Type} (next : Except Failure β → Dialogue α) (failed : Bool)
    (answer : Except Failure β) (fine : ∀ value, (next (.ok value)).Always holds failed)
    (broken : ∀ failure, (next (.error failure)).Always holds true) :
    (next answer).Always holds failed ∨ (next answer).Always holds true := by
  cases answer with
  | ok value => exact .inl (fine value)
  | error failure => exact .inr (broken failure)

/-- What is true whatever is answered is true after an answer. -/
theorem always_step (outside : Outside σ) (state later : σ) (dialogue next : Dialogue α)
    (failed : Bool) (always : dialogue.Always holds failed)
    (advanced : dialogue.step? outside state = some (later, next)) :
    next.Always holds failed ∨ next.Always holds true := by
  cases dialogue with
  | done value => cases advanced
  | launch spawner request next =>
    obtain ⟨answer, _, rfl, rfl⟩ := Option.map_eq_some_iff.mp advanced
    exact always_answer next failed answer.1 always.1 always.2
  | send link rank message next =>
    obtain ⟨answer, _, rfl, rfl⟩ := Option.map_eq_some_iff.mp advanced
    exact always_answer next failed answer.1 (fun _ => always.1) always.2
  | receive link rank next =>
    obtain ⟨answer, _, rfl, rfl⟩ := Option.map_eq_some_iff.mp advanced
    exact always_answer next failed answer.1 always.1 always.2
  | shutdown link next =>
    obtain ⟨answer, _, rfl, rfl⟩ := Option.map_eq_some_iff.mp advanced
    exact always_answer next failed answer.1 (fun _ => always.1) always.2

end Dialogue

namespace Traffic

variable {α : Type} {holds : Bool → α → Prop}

/-- The steps of coordinator and workers, of which those of the coordinator may fail. -/
inductive FaultyStep : Traffic × Dialogue α → Traffic × Dialogue α → Prop
  | goes (before after : Traffic × Dialogue α) (step : Step before after) : FaultyStep before after
  | fails (traffic later : Traffic) (dialogue next : Dialogue α) (fails : dialogue.Fails next) :
      FaultyStep (traffic, dialogue) (later, next)

/-- What several steps may lead to of which some may fail. -/
abbrev MayReach : Traffic × Dialogue α → Traffic × Dialogue α → Prop :=
  Relation.ReflTransGen FaultyStep

/-- Steps after which a failure has been noticed, or none of which has failed. -/
theorem reached_or_failed (before after : Traffic × Dialogue α)
    (always : before.2.Always holds false) (reached : MayReach before after) :
    (Reaches before after ∧ after.2.Always holds false) ∨ after.2.Always holds true := by
  induction reached with
  | refl => exact .inl ⟨.refl, always⟩
  | tail _ step inductionHypothesis =>
    cases step with
    | fails traffic later dialogue next fails =>
      rcases inductionHypothesis with ⟨-, holds⟩ | holds
      · exact .inr (Dialogue.always_fails dialogue next false holds fails)
      · exact .inr (Dialogue.always_fails dialogue next true holds fails)
    | goes _ _ step =>
      rcases inductionHypothesis with ⟨path, holds⟩ | holds
      · have further := path.tail step
        cases step with
        | coordinator traffic later dialogue next advanced =>
          rcases Dialogue.always_step outside traffic later dialogue next false holds advanced with
            fine | failed
          · exact .inl ⟨further, fine⟩
          · exact .inr failed
        | worker => exact .inl ⟨further, holds⟩
        | arrival => exact .inl ⟨further, holds⟩
      · cases step with
        | coordinator traffic later dialogue next advanced =>
          rcases Dialogue.always_step outside traffic later dialogue next true holds advanced with
            fine | failed
          · exact .inr fine
          · exact .inr failed
        | worker => exact .inr holds
        | arrival => exact .inr holds

/-- The end of a dialogue whose connection may fail is its end without failures, or it is as it is
after every failure. -/
theorem ends_or_failed (traffic later : Traffic) (dialogue : Dialogue α) (value : α)
    (sound : traffic.IsSound) (always : dialogue.Always holds false)
    (reached : MayReach (traffic, dialogue) (later, .done value)) :
    dialogue.run Fleet.outside traffic.settled = some (value, later.settled) ∨ holds true value := by
  rcases reached_or_failed _ _ always reached with ⟨path, -⟩ | failed
  · obtain ⟨-, same⟩ := run_reached _ _ sound path
    exact .inl same.symm
  · exact .inr failed

end Traffic

end Rankwise
