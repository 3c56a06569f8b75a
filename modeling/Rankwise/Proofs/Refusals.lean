import Rankwise.Proofs.Acting
import Rankwise.Proofs.Exchanges
import Rankwise.Proofs.Inspections

/-!
# Calls that are refused

A call whose arguments cannot be prepared ends where it began: the talk about it is over before
anything was said (`Group.submit_refused`), so all that goes on meanwhile are the workers themselves
(`Traffic.reached_done`). Main statement (`Exchange.stale_refused`): a call with a table whose group
is no more, wherever it stands in the arguments, is refused in this way. Spawner, group and workers
are afterwards as if it had not been made.
-/

namespace Rankwise

namespace Group

variable {group : Group}

/-- A usable group passes the check and is not touched by it. -/
theorem ensureUsable_usable (usable : group.isUnusable = false) :
    ensureUsable.run.run group = .done (.ok (), group) := by
  have cases : ensureUsable.run.run group =
      (if group.isUnusable then throw (unusable group.generation) else pure () : Talk Unit).run.run
        group := rfl
  rw [cases, usable]
  rfl

/-- A call that cannot be prepared is over at once. -/
theorem submit_refused (usable : group.isUnusable = false) (isLive : Handle → Bool)
    (surroundings : List (String × String)) (call : CallId) (computation : Computation)
    (arguments : CallArguments) (failure : Failure)
    (refused : PreparedCall.prepare isLive computation arguments = .error failure) :
    (submit isLive surroundings call computation arguments).run group =
      .done ({ arguments, outcome := .error { failure } }, group) := by
  refine (congrArg (fun dialogue => Dialogue.bind dialogue _) (ensureUsable_usable usable)).trans ?_
  simp only [Dialogue.bind, refused]
  rfl

end Group

/-- While nothing is asked, only the workers go on, as they would if something were asked. -/
theorem Traffic.reached_done {α : Type} (traffic : Traffic) (result : α) (later : Traffic × Dialogue α)
    (reached : Reaches (traffic, .done result) later) :
    later.2 = .done result ∧ later.1.settled = traffic.settled ∧
      ∀ (β : Type) (dialogue : Dialogue β), Reaches (traffic, dialogue) (later.1, dialogue) := by
  -- A step of a worker, or of a message, does not look at the dialogue. So it can be made beside any.
  induction reached with
  | refl => exact ⟨rfl, rfl, fun _ _ => .refl⟩
  | tail _ step inductionHypothesis =>
    obtain ⟨ended, settles, elsewhere⟩ := inductionHypothesis
    cases step with
    | coordinator traffic later dialogue next advanced =>
      obtain rfl := ended
      cases advanced
    | worker traffic dialogue link rank lane inside advanced =>
      refine ⟨ended, (worker_settled traffic link rank lane advanced).trans settles, ?_⟩
      exact fun β dialogue => (elsewhere β dialogue).tail (.worker _ _ link rank lane inside advanced)
    | arrival traffic dialogue link rank message rest inside sent =>
      refine ⟨ended, (arrival_settled traffic link rank message rest sent).trans settles, ?_⟩
      exact fun β dialogue =>
        (elsewhere β dialogue).tail (.arrival _ _ link rank message rest inside sent)

namespace SpawnerId

variable (id : SpawnerId) (world : World)

/-- A group is ready if it is live and nothing is to be freed in it. -/
theorem run_prepare_idle (spawner : Spawner) (group : Group)
    (found : world.spawner? id = some spawner) (live : world.group? id = some group)
    (idle : spawner.pending = []) : id.prepare.run.run world = .done (.ok (), world) := by
  have emptied : world.emptied id = world := by
    refine world.change_eq id _ fun known there => ?_
    obtain ⟨thereToo, -⟩ := Option.filter_eq_some_iff.mp found
    obtain rfl := Option.some.inj (there.symm.trans thereToo)
    rw [← idle]
  have freed : (id.talk (spawner.pending.forM Group.freeOwn)).run world = .done (some (), world) := by
    rw [idle, id.run_talk _ world group live]
    show Dialogue.done (some (), world.noted id group) = _
    rw [world.noted_self id group live]
  have flushed : id.flush.run world = .done ((), world) := by
    rw [flush_cases, found]
    show (((id.talk (spawner.pending.forM Group.freeOwn)).run (world.emptied id)).bind
      fun talked => .done ((), talked.2)) = _
    rw [emptied, freed]
    rfl
  unfold prepare
  rw [Coordinating.run_bind, id.run_ensureGroup_live world group live]
  show ((id.flush.run world).bind fun freed => .done (Except.ok (), freed.2)) = _
  rw [flushed]
  rfl

/-- A call that cannot be prepared leaves the spawner as it is. -/
theorem run_perform_refused (group : Group) (live : world.group? id = some group)
    (usable : group.isUnusable = false) (computation : Computation) (arguments : CallArguments)
    (failure : Failure)
    (refused : PreparedCall.prepare world.isLive computation arguments = .error failure) :
    (id.perform computation arguments).run.run world =
      .done (.ok (arguments, .error failure), world.counted) := by
  have talked := Group.submit_refused usable world.isLive world.environment
    (.ofCounter world.calls) computation arguments failure refused
  have noted : world.counted.noted id group = world.counted := world.counted.noted_self id group live
  have kept := id.run_retire_usable world.counted fun other there => by
    obtain rfl := Option.some.inj (live.symm.trans there)
    exact usable
  rw [id.run_perform computation arguments world group live, callTalk, talked]
  show (((id.conclude group.generation
    { arguments, outcome := .error { failure } }).run (world.counted.noted id group)).bind _) = _
  rw [noted, run_conclude]
  show (((id.retireIfUnusable.run world.counted).bind _).bind _) = _
  rw [kept]
  rfl

end SpawnerId

namespace Exchange

/-- A call is made to a group that can be used, and in its arguments there is, in a tuple at any
depth, in a context or by itself, a table whose group is no more. The call breaks the protocol and
fails, with such a table and its parameter named. Nothing is sent or awaited for it, and the
arguments and the group are as before. The workers come to rest as they would have done, and
whatever comes of the next request could have come of it if the call had not been made. The spawner
has counted the call, and nothing else of it has changed. -/
theorem stale_refused (group : Group) (usable : group.isUnusable = false) (isLive : Handle → Bool)
    (surroundings : List (String × String)) (call : CallId) (computation : Computation)
    (arguments : CallArguments)
    (stale : ∃ entry ∈ arguments.tables computation, ¬ entry.2.IsAtHand isLive) :
    ∃ entry ∈ arguments.tables computation, ∃ id, entry.2.residency isLive = .stale id ∧
      ∃ failure, failure = Shipment.staleFrame entry.1 id ∧ failure.kind = .protocol ∧
        about (.submit isLive surroundings call computation arguments) group =
          .done (some (.ended { arguments, outcome := .error { failure } }), group) ∧
        (∀ traffic later, Traffic.Reaches
            (traffic, about (.submit isLive surroundings call computation arguments) group) later →
          later.2 = .done (some (.ended { arguments, outcome := .error { failure } }), group) ∧
            (∀ stores, traffic.settled.AtRest group stores →
              later.1.settled.AtRest group stores) ∧
            ∀ request outcome, Traffic.Reaches (later.1, about request group) outcome →
              Traffic.Reaches (traffic, about request group) outcome) ∧
        ∀ (world : World) (spawner : SpawnerId), world.isLive = isLive →
          world.group? spawner = some group →
          (spawner.perform computation arguments).run.run world =
              .done (.ok (arguments, .error failure), world.counted) ∧
            ((∀ found, world.spawner? spawner = some found → found.pending = []) →
              (spawner.submit computation arguments).run.run world =
                .done (.ok (arguments, .error failure), world.counted)) := by
  obtain ⟨entry, member, id, gone, refused⟩ :=
    PreparedCall.prepare_stale isLive computation arguments stale
  refine ⟨entry, member, id, gone, _, rfl, rfl, ?_⟩
  -- The preparation fails, and nothing was said before it. So the dialogue is over from the start.
  have atOnce : about (.submit isLive surroundings call computation arguments) group = .done
      (some (.ended { arguments, outcome := .error { failure := Shipment.staleFrame entry.1 id } }),
        group) := by
    have talked := Group.submit_refused usable isLive surroundings call computation arguments _
      refused
    show ((((Group.submit isLive surroundings call computation arguments).run group).bind
      fun talked => .done (Reaction.ended talked.1, talked.2)).bind
      fun reached => .done (some reached.1, reached.2)) = _
    rw [talked]
    rfl
  refine ⟨atOnce, ?_, ?_⟩
  · intro traffic later reached
    rw [atOnce] at reached
    obtain ⟨ended, settles, elsewhere⟩ := traffic.reached_done _ later reached
    refine ⟨ended, fun stores rests => settles ▸ rests, fun request outcome further => ?_⟩
    exact (elsewhere _ (about request group)).trans further
  · rintro world spawner rfl live
    have performed := spawner.run_perform_refused world group live usable computation arguments _
      refused
    refine ⟨performed, fun idle => ?_⟩
    obtain ⟨found, there, -⟩ := Option.bind_eq_some_iff.mp (world.group?_eq spawner ▸ live)
    rw [SpawnerId.submit_eq, Coordinating.run_bind,
      spawner.run_prepare_idle world found group there live (idle found there)]
    exact performed

/-- A table beside a frame of an ended group in an inner tuple. The two workers that were just
started are not told of the call. -/
theorem stale_within_tuple :
    let group := firstGroup 2 2
    let frame : Frame := .distributed ⟨⟨"r"⟩, {}, [1, 1]⟩ ⟨0, ⟨"r"⟩, 1, ⟨0⟩⟩
    let arguments : CallArguments := {
      positional := [.value (.table CallArguments.twoRows)]
      keyword := [("side", .tuple [.value .null, .tuple [.frame frame]])] }
    let call : Request := .submit (fun _ => false) [] (.ofCounter 0) { name := "echo" } arguments
    group.isUnusable = false ∧
      (("side", frame) ∈ arguments.tables { name := "echo" } ∧
        ¬ frame.IsAtHand fun _ => false) ∧
      ∃ failure, failure.kind = .protocol ∧
        about call group = .done (some (.ended { arguments, outcome := .error { failure } }), group) ∧
        ∀ later, Traffic.Reaches ((started .builtins 2 2).1, about call group) later →
          later.1.settled.AtRest group fun _ => [] := by
  intro group frame arguments call
  have member : ("side", frame) ∈ arguments.tables { name := "echo" } := by
    simp [CallArguments.tables, CallArguments.keywordTables, arguments, Argument.tables,
      Argument.tablesIn, Value.tables]
  have gone : ¬ frame.IsAtHand fun _ => false := fun atHand => by
    have live := atHand _ rfl
    cases live
  obtain ⟨_, _, _, _, failure, -, protocol, atOnce, onward, -⟩ :=
    stale_refused group rfl (fun _ => false) [] (.ofCounter 0) { name := "echo" } arguments
      ⟨_, member, gone⟩
  refine ⟨rfl, ⟨member, gone⟩, failure, protocol, atOnce, fun later reached => ?_⟩
  exact (onward _ later reached).2.1 _ (started_atRest .builtins 2 2)

end Exchange

end Rankwise
