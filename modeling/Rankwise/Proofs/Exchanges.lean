import Rankwise.Proofs.Calls
import Rankwise.Proofs.Traffic

/-!
# Exchanges with a group

A coordinator makes calls to a group, fetches results and has results forgotten, in any order, while
the workers go on side by side with it and what they send arrives in any order. Main statement
(`exchange_in_sync`): no state on the way is stuck, every request is answered after finitely many
steps, and after every answer nothing of the group is unread and its workers, after taking what lies
ahead of them, wait for a command. Which answer is given and what the workers store then does not
depend on the order of the steps, and `Request.Yields` says it.

Of the computations it is assumed that they come to an end on every rank without ending the worker,
and that outputs on different ranks have the same shape.
-/

namespace Rankwise

/-- A waiting worker shows what it stores when its connection fails. -/
theorem Station.idle_injective (worker : Worker) (store other : ResultStore)
    (same : idle worker store = idle worker other) : store = other := by
  have stopped := congrFun (Station.waiting.inj same) (.error Crews.closedByCoordinator)
  exact (Prod.mk.inj (Session.done.inj stopped)).2

namespace Fleet

/-- All workers of a group wait for a command, nothing is unread, and this is what they store. -/
structure AtRest (fleet : Fleet) (group : Group) (stores : Nat → ResultStore) : Prop where
  sized : fleet.size group.link = group.size
  resting : ∀ rank < group.size,
    fleet.line group.link rank = .atRest (fleet.worker group.size rank) (stores rank)

variable {fleet : Fleet} {group : Group} {stores : Nat → ResultStore}

/-- A fleet whose group is at rest does not change when the group is put to rest. -/
theorem AtRest.rest_eq (rests : fleet.AtRest group stores) : fleet.rest group stores = fleet := by
  have agree := place_congr fleet group.link _ (fleet.line group.link) fun rank inside =>
    (rests.resting rank (rests.sized ▸ inside)).symm
  exact agree.trans (place_line fleet group.link)

/-- What workers at rest store is a matter of the fleet. -/
theorem AtRest.unique {others : Nat → ResultStore} (rests : fleet.AtRest group stores)
    (restsToo : fleet.AtRest group others) (rank : Nat) (inside : rank < group.size) :
    stores rank = others rank := by
  have idle := (rests.resting rank inside).symm.trans (restsToo.resting rank inside)
  exact Station.idle_injective _ _ _ (Line.mk.inj idle).2.1

/-- A group that was put to rest waits for a command on all ranks and has nothing unread. -/
theorem atRest_rest (sized : fleet.size group.link = group.size) :
    (fleet.rest group stores).AtRest group stores where
  sized := sized
  resting _ inside := line_place _ _ _ _ (sized ▸ inside)

end Fleet

/-- What is asked of a group. -/
inductive Request where
  | submit (isLive : Handle → Bool) (surroundings : List (String × String)) (call : CallId)
      (computation : Computation) (arguments : CallArguments)
  | fetch (id : ResultId)
  | forget (id : ResultId)

/-- What comes of a request. -/
inductive Reaction where
  | ended (call : CallEnd)
  | fetched (table : Except Failure Batch)
  | forgot (answer : Except Failure Unit)

namespace Request

/-- The talk with the group. -/
def talk : Request → StateT Group Dialogue Reaction
  | submit isLive surroundings call computation arguments => do
    return .ended (← Group.submit isLive surroundings call computation arguments)
  | fetch id => do return .fetched (← (Group.gatherResult id).run)
  | forget id => do return .forgot (← (Group.deleteResult id).run)

/-- How a prepared call goes on a rank, and what the rank stores then. -/
def outcome? (registry : Registry) (size : Nat) (surroundings : List (String × String))
    (computation : Computation) (arguments : CallArguments) (prepared : PreparedCall)
    (stores : Nat → ResultStore) (rank : Nat) : Option (Except Failure Output × ResultStore) :=
  ({ rank, size, registry } : Worker).answer? prepared.computation
    (Environment.forwarded surroundings computation.options.propagateEnvironment)
    arguments.mentioned (arguments.portion computation size rank (stores rank)) (stores rank)

/-- The computation that is asked for comes to an end on every rank without ending the worker, and
its outputs have one shape. Names in the maps and contexts of the arguments are distinct. -/
def IsFair (registry : Registry) (size : Nat) (stores : Nat → ResultStore) : Request → Prop
  | submit isLive surroundings _ computation arguments =>
    arguments.IsOrdered ∧ ∀ prepared,
      PreparedCall.prepare isLive computation arguments = .ok prepared →
      ∃ (outcome : Nat → Except Failure Output) (later : Nat → ResultStore),
        (∀ rank < size, outcome? registry size surroundings computation arguments prepared stores
          rank = some (outcome rank, later rank)) ∧
        ∀ rank < size, ∀ other < size, ∀ output another,
          outcome rank = .ok output → outcome other = .ok another →
          output.distribution = another.distribution
  | _ => True

/-- What comes of a request to a group at rest, and what the ranks store then. -/
inductive Yields (registry : Registry) (size : Nat) (stores : Nat → ResultStore) :
    Request → Reaction → (Nat → ResultStore) → Prop
  /-- A call that cannot be prepared is not made. -/
  | refused (isLive : Handle → Bool) (surroundings : List (String × String)) (call : CallId)
      (computation : Computation) (arguments : CallArguments) (failure : Failure)
      (unprepared : PreparedCall.prepare isLive computation arguments = .error failure) :
      Yields registry size stores (submit isLive surroundings call computation arguments)
        (.ended { arguments, outcome := .error { failure } }) stores
  /-- If some rank fails, the failures of all ranks are combined, and nothing but the computations
  has changed what the ranks store. -/
  | failed (isLive : Handle → Bool) (surroundings : List (String × String)) (call : CallId)
      (computation : Computation) (arguments : CallArguments) (prepared : PreparedCall)
      (outcome : Nat → Except Failure Output) (later : Nat → ResultStore) (failure : Failure)
      (ready : PreparedCall.prepare isLive computation arguments = .ok prepared)
      (answered : ∀ rank < size, outcome? registry size surroundings computation arguments prepared
        stores rank = some (outcome rank, later rank))
      (some_failed : ∃ rank < size, ∃ failure, outcome rank = .error failure)
      (combined : RankFailure.combine (Group.statuses size outcome) = .error failure) :
      Yields registry size stores (submit isLive surroundings call computation arguments)
        (.ended { arguments, outcome := .error { failure } }) later
  /-- If no rank fails, the reply mirrors the output of rank zero. Its results are one for each
  partition in that output, in order, and every rank keeps its own partitions under their names. -/
  | replied (isLive : Handle → Bool) (surroundings : List (String × String)) (call : CallId)
      (computation : Computation) (arguments : CallArguments) (prepared : PreparedCall)
      (output : Nat → Output) (later stored : Nat → ResultStore) (reply : Reply)
      (ready : PreparedCall.prepare isLive computation arguments = .ok prepared)
      (answered : ∀ rank < size, outcome? registry size surroundings computation arguments prepared
        stores rank = some (.ok (output rank), later rank))
      (mirrors : reply = (output 0).reply
        (.ofOutputs call size fun rank => (output rank).partitions) 0)
      (results : reply.results = (List.range (output 0).partitions.length).map
        (.ofOutputs call size fun rank => (output rank).partitions))
      (keeps : ∀ rank < size, ∀ leaf < (output 0).partitions.length,
        (stored rank).find? (.ofOutput call leaf) = (output rank).partitions[leaf]?)
      (leaves : ∀ rank < size, ∀ id,
        (∀ leaf < (output 0).partitions.length, id ≠ .ofOutput call leaf) →
        (stored rank).find? id = (later rank).find? id) :
      Yields registry size stores (submit isLive surroundings call computation arguments)
        (.ended {
          arguments := prepared.updated (Group.updates size stored arguments.named)
          outcome := .ok reply }) stored
  /-- The partitions of all ranks are fetched as one table, if all ranks store one. -/
  | fetched (id : ResultId) :
      Yields registry size stores (fetch id) (.fetched (Group.stored id size stores)) stores
  /-- All ranks forget the result. -/
  | forgot (id : ResultId) :
      Yields registry size stores (forget id) (.forgot (.ok ())) fun rank => (stores rank).erase id

end Request

namespace Output

mutual

/-- The number of partitions is a matter of the shape. -/
theorem partitions_of_distribution (output another : Output)
    (same : output.distribution = another.distribution) :
    output.partitions.length = another.partitions.length := by
  cases output with
  | replicated value => cases another <;> first | rfl | cases same
  | distributed partition => cases another <;> first | rfl | cases same
  | tuple items =>
    cases another with
    | tuple others => exact partitionsOf_of_distribution items others (Distribution.tuple.inj same)
    | _ => cases same
  | map entries =>
    cases another with
    | map others => exact entryPartitions_of_distribution entries others (Distribution.map.inj same)
    | _ => cases same

/-- Items of one shape have as many partitions as each other. -/
theorem partitionsOf_of_distribution (items others : List Output)
    (same : distributions items = distributions others) :
    (partitionsOf items).length = (partitionsOf others).length := by
  cases items with
  | nil =>
    cases others with
    | nil => rfl
    | cons _ _ => cases same
  | cons item rest =>
    cases others with
    | nil => cases same
    | cons another further =>
      obtain ⟨first, second⟩ := List.cons.inj same
      rw [partitionsOf, partitionsOf, List.length_append, List.length_append,
        partitions_of_distribution item another first,
        partitionsOf_of_distribution rest further second]

/-- Entries of one shape have as many partitions as each other. -/
theorem entryPartitions_of_distribution (entries others : List (String × Output))
    (same : entryDistributions entries = entryDistributions others) :
    (entryPartitions entries).length = (entryPartitions others).length := by
  cases entries with
  | nil =>
    cases others with
    | nil => rfl
    | cons _ _ => cases same
  | cons entry rest =>
    cases others with
    | nil => cases same
    | cons another further =>
      obtain ⟨first, second⟩ := List.cons.inj same
      rw [entryPartitions, entryPartitions, List.length_append, List.length_append,
        partitions_of_distribution entry.2 another.2 (Prod.mk.inj first).2,
        entryPartitions_of_distribution rest further second]

end

mutual

/-- The results of a reply are those found for the partitions of the output, in order. -/
theorem results_reply (found : Nat → Partitioned) (leaf : Nat) (output : Output) :
    (output.reply found leaf).results =
      (List.range' leaf output.partitions.length).map found := by
  cases output with
  | replicated value => rfl
  | distributed partition => rfl
  | tuple items => exact results_replies found leaf items
  | map entries => exact results_entryReplies found leaf entries

/-- The results in the reply for some items are numbered from the first leaf on. -/
theorem results_replies (found : Nat → Partitioned) (leaf : Nat) (items : List Output) :
    Reply.resultsOf (replies found leaf items) =
      (List.range' leaf (partitionsOf items).length).map found := by
  cases items with
  | nil => rfl
  | cons item rest =>
    rw [replies, Reply.resultsOf, results_reply found leaf item,
      results_replies found (leaf + item.partitions.length) rest, partitionsOf, List.length_append,
      ← List.map_append, List.range'_append_1]

/-- The results in the reply for some entries are numbered from the first leaf on. -/
theorem results_entryReplies (found : Nat → Partitioned) (leaf : Nat)
    (entries : List (String × Output)) :
    Reply.resultsOfEntries (entryReplies found leaf entries) =
      (List.range' leaf (entryPartitions entries).length).map found := by
  cases entries with
  | nil => rfl
  | cons entry rest =>
    rw [entryReplies, Reply.resultsOfEntries, results_reply found leaf entry.2,
      results_entryReplies found (leaf + entry.2.partitions.length) rest, entryPartitions,
      List.length_append, ← List.map_append, List.range'_append_1]

end

end Output

namespace Request

variable {group : Group} {fleet : Fleet}

/-- If no rank fails, every rank has an output. -/
theorem outputs_of_succeeds {size : Nat} (outcome : Nat → Except Failure Output)
    (succeeds : ∀ rank < size, ∃ output, outcome rank = .ok output) :
    ∃ output : Nat → Output, ∀ rank < size, outcome rank = .ok (output rank) := by
  refine ⟨fun rank => (outcome rank).toOption.getD (.tuple []), fun rank inside => ?_⟩
  obtain ⟨output, found⟩ := succeeds rank inside
  simp only [found, Except.toOption, Option.getD_some]

/-- The failure of one rank is enough for the call to fail. -/
theorem combine_of_failed {size : Nat} (outcome : Nat → Except Failure Output) (rank : Nat)
    (inside : rank < size) (failed : ∃ failure, outcome rank = .error failure) :
    ∃ failure, RankFailure.combine (Group.statuses size outcome) = .error failure := by
  obtain ⟨failure, found⟩ := failed
  have reported : ¬ (Group.statuses size outcome).all Option.isNone = true := by
    intro all
    have none := List.all_eq_true.mp all (Worker.reported (outcome rank))
      (List.mem_map_of_mem (List.mem_range.mpr inside))
    rw [found] at none
    cases none
  rw [RankFailure.combine, if_neg reported]
  split
  · exact ⟨_, rfl⟩
  · exact ⟨_, rfl⟩

variable (sized : fleet.size group.link = group.size) (manned : 0 < group.size)
  (usable : group.isUnusable = false) (stores : Nat → ResultStore) (isLive : Handle → Bool)
  (surroundings : List (String × String)) (call : CallId) (computation : Computation)
  (arguments : CallArguments) (prepared : PreparedCall)
  (ready : PreparedCall.prepare isLive computation arguments = .ok prepared)
  (ordered : arguments.IsOrdered) (later : Nat → ResultStore)

include ready ordered in
/-- A prepared call of which it is known how it goes on every rank. -/
theorem going_of_answered (outcome : Nat → Except Failure Output)
    (answered : ∀ rank < group.size, outcome? fleet.registry group.size surroundings computation
      arguments prepared stores rank = some (outcome rank, later rank)) :
    Group.Going group fleet computation arguments prepared
      (Environment.forwarded surroundings computation.options.propagateEnvironment) stores
      outcome later where
  fits := PreparedCall.prepare_ok isLive computation arguments prepared ready
  ordered := ordered
  answered rank inside := answered rank inside

include sized manned usable ready ordered in
/-- Where some rank fails, the coordinator is told of the failures and all ranks drop their outputs.
-/
theorem tells_failed (outcome : Nat → Except Failure Output)
    (answered : ∀ rank < group.size, outcome? fleet.registry group.size surroundings computation
      arguments prepared stores rank = some (outcome rank, later rank))
    (failed : ∃ rank < group.size, ∃ failure, outcome rank = .error failure) :
    ∃ reaction, Yields fleet.registry group.size stores
        (submit isLive surroundings call computation arguments) reaction later ∧
      Tells (submit isLive surroundings call computation arguments).talk group
        (fleet.rest group stores) reaction (fleet.rest group later) := by
  obtain ⟨rank, inside, failedHere⟩ := failed
  obtain ⟨failure, combined⟩ := combine_of_failed outcome rank inside failedHere
  have going := going_of_answered stores isLive surroundings computation arguments prepared ready
    ordered later outcome answered
  have told := Group.tells_submit_prepared isLive surroundings call computation arguments usable
    ready _ _ (Group.tells_conduct_failed sized manned call failure going combined)
  exact ⟨_, .failed isLive surroundings call computation arguments prepared outcome later failure
    ready answered ⟨rank, inside, failedHere⟩ combined, Tells.bind told (Tells.pure _ group _)⟩

include sized manned usable ready ordered in
/-- Where no rank fails, the coordinator is told of the outputs and all ranks keep their partitions.
-/
theorem tells_replied (output : Nat → Output)
    (answered : ∀ rank < group.size, outcome? fleet.registry group.size surroundings computation
      arguments prepared stores rank = some (.ok (output rank), later rank))
    (alike : ∀ rank < group.size,
      (output rank).partitions.length = (output 0).partitions.length) :
    ∃ reaction stored, Yields fleet.registry group.size stores
        (submit isLive surroundings call computation arguments) reaction stored ∧
      Tells (submit isLive surroundings call computation arguments).talk group
        (fleet.rest group stores) reaction (fleet.rest group stored) := by
  have going := going_of_answered stores isLive surroundings computation arguments prepared ready
    ordered later (fun rank => .ok (output rank)) answered
  have told := Group.tells_submit_prepared isLive surroundings call computation arguments usable
    ready _ _ (Group.tells_conduct_ok sized manned call output going alike)
  refine ⟨_, _, .replied isLive surroundings call computation arguments prepared output later
    (Group.kept call output later) (Group.replyOf call group.size output) ready answered rfl
    ?_ ?_ ?_, Tells.bind told (Tells.pure _ group _)⟩
  · rw [Group.replyOf, Output.results_reply, List.range_eq_range']
  · intro rank inside leaf listed
    have kept := ResultStore.find?_keep call 0 (output rank).partitions (later rank) leaf
      (alike rank inside ▸ listed)
    rwa [Nat.zero_add] at kept
  · intro rank inside id apart
    refine ResultStore.find?_keep_of_ne call 0 _ _ id fun leaf listed => ?_
    rw [Nat.zero_add]
    exact apart leaf (alike rank inside ▸ listed)

include sized manned usable in
/-- A request to a group at rest is answered as it should be and leaves the group at rest. -/
theorem tells_yields (request : Request)
    (fair : request.IsFair fleet.registry group.size stores) :
    ∃ reaction later, Yields fleet.registry group.size stores request reaction later ∧
      Tells request.talk group (fleet.rest group stores) reaction (fleet.rest group later) := by
  cases request with
  | fetch id =>
    exact ⟨_, _, .fetched id, Tells.bind
      (Tells.ofSays (Group.says_gatherResult sized id stores usable)) (Tells.pure _ group _)⟩
  | forget id =>
    exact ⟨_, _, .forgot id, Tells.bind
      (Tells.ofSays (Group.says_deleteResult sized id stores usable)) (Tells.pure _ group _)⟩
  | submit isLive surroundings call computation arguments =>
    obtain ⟨ordered, ends⟩ := fair
    cases ready : PreparedCall.prepare isLive computation arguments with
    | error failure =>
      exact ⟨_, _, .refused isLive surroundings call computation arguments failure ready,
        Tells.bind (Group.tells_submit_refused isLive surroundings call computation arguments
          failure usable ready) (Tells.pure _ group _)⟩
    | ok prepared =>
      obtain ⟨outcome, later, answered, alike⟩ := ends prepared ready
      by_cases succeeds : ∀ rank < group.size, ∃ output, outcome rank = .ok output
      · obtain ⟨output, found⟩ := outputs_of_succeeds outcome succeeds
        exact tells_replied sized manned usable stores isLive surroundings call computation
          arguments prepared ready ordered later output
          (fun rank inside => found rank inside ▸ answered rank inside)
          fun rank inside => Output.partitions_of_distribution _ _
            (alike rank inside 0 manned _ _ (found rank inside) (found 0 manned))
      · have failed : ∃ rank < group.size, ∃ failure, outcome rank = .error failure := by
          simp only [not_forall] at succeeds
          obtain ⟨rank, inside, failed⟩ := succeeds
          cases found : outcome rank with
          | error failure => exact ⟨rank, inside, failure, found⟩
          | ok output => exact absurd ⟨output, found⟩ failed
        obtain ⟨reaction, told⟩ := tells_failed sized manned usable stores isLive surroundings call
          computation arguments prepared ready ordered later outcome answered failed
        exact ⟨reaction, later, told⟩

end Request

/-- Coordinator and workers, with what is left of the talk about the request at hand. -/
abbrev Exchange := Traffic × Dialogue (Option Reaction × Group)

namespace Exchange

/-- The talk about a request. -/
def about (request : Request) (group : Group) : Dialogue (Option Reaction × Group) := do
  let (reaction, group) ← request.talk.run group
  return (some reaction, group)

/-- The first group that is started. -/
def firstGroup (size generation : Nat) : Group := { link := ⟨0⟩, size, generation }

/-- No group has been started. -/
def nobody (registry : Registry) : Traffic where
  registry
  lane _ rank := { worker := { rank, size := 0, registry }, work := .done (.error .exited, []) }
  inbox _ := .ofSize 0

/-- The workers of a group were started, and nothing was asked of them. -/
def started (registry : Registry) (size generation : Nat) : Exchange :=
  ((nobody registry).launch { workers := size, environment := [], verbosity := 0 },
    .done (none, firstGroup size generation))

/-- The steps of coordinator and workers. When a request is answered, any further request may
follow whose computation ends on what the ranks store by then. -/
inductive Step : Exchange → Exchange → Prop
  | go (before after : Exchange) (advanced : Traffic.Step before after) : Step before after
  | ask (traffic : Traffic) (reaction : Option Reaction) (group : Group) (request : Request)
      (fair : ∀ stores, traffic.settled.AtRest group stores →
        request.IsFair traffic.registry group.size stores) :
      Step (traffic, .done (reaction, group)) (traffic, about request group)

/-- With workers that act at once, the request at hand would be answered and the group would be at
rest. -/
structure InSync (registry : Registry) (group : Group) (exchange : Exchange) : Prop where
  sound : exchange.1.IsSound
  ends : ∃ reaction stores fleet,
    exchange.2.run Fleet.outside exchange.1.settled = some ((reaction, group), fleet) ∧
      fleet.AtRest group stores ∧ fleet.registry = registry

variable {registry : Registry} {group : Group}

/-- A request to a group at rest leads to its answer and leaves the group at rest. -/
theorem about_runs (manned : 0 < group.size) (usable : group.isUnusable = false) (fleet : Fleet)
    (stores : Nat → ResultStore) (rests : fleet.AtRest group stores) (request : Request)
    (fair : request.IsFair fleet.registry group.size stores) :
    ∃ reaction later, request.Yields fleet.registry group.size stores reaction later ∧
      (about request group).run Fleet.outside fleet =
        some ((some reaction, group), fleet.rest group later) := by
  obtain ⟨reaction, later, yields, tells⟩ :=
    Request.tells_yields rests.sized manned usable stores request fair
  rw [rests.rest_eq] at tells
  refine ⟨reaction, later, yields, ?_⟩
  have whole := Dialogue.run_bind Fleet.outside (request.talk.run group)
    (fun reached => .done (some reached.1, reached.2)) fleet
  rw [tells] at whole
  exact whole

/-- Without groups nothing is amiss. -/
theorem nobody_isSound (registry : Registry) : (nobody registry).IsSound := by
  intro link
  simpa [nobody, Traffic.size] using Inbox.fromRanks_ofSize 0

/-- The workers of the first group wait for a command and store nothing. -/
theorem started_atRest (registry : Registry) (size generation : Nat) :
    (started registry size generation).1.settled.AtRest (firstGroup size generation) fun _ => [] := by
  obtain ⟨-, same⟩ := Traffic.launch_simulates (nobody registry)
    { workers := size, environment := [], verbosity := 0 } (nobody_isSound registry)
  show ((nobody registry).launch _).settled.AtRest _ _
  rw [same]
  exact ⟨rfl, fun rank _ => by simp [Fleet.launch, firstGroup, Traffic.settled, nobody, Fleet.worker]⟩

/-- A group that was just launched waits for a command and stores nothing. -/
theorem started_inSync (registry : Registry) (size generation : Nat) :
    (started registry size generation).InSync registry (firstGroup size generation) := by
  obtain ⟨kept, -⟩ := Traffic.launch_simulates (nobody registry)
    { workers := size, environment := [], verbosity := 0 } (nobody_isSound registry)
  exact ⟨kept, none, fun _ => [], _, rfl, started_atRest registry size generation, rfl⟩

/-- Every step keeps the exchange in sync. -/
theorem step_inSync (manned : 0 < group.size) (usable : group.isUnusable = false)
    (before after : Exchange) (inSync : before.InSync registry group) (step : Step before after) :
    after.InSync registry group := by
  obtain ⟨sound, reaction, stores, fleet, ends, rests, same⟩ := inSync
  cases step with
  | go _ _ advanced =>
    obtain ⟨kept, unchanged⟩ := Traffic.run_unchanged _ _ sound advanced
    exact ⟨kept, reaction, stores, fleet, unchanged.trans ends, rests, same⟩
  | ask traffic last asked request fair =>
    obtain ⟨⟨-, rfl⟩, rfl⟩ := Prod.mk.inj (Option.some.inj ends) |>.imp_left Prod.mk.inj
    obtain ⟨answer, later, _, runs⟩ :=
      about_runs manned usable traffic.settled stores rests request (fair stores rests)
    exact ⟨sound, some answer, later, _, runs, Fleet.atRest_rest rests.sized, same⟩

/-- Whatever requests were made, coordinator and workers are in step. -/
theorem reached_inSync (size generation : Nat) (manned : 0 < size) (exchange : Exchange)
    (reached : Relation.ReflTransGen Step (started registry size generation) exchange) :
    exchange.InSync registry (firstGroup size generation) := by
  induction reached with
  | refl => exact started_inSync registry size generation
  | tail _ step inductionHypothesis =>
    exact step_inSync manned rfl _ _ inductionHypothesis step

/-- Any request can be asked of a group at rest and is answered. -/
theorem answered (size generation : Nat) (manned : 0 < size) (traffic : Traffic)
    (last : Option Reaction)
    (reached : Relation.ReflTransGen Step (started registry size generation)
      (traffic, .done (last, firstGroup size generation))) (request : Request)
    (fair : ∀ stores, traffic.settled.AtRest (firstGroup size generation) stores →
      request.IsFair registry size stores) :
    ∃ reaction stores later after,
      traffic.settled.AtRest (firstGroup size generation) stores ∧
      request.Yields registry size stores reaction later ∧
      Traffic.Reaches (traffic, about request (firstGroup size generation))
        (after, .done (some reaction, firstGroup size generation)) ∧
      after.settled.AtRest (firstGroup size generation) later ∧
      Relation.ReflTransGen Step (started registry size generation)
        (after, .done (some reaction, firstGroup size generation)) := by
  obtain ⟨sound, answer, stores, fleet, ends, rests, same⟩ :=
    reached_inSync size generation manned _ reached
  obtain rfl := (Prod.mk.inj (Option.some.inj ends)).2
  obtain rfl : traffic.registry = registry := same
  obtain ⟨reaction, later, yields, runs⟩ :=
    about_runs manned rfl traffic.settled stores rests request (fair stores rests)
  obtain ⟨after, arrives, settles⟩ := Traffic.end_reached (traffic, about request _) _ _ sound runs
  have asked : Step (traffic, .done (last, firstGroup size generation)) (traffic, about request _) :=
    .ask _ _ _ _ fair
  refine ⟨reaction, stores, later, after, rests, yields, arrives,
    settles ▸ Fleet.atRest_rest rests.sized, (reached.tail asked).trans ?_⟩
  exact Relation.ReflTransGen.mono (fun before after => Step.go before after) _ _ arrives

/-- Whatever is asked of a group, one request after the other, and in whatever order coordinator and
workers go on: no state is stuck before the request at hand is answered, and it is answered after
finitely many steps. When it is, the workers wait for a command once they have taken what lies ahead
of them, and nothing they sent is unread; and the next request gets the answer it should get and
leaves the ranks with what they should store. -/
theorem exchange_in_sync (registry : Registry) (size generation : Nat) (manned : 0 < size)
    (exchange : Exchange)
    (reached : Relation.ReflTransGen Step (started registry size generation) exchange) :
    Acc (fun after before => Traffic.Step before after) exchange ∧
      ((∃ result, exchange.2 = .done result) ∨ ∃ after, Traffic.Step exchange after) ∧
      ∀ reaction group, exchange.2 = .done (reaction, group) →
        group = firstGroup size generation ∧
        ∃ stores, exchange.1.settled.AtRest group stores ∧
          ∀ request : Request, request.IsFair registry size stores →
            ∃ answer later, request.Yields registry size stores answer later ∧
              ∀ traffic result,
                Traffic.Reaches (exchange.1, about request group) (traffic, .done result) →
                result = (some answer, group) ∧ traffic.settled.AtRest group later := by
  obtain ⟨sound, last, stores, fleet, ends, rests, same⟩ :=
    reached_inSync size generation manned exchange reached
  refine ⟨Traffic.steps_finite _ _,
    Traffic.not_stuck _ _ sound (Option.isSome_iff_exists.mpr ⟨_, ends⟩), ?_⟩
  intro reaction group returned
  rw [returned] at ends
  obtain ⟨⟨-, rfl⟩, rfl⟩ := Prod.mk.inj (Option.some.inj ends) |>.imp_left Prod.mk.inj
  refine ⟨rfl, stores, rests, fun request fair => ?_⟩
  obtain ⟨answer, later, yields, runs⟩ :=
    about_runs manned rfl exchange.1.settled stores rests request (same ▸ fair)
  refine ⟨answer, later, same ▸ yields, fun traffic result arrived => ?_⟩
  obtain ⟨-, -, unique⟩ := Traffic.same_end _ _ _ _ sound runs _ arrived
  obtain ⟨rfl, settles⟩ := unique result rfl
  exact ⟨rfl, settles ▸ Fleet.atRest_rest rests.sized⟩

end Exchange

/-! Two workers, of which one may fail. -/

namespace Handing

/-- What a rank gives. -/
def part (rank : Nat) : Batch := { schema := { fields := [] }, columns := [], rows := rank + 1 }

/-- The failure of a rank. -/
def failure : Failure := { message := "out of luck" }

/-- Workers that know how to give a partition each, and how to fail on all ranks but rank zero. -/
def registry : Registry where
  bodies := [
    ("give", fun context _ _ => return .distributed (part context.rank)),
    ("falter", fun context _ _ =>
      if context.rank = 0 then return .replicated .null else throw (.failed failure))]

/-- How a call ends in which it is rank one that fails. -/
def faltered : CallEnd where
  arguments := {}
  outcome := .error { failure := RankFailure.someFailed [(RankFailure.ofFailure failure).onRank 1] }

/-- The two workers. -/
def group : Group := Exchange.firstGroup 2 1

/-- The call of a computation without arguments. -/
def request (call : CallId) (name : String) : Request :=
  .submit (fun _ => true) [] call { name } {}

variable {call : CallId} {stores later : Nat → ResultStore} {reaction : Reaction}
  {prepared : PreparedCall}

/-- Every rank gives its partition. -/
theorem outcome_give
    (ready : PreparedCall.prepare (fun _ => true) { name := "give" } {} = .ok prepared) (rank : Nat) :
    Request.outcome? registry 2 [] { name := "give" } {} prepared stores rank =
      some (.ok (.distributed (part rank)), stores rank) := by
  cases ready
  rfl

/-- Rank one fails, and rank zero does not. -/
theorem outcome_falter
    (ready : PreparedCall.prepare (fun _ => true) { name := "falter" } {} = .ok prepared)
    (rank : Nat) :
    Request.outcome? registry 2 [] { name := "falter" } {} prepared stores rank =
      some (if rank = 0 then .ok (.replicated .null) else .error failure, stores rank) := by
  cases ready
  cases rank <;> rfl

/-- There is nothing in the arguments to be out of order. -/
theorem ordered : CallArguments.IsOrdered {} :=
  ⟨fun _ member => absurd member List.not_mem_nil, fun _ member => absurd member List.not_mem_nil⟩

/-- All ranks give an output of one shape, so the request is fair. -/
theorem isFair_give : (request call "give").IsFair registry 2 stores := by
  refine ⟨ordered, fun prepared ready => ⟨_, _, fun rank _ => outcome_give ready rank, ?_⟩⟩
  rintro rank - other - output another ⟨⟩ ⟨⟩
  rfl

/-- Rank zero alone gives an output, so the request is fair. -/
theorem isFair_falter : (request call "falter").IsFair registry 2 stores := by
  refine ⟨ordered, fun prepared ready => ⟨_, _, fun rank _ => outcome_falter ready rank, ?_⟩⟩
  intro rank _ other _ output another given givenToo
  split at given <;> cases given
  split at givenToo <;> cases givenToo
  rfl

/-- The call is replied to with one result, of which every rank keeps its partition. -/
theorem yields_give (yields : (request call "give").Yields registry 2 stores reaction later) :
    ∃ ended reply, reaction = .ended ended ∧ ended.outcome = .ok reply ∧ reply.results.length = 1 ∧
      ∀ rank < 2, (later rank).find? (.ofOutput call 0) = some (part rank) := by
  cases yields with
  | refused _ _ _ _ _ _ unprepared => cases unprepared
  | failed _ _ _ _ _ prepared outcome _ _ ready answered some_failed combined =>
    obtain ⟨rank, inside, failure, failed⟩ := some_failed
    have given := (answered rank inside).symm.trans (outcome_give ready rank)
    rw [failed] at given
    cases given
  | replied _ _ _ _ _ prepared output between _ reply ready answered mirrors results keeps leaves =>
    have given (rank : Nat) (inside : rank < 2) : output rank = .distributed (part rank) := by
      have same := (answered rank inside).symm.trans (outcome_give ready rank)
      exact Except.ok.inj (Prod.mk.inj (Option.some.inj same)).1
    refine ⟨_, reply, rfl, rfl, ?_, fun rank inside => ?_⟩
    · rw [results, given 0 (by decide)]
      rfl
    · rw [keeps rank inside 0 (by rw [given 0 (by decide)]; decide), given rank inside]
      rfl

/-- The call fails with the failure of rank one, and no rank stores anything more than before. -/
theorem yields_falter (yields : (request call "falter").Yields registry 2 stores reaction later) :
    reaction = .ended faltered ∧ ∀ rank < 2, later rank = stores rank := by
  cases yields with
  | refused _ _ _ _ _ _ unprepared => cases unprepared
  | failed _ _ _ _ _ prepared outcome _ combinedFailure ready answered _ combined =>
    have each (rank : Nat) (inside : rank < 2) :=
      Prod.mk.inj (Option.some.inj ((answered rank inside).symm.trans (outcome_falter ready rank)))
    have told : Group.statuses 2 outcome = [none, some (.ofFailure failure)] := by
      show [Worker.reported (outcome 0), Worker.reported (outcome 1)] = _
      rw [(each 0 (by decide)).1, (each 1 (by decide)).1]
      rfl
    rw [told] at combined
    cases combined
    exact ⟨rfl, fun rank inside => (each rank inside).2⟩
  | replied _ _ _ _ _ prepared output between _ reply ready answered mirrors results keeps leaves =>
    have failed := (answered 1 (by decide)).symm.trans (outcome_falter ready 1)
    cases failed

end Handing

namespace Exchange

open Handing (group part request)

/-- A call that gives a partition on each of two ranks, and then one that fails on rank one: the
first is answered with one result, which both ranks store. In the middle of the second nothing goes
on for ever and nothing is stuck, and whichever way it goes, it ends with the failure of rank one
and with the ranks at rest, which store what they stored before. -/
theorem handing_in_sync : ∃ (given : Traffic) (ended : CallEnd) (reply : Reply)
    (kept : Nat → ResultStore),
    (∀ traffic result,
      Traffic.Reaches ((started Handing.registry 2 1).1, about (request ⟨0⟩ "give") group)
        (traffic, .done result) → result = (some (.ended ended), group)) ∧
    Traffic.Reaches ((started Handing.registry 2 1).1, about (request ⟨0⟩ "give") group)
      (given, .done (some (.ended ended), group)) ∧
    ended.outcome = .ok reply ∧ reply.results.length = 1 ∧ given.settled.AtRest group kept ∧
    (∀ rank < 2, (kept rank).find? (.ofOutput ⟨0⟩ 0) = some (part rank)) ∧
    Acc (fun after before => Traffic.Step before after) (given, about (request ⟨1⟩ "falter") group) ∧
    ((∃ result, about (request ⟨1⟩ "falter") group = .done result) ∨
      ∃ after, Traffic.Step (given, about (request ⟨1⟩ "falter") group) after) ∧
    ∃ stores, (∀ rank < 2, stores rank = kept rank) ∧
      ∀ traffic result,
        Traffic.Reaches (given, about (request ⟨1⟩ "falter") group) (traffic, .done result) →
        result = (some (.ended Handing.faltered), group) ∧ traffic.settled.AtRest group stores := by
  -- The first call, asked of workers that were just started.
  obtain ⟨-, -, first⟩ := exchange_in_sync Handing.registry 2 1 (by decide) _ .refl
  obtain ⟨-, _, -, answers⟩ := first _ _ rfl
  obtain ⟨answer, kept, yields, unique⟩ := answers (request ⟨0⟩ "give") Handing.isFair_give
  obtain ⟨ended, reply, rfl, replied, single, stored⟩ := Handing.yields_give yields
  obtain ⟨_, _, _, given, -, -, arrives, -, reached⟩ := answered 2 1 (by decide) _ none .refl
    (request ⟨0⟩ "give") fun _ _ => Handing.isFair_give
  obtain ⟨same, rests⟩ := unique given _ arrives
  cases same
  -- The second call, asked of them when the first is answered.
  obtain ⟨-, -, second⟩ := exchange_in_sync Handing.registry 2 1 (by decide) _ reached
  obtain ⟨-, stores, restsToo, answersToo⟩ := second _ _ rfl
  obtain ⟨answer, later, yields, uniqueToo⟩ := answersToo (request ⟨1⟩ "falter") Handing.isFair_falter
  obtain ⟨rfl, unchanged⟩ := Handing.yields_falter yields
  have registered : given.registry = Handing.registry := Traffic.registry_of_reaches arrives
  have asked := reached.tail (.ask given _ group (request ⟨1⟩ "falter") fun _ _ =>
    registered ▸ Handing.isFair_falter)
  obtain ⟨finite, moves, -⟩ := exchange_in_sync Handing.registry 2 1 (by decide) _ asked
  refine ⟨given, ended, reply, kept, fun traffic result arrived => (unique traffic result arrived).1,
    arrives, replied, single, rests, stored, finite, moves, later, fun rank inside => ?_, uniqueToo⟩
  exact (unchanged rank inside).trans (restsToo.unique rests rank inside)

end Exchange

end Rankwise
