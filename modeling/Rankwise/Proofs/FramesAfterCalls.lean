import Rankwise.Proofs.Exchanges

/-!
# Frames after calls

A computation may replace partitions that lie on the workers, so the coordinator asks after a call
what became of the results that the call named. The workers list these results while they receive
the arguments, the coordinator finds their frames by walking the arguments again, and the two lists
are matched by their order only. Every frame that the call refers to is meant to know the partitions
that are stored by then. Main statement (`Exchange.frames_in_sync`): after a call that went well
every frame among the arguments, at any depth of tuples, does know them, and nothing else has
changed in the arguments. That leaves a gap: both lists pass over the tables of a context, so a
frame among them misses what the call did to its partitions (`Exchange.context_out_of_date`).
-/

namespace Rankwise

/-- The frame brought up to date with what the ranks store: if every rank stores a partition of its
result, it knows the rows of these partitions by rank and the schema of that of rank zero, and else
it is as it was. -/
def Frame.synced (size : Nat) (stores : Nat → ResultStore) : Frame → Frame
  | .collected table => .collected table
  | .distributed partitioned handle =>
    match (List.range size).mapM fun rank => (stores rank).find? handle.id with
    | some partitions => .distributed { partitioned with
        schema := (partitions.head?.map Batch.schema).getD partitioned.schema
        partitionRows := partitions.map Batch.rows } handle
    | none => .distributed partitioned handle

namespace Argument

mutual

/-- The argument with the frames that are brought up to date with what the ranks store. The frames
among the tables of a context are not, though they name results that the ranks store as well. -/
def synced (size : Nat) (stores : Nat → ResultStore) : Argument → Argument
  | .frame found => .frame (found.synced size stores)
  | .tuple items => .tuple (syncedAll size stores items)
  | .value found => .value found
  | .context found => .context found

/-- The same of several arguments. -/
def syncedAll (size : Nat) (stores : Nat → ResultStore) : List Argument → List Argument
  | [] => []
  | item :: rest => synced size stores item :: syncedAll size stores rest

end

end Argument

/-- The arguments of a call with the frames that are brought up to date with what the ranks store.
-/
def CallArguments.synced (size : Nat) (stores : Nat → ResultStore) (arguments : CallArguments) :
    CallArguments where
  positional := arguments.positional.map (Argument.synced size stores)
  keyword := arguments.keyword.map fun entry => (entry.1, entry.2.synced size stores)

/-! What all ranks have. -/

section Everywhere

variable {α β γ : Type} {items : List α} {find : α → Option β}

/-- If something is found for every item, the list of all that is found is given. -/
theorem mapM_of_forall (found : α → β) (every : ∀ item ∈ items, find item = some (found item)) :
    items.mapM find = some (items.map found) := by
  induction items with
  | nil => rfl
  | cons item rest inductionHypothesis =>
    obtain ⟨here, others⟩ := List.forall_mem_cons.mp every
    rw [List.mapM_cons, here, inductionHypothesis others]
    rfl

/-- If nothing is found for some item, nothing is given. -/
theorem mapM_of_exists (missing : ∃ item ∈ items, find item = none) : items.mapM find = none := by
  induction items with
  | nil =>
    obtain ⟨item, member, -⟩ := missing
    exact absurd member List.not_mem_nil
  | cons first rest inductionHypothesis =>
    rw [List.mapM_cons]
    cases here : find first with
    | none => rfl
    | some value =>
      have later : ∃ item ∈ rest, find item = none := by
        obtain ⟨item, member, lost⟩ := missing
        rcases List.mem_cons.mp member with rfl | member
        · cases here.symm.trans lost
        · exact ⟨item, member, lost⟩
      rw [inductionHypothesis later]
      rfl

/-- What is found everywhere may be described before or after it is put together. -/
theorem mapM_describe (describe : β → γ) :
    ((items.map fun item => (find item).map describe).mapM fun found => found) =
      (items.mapM find).map (List.map describe) := by
  induction items with
  | nil => rfl
  | cons item rest inductionHypothesis =>
    rw [List.map_cons, List.mapM_cons, List.mapM_cons, inductionHypothesis]
    cases find item with
    | none => rfl
    | some value =>
      cases rest.mapM find with
      | none => rfl
      | some values => rfl

end Everywhere

namespace Frame

variable {size : Nat} {stores : Nat → ResultStore} {partitioned : Partitioned} {handle : Handle}

/-- What the frame knows if every rank stores a partition of its result. -/
theorem synced_of_stored (manned : 0 < size) (partition : Nat → Batch)
    (stored : ∀ rank < size, (stores rank).find? handle.id = some (partition rank)) :
    (distributed partitioned handle).synced size stores = distributed { partitioned with
      schema := (partition 0).schema
      partitionRows := (List.range size).map fun rank => (partition rank).rows } handle := by
  obtain ⟨others, rfl⟩ := Nat.exists_eq_succ_of_ne_zero (Nat.pos_iff_ne_zero.mp manned)
  rw [synced, mapM_of_forall partition fun rank member => stored rank (List.mem_range.mp member)]
  simp [List.range_succ_eq_map, Function.comp_def]

/-- The frame knows what it knew if some rank stores no partition of its result. -/
theorem synced_of_missing (missing : ∃ rank < size, (stores rank).find? handle.id = none) :
    (distributed partitioned handle).synced size stores = distributed partitioned handle := by
  obtain ⟨rank, inside, lost⟩ := missing
  rw [synced, mapM_of_exists ⟨rank, List.mem_range.mpr inside, lost⟩]

/-- What the ranks report about the result of a frame makes of the frame what it should be. -/
theorem updated_reported (size : Nat) (stores : Nat → ResultStore) (partitioned : Partitioned)
    (handle : Handle) :
    (((List.range size).map fun rank => ((stores rank).find? handle.id).map PartitionMeta.ofBatch).mapM
      fun found => found).elim (distributed partitioned handle)
        (distributed partitioned handle).updated =
      (distributed partitioned handle).synced size stores := by
  rw [mapM_describe, synced]
  cases (List.range size).mapM fun rank => (stores rank).find? handle.id with
  | none => rfl
  | some partitions => simp [updated, Partitioned.updated, PartitionMeta.ofBatch, Function.comp_def]

end Frame

namespace Shipment

variable (size : Nat) (stores : Nat → ResultStore)

mutual

/-- The walk along an argument takes as many reports as the argument names results, and each frame
gets the report on its own result. -/
theorem updated_shipment (replicated : Bool) (argument : Argument) (rest : Updates) :
    (updated argument (argument.shipment replicated)).run
        (Group.updates size stores argument.named ++ rest) =
      (argument.synced size stores, rest) := by
  cases argument with
  | value value =>
    cases value.shipment replicated <;> rfl
  | frame frame =>
    cases frame with
    | collected table => cases replicated <;> rfl
    | distributed partitioned handle =>
      exact congrArg (fun frame => (Argument.frame frame, rest))
        (Frame.updated_reported size stores partitioned handle)
  | tuple items =>
    have walked := updatedAll_shipments replicated items rest
    exact congrArg (fun reached => (Argument.tuple reached.1, reached.2)) walked
  | context context =>
    rw [Argument.shipment]
    split <;> rfl

/-- The frames among several arguments take what the ranks have said about them, one after the
other, and leave the rest. -/
theorem updatedAll_shipments (replicated : Bool) (items : List Argument) (rest : Updates) :
    (updatedAll items (Argument.shipments replicated items)).run
        (Group.updates size stores (Argument.namedIn items) ++ rest) =
      (Argument.syncedAll size stores items, rest) := by
  cases items with
  | nil => rfl
  | cons item others =>
    have first := updated_shipment replicated item
      (Group.updates size stores (Argument.namedIn others) ++ rest)
    have second := updatedAll_shipments replicated others rest
    have split : Group.updates size stores (Argument.namedIn (item :: others)) =
        Group.updates size stores item.named ++ Group.updates size stores (Argument.namedIn others) :=
      List.map_append
    rw [split, List.append_assoc, Argument.shipments, updatedAll, StateT.run_bind, first]
    show StateT.run _ (_ : Updates) = _
    rw [StateT.run_bind, second]
    rfl

end

end Shipment

namespace PreparedCall

variable (size : Nat) (stores : Nat → ResultStore)

/-- The frames among the positional arguments take what the ranks have said about them and leave the
rest. -/
theorem updated_positional (flagged : List (Bool × Argument)) (rest : Shipment.Updates) :
    ((flagged.map fun entry => (entry.2, entry.2.shipment entry.1)).mapM fun shipped =>
        Shipment.updated shipped.1 shipped.2).run
      (Group.updates size stores (flagged.flatMap fun entry => entry.2.named) ++ rest) =
        (flagged.map fun entry => entry.2.synced size stores, rest) := by
  induction flagged with
  | nil => rfl
  | cons entry others inductionHypothesis =>
    have first := Shipment.updated_shipment size stores entry.1 entry.2
      (Group.updates size stores (others.flatMap fun entry => entry.2.named) ++ rest)
    have split : Group.updates size stores ((entry :: others).flatMap fun entry => entry.2.named) =
        Group.updates size stores entry.2.named ++
          Group.updates size stores (others.flatMap fun entry => entry.2.named) :=
      List.map_append
    rw [split, List.append_assoc, List.map_cons, List.mapM_cons, StateT.run_bind, first]
    show StateT.run _ (_ : Shipment.Updates) = _
    rw [StateT.run_bind, inductionHypothesis]
    rfl

/-- The frames among the named arguments take what the ranks have said about them and leave the
rest. -/
theorem updated_keyword (flagged : List (String × Bool × Argument)) (rest : Shipment.Updates) :
    ((flagged.map fun entry => (entry.1, entry.2.2, entry.2.2.shipment entry.2.1)).mapM
        updatedEntry).run
      (Group.updates size stores (flagged.flatMap fun entry => entry.2.2.named) ++ rest) =
        (flagged.map fun entry => (entry.1, entry.2.2.synced size stores), rest) := by
  induction flagged with
  | nil => rfl
  | cons entry others inductionHypothesis =>
    have first : (updatedEntry (entry.1, entry.2.2, entry.2.2.shipment entry.2.1)).run
        (Group.updates size stores entry.2.2.named ++
          (Group.updates size stores (others.flatMap fun entry => entry.2.2.named) ++ rest)) =
        ((entry.1, entry.2.2.synced size stores), _) :=
      congrArg (fun reached : Argument × Shipment.Updates => ((entry.1, reached.1), reached.2))
        (Shipment.updated_shipment size stores entry.2.1 entry.2.2 _)
    have split : Group.updates size stores ((entry :: others).flatMap fun entry => entry.2.2.named) =
        Group.updates size stores entry.2.2.named ++
          Group.updates size stores (others.flatMap fun entry => entry.2.2.named) :=
      List.map_append
    rw [split, List.append_assoc, List.map_cons, List.mapM_cons, StateT.run_bind, first]
    show StateT.run _ (_ : Shipment.Updates) = _
    rw [StateT.run_bind, inductionHypothesis]
    rfl

/-- What the ranks report makes of the arguments of a call what they should be. -/
theorem updated_reported {computation : Computation} {arguments : CallArguments}
    {prepared : PreparedCall} (fits : prepared.Fits computation arguments) :
    prepared.updated (Group.updates size stores arguments.named) = arguments.synced size stores := by
  have split : Group.updates size stores arguments.named =
      Group.updates size stores ((arguments.flagged computation).flatMap fun entry => entry.2.named) ++
        (Group.updates size stores
          ((arguments.flaggedKeyword computation).flatMap fun entry => entry.2.2.named) ++ []) := by
    rw [arguments.flatMap_flagged computation Argument.named,
      arguments.flatMap_flaggedKeyword computation Argument.named, List.append_nil]
    exact List.map_append
  have positional := updated_positional size stores (arguments.flagged computation)
    (Group.updates size stores
      ((arguments.flaggedKeyword computation).flatMap fun entry => entry.2.2.named) ++ [])
  have keyword := updated_keyword size stores (arguments.flaggedKeyword computation) []
  unfold updated
  simp only [fits.positional, fits.keyword, split, positional, keyword, CallArguments.synced]
  congr 1
  · rw [← arguments.flagged_arguments computation, List.map_map]
    rfl
  · rw [← arguments.flaggedKeyword_arguments computation, List.map_map]
    rfl

end PreparedCall

namespace Request

/-- A call that goes well leaves the arguments as they should be when the ranks store what they
store then, and any other call leaves them as they were. -/
theorem Yields.arguments {registry : Registry} {size : Nat} {stores later : Nat → ResultStore}
    {isLive : Handle → Bool} {surroundings : List (String × String)} {call : CallId}
    {computation : Computation} {arguments : CallArguments} {reaction : Reaction}
    (yields : Yields registry size stores
      (submit isLive surroundings call computation arguments) reaction later) :
    ∃ ended, reaction = .ended ended ∧
      ((∃ reply, ended.outcome = .ok reply) → ended.arguments = arguments.synced size later) ∧
      ((∃ abandoned, ended.outcome = .error abandoned) → ended.arguments = arguments) := by
  cases yields with
  | refused _ _ _ _ _ failure unprepared =>
    refine ⟨_, rfl, ?_, fun _ => rfl⟩
    rintro ⟨reply, wrong⟩
    cases wrong
  | failed _ _ _ _ _ prepared outcome _ failure ready answered some_failed combined =>
    refine ⟨_, rfl, ?_, fun _ => rfl⟩
    rintro ⟨reply, wrong⟩
    cases wrong
  | replied _ _ _ _ _ prepared output between _ reply ready answered mirrors results keeps leaves =>
    refine ⟨_, rfl, fun _ => ?_, ?_⟩
    · exact PreparedCall.updated_reported size later
        (PreparedCall.prepare_ok isLive computation arguments prepared ready)
    · rintro ⟨abandoned, wrong⟩
      cases wrong

end Request

namespace Exchange

/-- Whatever was asked of a group before, and in whatever order coordinator and workers go on: a
call that goes well brings every frame outside of contexts up to date with what the ranks store at
its end, and changes nothing else in the arguments, which leaves frames among the tables of a
context behind. A call that fails leaves the arguments as they were. -/
theorem frames_in_sync (registry : Registry) (size generation : Nat) (manned : 0 < size)
    (exchange : Exchange)
    (reached : Relation.ReflTransGen Step (started registry size generation) exchange)
    (last : Option Reaction) (group : Group) (idle : exchange.2 = .done (last, group))
    (isLive : Handle → Bool) (surroundings : List (String × String)) (call : CallId)
    (computation : Computation) (arguments : CallArguments)
    (fair : ∀ stores, exchange.1.settled.AtRest group stores →
      (Request.submit isLive surroundings call computation arguments).IsFair registry size stores)
    (traffic : Traffic) (result : Option Reaction × Group)
    (returned : Traffic.Reaches
      (exchange.1, about (.submit isLive surroundings call computation arguments) group)
      (traffic, .done result)) :
    ∃ ended stores, result = (some (.ended ended), group) ∧ traffic.settled.AtRest group stores ∧
      ((∃ reply, ended.outcome = .ok reply) → ended.arguments = arguments.synced size stores) ∧
      ((∃ abandoned, ended.outcome = .error abandoned) → ended.arguments = arguments) := by
  obtain ⟨sound, answer, stores, fleet, ends, rests, same⟩ :=
    reached_inSync size generation manned exchange reached
  rw [idle] at ends
  obtain ⟨⟨-, rfl⟩, rfl⟩ := Prod.mk.inj (Option.some.inj ends) |>.imp_left Prod.mk.inj
  obtain ⟨reaction, later, yields, runs⟩ :=
    about_runs manned rfl exchange.1.settled stores rests _ (same ▸ fair stores rests)
  obtain ⟨-, -, unique⟩ := Traffic.same_end _ _ _ _ sound runs _ returned
  obtain ⟨rfl, settles⟩ := unique result rfl
  obtain ⟨ended, rfl, well, failed⟩ := yields.arguments
  exact ⟨ended, later, rfl, settles ▸ Fleet.atRest_rest rests.sized, well, failed⟩

end Exchange

/-! A computation that changes what is stored, in place. -/

/-- What a growing result becomes: it has one row more than before. -/
def ResultStore.grown (store : ResultStore) : Batch where
  schema := { fields := [] }
  columns := []
  rows := ((store.find? ⟨"growing"⟩).map Batch.rows).getD 0 + 1

/-- Lets a result grow where it is stored, and gives nothing. -/
def Body.growing : Body := fun _ _ _ => do
  modify fun store : ResultStore => store.put ⟨"growing"⟩ store.grown
  return .replicated .null

namespace Growing

/-- Workers that know the computation. -/
def registry : Registry where
  bodies := [("growing", .growing)]

/-- The computation. -/
def computation : Computation := { name := "growing" }

/-- The frame for the result, as it was when it had this many rows on either rank. -/
def frame (rows : Nat) : Frame :=
  .distributed { id := ⟨"growing"⟩, schema := { fields := [] }, partitionRows := [rows, rows] }
    { key := 0, id := ⟨"growing"⟩, generation := 1, owner := ⟨0⟩ }

/-- The frame in a tuple. -/
def nested (rows : Nat) : CallArguments where
  positional := [.tuple [.frame (frame rows)]]

/-- The frame as a table of a context. -/
def within (rows : Nat) : CallArguments where
  keyword := [("context", .context { tables := [("table", .frame (frame rows))] })]

/-- The call of the computation. -/
def request (arguments : CallArguments) : Request :=
  .submit (fun _ => true) [] ⟨0⟩ computation arguments

/-- The two workers. -/
def group : Group := Exchange.firstGroup 2 1

/-- A call with the arguments can be sent and names the growing result at most. -/
structure Suits (arguments : CallArguments) : Prop where
  ordered : arguments.IsOrdered
  ready : ∃ prepared, PreparedCall.prepare (fun _ => true) computation arguments = .ok prepared
  names : ∀ id ∈ arguments.mentioned, id = ⟨"growing"⟩

/-- A call without arguments can be sent. -/
theorem suits_nothing : Suits {} where
  ordered := ⟨fun _ member => absurd member List.not_mem_nil,
    fun _ member => absurd member List.not_mem_nil⟩
  ready := ⟨_, rfl⟩
  names _ member := absurd member List.not_mem_nil

/-- A call with the frame in a tuple can be sent. -/
theorem suits_nested (rows : Nat) : Suits (nested rows) where
  ordered := by
    refine ⟨fun argument member => ?_, fun _ member => absurd member List.not_mem_nil⟩
    rw [List.mem_singleton.mp member]
    exact ⟨trivial, trivial⟩
  ready := ⟨_, rfl⟩
  names id member := List.mem_singleton.mp member

/-- A call with the frame as a table of a context can be sent. -/
theorem suits_within (rows : Nat) : Suits (within rows) where
  ordered := by
    refine ⟨fun _ member => absurd member List.not_mem_nil, fun entry member => ?_⟩
    rw [List.mem_singleton.mp member]
    exact List.pairwise_singleton _ _
  ready := ⟨_, rfl⟩
  names id member := List.mem_singleton.mp member

section Calls

variable {arguments : CallArguments} (suits : Suits arguments) {stores : Nat → ResultStore}
  (present : arguments.mentioned = [] ∨
    ∀ rank < group.size, ((stores rank).find? ⟨"growing"⟩).isSome)

include suits present

/-- The result grows on every rank. -/
theorem outcome_grown (prepared : PreparedCall)
    (ready : PreparedCall.prepare (fun _ => true) computation arguments = .ok prepared)
    (rank : Nat) (inside : rank < group.size) :
    Request.outcome? registry group.size [] computation arguments prepared stores rank =
      some (.ok (.replicated .null),
        (stores rank).put ⟨"growing"⟩ (stores rank).grown) := by
  have found : Worker.missingOf rank (stores rank) arguments.mentioned = none := by
    rw [Worker.missingOf, Option.map_eq_none_iff, List.find?_eq_none]
    intro id member
    rcases present with nothing | stored
    · rw [nothing] at member
      cases member
    · rw [suits.names id member, Bool.not_eq_true, Option.isNone_eq_false_iff]
      exact stored rank inside
  have named := (PreparedCall.prepare_ok _ _ _ _ ready).name
  unfold Request.outcome? Worker.answer?
  rw [found, named]
  rfl

/-- The computation gives the same on both ranks. -/
theorem isFair : (request arguments).IsFair registry group.size stores := by
  refine ⟨suits.ordered, fun prepared ready => ⟨fun _ => .ok (.replicated .null), _,
    fun rank inside => outcome_grown suits present prepared ready rank inside, ?_⟩⟩
  rintro rank - other - output another ⟨⟩ ⟨⟩
  rfl

/-- The call goes well, and every rank stores the grown result. -/
theorem yields_grown {reaction : Reaction} {later : Nat → ResultStore}
    (yields : (request arguments).Yields registry group.size stores reaction later) :
    ∃ ended, reaction = .ended ended ∧ (∃ reply, ended.outcome = .ok reply) ∧
      ended.arguments = arguments.synced group.size later ∧
      ∀ rank < group.size, (later rank).find? ⟨"growing"⟩ = some (stores rank).grown := by
  obtain ⟨ended, rfl, well, -⟩ := yields.arguments
  suffices (∃ reply, ended.outcome = .ok reply) ∧
      ∀ rank < group.size, (later rank).find? ⟨"growing"⟩ = some (stores rank).grown from
    ⟨ended, rfl, this.1, well this.1, this.2⟩
  cases yields with
  | refused _ _ _ _ _ failure unprepared =>
    obtain ⟨prepared, ready⟩ := suits.ready
    cases ready.symm.trans unprepared
  | failed _ _ _ _ _ prepared outcome _ failure ready answered some_failed combined =>
    obtain ⟨rank, inside, failure, failed⟩ := some_failed
    have grown := outcome_grown suits present prepared ready rank inside
    rw [answered rank inside, failed] at grown
    cases grown
  | replied _ _ _ _ _ prepared output between _ reply ready answered mirrors results keeps leaves =>
    have same (rank : Nat) (inside : rank < group.size) :=
      Prod.mk.inj (Option.some.inj ((answered rank inside).symm.trans
        (outcome_grown suits present prepared ready rank inside)))
    have noPartitions : (output 0).partitions = [] := by
      rw [Except.ok.inj (same 0 (by decide)).1]
      rfl
    refine ⟨⟨reply, rfl⟩, fun rank inside => ?_⟩
    rw [leaves rank inside ⟨"growing"⟩ fun leaf bound => absurd bound (by simp [noPartitions]),
      (same rank inside).2, ResultStore.find?_put, if_pos rfl]

end Calls

/-- After one call for the result itself, a further call can be made with frames for it. -/
theorem called {arguments : CallArguments} (suits : Suits arguments) :
    ∃ last traffic after ended stores,
      Relation.ReflTransGen Exchange.Step (Exchange.started registry 2 1)
        (traffic, .done (last, group)) ∧
      (∀ stores, traffic.settled.AtRest group stores →
        (request arguments).IsFair registry group.size stores) ∧
      Traffic.Reaches (traffic, Exchange.about (request arguments) group)
        (after, .done (some (.ended ended), group)) ∧
      (∃ reply, ended.outcome = .ok reply) ∧
      ended.arguments = arguments.synced group.size stores ∧
      after.settled.AtRest group stores ∧
      ∀ rank < group.size, (stores rank).find? ⟨"growing"⟩ =
        some { schema := { fields := [] }, columns := [], rows := 2 } := by
  obtain ⟨reaction, blank, between, traffic, rests, yields, -, rested, reached⟩ :=
    Exchange.answered 2 1 (by decide) _ none .refl (request {}) fun _ _ =>
      isFair suits_nothing (.inl rfl)
  obtain ⟨-, -, -, -, once⟩ := yields_grown suits_nothing (.inl rfl) yields
  have oneRow (rank : Nat) (inside : rank < group.size) :
      (between rank).find? ⟨"growing"⟩ = some (ResultStore.grown []) :=
    (once rank inside).trans (congrArg (fun store => some (ResultStore.grown store))
      (rests.unique (Exchange.started_atRest registry 2 1) rank inside))
  have fair (stores : Nat → ResultStore) (rests : traffic.settled.AtRest group stores) :
      (request arguments).IsFair registry group.size stores :=
    isFair suits (.inr fun rank inside => by
      rw [rests.unique rested rank inside, oneRow rank inside]
      rfl)
  obtain ⟨answer, same, stores, after, rests, yields, arrives, last, -⟩ :=
    Exchange.answered 2 1 (by decide) traffic (some reaction) reached (request arguments) fair
  have stored (rank : Nat) (inside : rank < group.size) :
      (same rank).find? ⟨"growing"⟩ = some (ResultStore.grown []) :=
    (congrArg _ (rests.unique rested rank inside)).trans (oneRow rank inside)
  obtain ⟨ended, rfl, well, synced, twice⟩ := yields_grown suits
    (.inr fun rank inside => by rw [stored rank inside]; rfl) yields
  refine ⟨_, traffic, after, ended, stores, reached, fair, arrives, well, synced, last, ?_⟩
  intro rank inside
  rw [twice rank inside, ResultStore.grown, stored rank inside]
  rfl

/-- The grown result, as it lies on either rank. -/
theorem synced_nested (rows : Nat) {stores : Nat → ResultStore}
    (stored : ∀ rank < group.size, (stores rank).find? ⟨"growing"⟩ =
      some { schema := { fields := [] }, columns := [], rows := 2 }) :
    (nested rows).synced group.size stores = nested 2 := by
  have manned : 0 < group.size := Nat.two_pos
  have found : (frame rows).synced group.size stores = frame 2 := by
    rw [frame, Frame.synced_of_stored manned (fun _ => { schema := { }, columns := [], rows := 2 })
      stored]
    rfl
  simp [nested, CallArguments.synced, Argument.synced, Argument.syncedAll, found]

end Growing

namespace Exchange

/-- A frame in a tuple follows the growth of its result from one row to two. -/
theorem growing_in_sync : ∃ last traffic after ended reply,
    Relation.ReflTransGen Step (started Growing.registry 2 1) (traffic, .done (last, Growing.group)) ∧
      Traffic.Reaches (traffic, about (Growing.request (Growing.nested 1)) Growing.group)
        (after, .done (some (.ended ended), Growing.group)) ∧
      ended.outcome = .ok reply ∧ ended.arguments = Growing.nested 2 := by
  obtain ⟨last, traffic, after, ended, stores, reached, fair, arrives, ⟨reply, well⟩, -, rests, twice⟩ :=
    Growing.called (Growing.suits_nested 1)
  refine ⟨last, traffic, after, ended, reply, reached, arrives, well, ?_⟩
  obtain ⟨same, others, answered, restsToo, synced, -⟩ := frames_in_sync Growing.registry 2 1
    (by decide) (traffic, .done (last, Growing.group)) reached last Growing.group rfl (fun _ => true) []
    ⟨0⟩ Growing.computation (Growing.nested 1) fair after (some (.ended ended), Growing.group) arrives
  obtain rfl := Reaction.ended.inj (Option.some.inj (Prod.mk.inj answered).1)
  refine (synced ⟨reply, well⟩).trans (Growing.synced_nested 1 fun rank inside => ?_)
  rw [← rests.unique restsToo rank inside]
  exact twice rank inside

/-- A frame among the tables of a context falls behind: the ranks store two rows each after the
call, and the frame knows of one. -/
theorem context_out_of_date : ∃ last traffic after ended reply stores,
    Relation.ReflTransGen Step (started Growing.registry 2 1) (traffic, .done (last, Growing.group)) ∧
      Traffic.Reaches (traffic, about (Growing.request (Growing.within 1)) Growing.group)
        (after, .done (some (.ended ended), Growing.group)) ∧
      ended.outcome = .ok reply ∧ after.settled.AtRest Growing.group stores ∧
      (∀ rank < Growing.group.size, (stores rank).find? ⟨"growing"⟩ =
        some { schema := { fields := [] }, columns := [], rows := 2 }) ∧
      ended.arguments = Growing.within 1 := by
  obtain ⟨last, traffic, after, ended, stores, reached, -, arrives, ⟨reply, well⟩, synced, rests,
    twice⟩ := Growing.called (Growing.suits_within 1)
  exact ⟨last, traffic, after, ended, reply, stores, reached, arrives, well, rests, twice, synced⟩

end Exchange

end Rankwise
