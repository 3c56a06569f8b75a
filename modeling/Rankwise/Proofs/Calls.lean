import Rankwise.Proofs.Replies

/-!
# Calls to a group at rest

A group is at rest when all its workers wait for a command and nothing is unread. A call to a group
at rest leaves it at rest: `tells_submit_failed` and `tells_submit_ok` say with which answer and
with what in the stores, if no rank fails and if some rank does. The same is said about fetching a
result and about forgetting one.
-/

namespace Rankwise

namespace Fleet

/-- The worker of a rank. -/
def worker (fleet : Fleet) (size rank : Nat) : Worker := { rank, size, registry := fleet.registry }

/-- The fleet in which all workers of a group wait for a command, with the given stores, and nothing
is unread. -/
def rest (fleet : Fleet) (group : Group) (stores : Nat → ResultStore) : Fleet :=
  fleet.place group.link fun rank => .atRest (fleet.worker group.size rank) (stores rank)

end Fleet

/-- With workers that act at once, the talk comes to this value and leaves this fleet. The group is
the same as before. -/
def Tells {α : Type} (talk : StateT Group Dialogue α) (group : Group) (fleet : Fleet) (value : α)
    (later : Fleet) : Prop :=
  (talk.run group).run Fleet.outside fleet = some ((value, group), later)

namespace Tells

variable {α β : Type} {talk : StateT Group Dialogue α} {continuation : α → StateT Group Dialogue β}
  {group : Group} {fleet middle later : Fleet} {value : α} {result : β}

/-- To give a value tells the workers nothing. -/
theorem pure (value : α) (group : Group) (fleet : Fleet) :
    Tells (Pure.pure value) group fleet value fleet := rfl

/-- Two talks that go well one after the other go well as one. -/
theorem bind (first : Tells talk group fleet value middle)
    (second : Tells (continuation value) group middle result later) :
    Tells (talk >>= continuation) group fleet result later := by
  have whole := Dialogue.run_bind Fleet.outside (talk.run group)
    (fun reached => continuation reached.1 reached.2) fleet
  rw [first] at whole
  exact whole.trans second

/-- The same with the fleet written in another way. -/
theorem placed {last : Fleet} (tells : Tells talk group fleet value later) (same : later = last) :
    Tells talk group fleet value last := same ▸ tells

/-- What talk with failures says is told with its failures. -/
theorem ofSays {ε : Type} {talk : ExceptT ε (StateT Group Dialogue) α} {answer : Except ε α}
    (spoken : Says talk group fleet answer later) : Tells talk.run group fleet answer later :=
  spoken

end Tells

namespace Worker

/-- What a rank reports of an outcome. -/
def reported (outcome : Except Failure Output) : Option RankFailure :=
  match outcome with
  | .ok _ => none
  | .error failure => some (.ofFailure failure)

/-- A worker in the middle of a call, waiting for the word to go on. -/
def concluding (worker : Worker) (call : CallId) (named : List ResultId)
    (outcome : Except Failure Output) (store : ResultStore) (unread : List Message) : Line where
  worker
  station := (Station.settled worker ((worker.conclude call named outcome).run.run store)).2
  unread

variable (worker : Worker) (call : CallId) (named : List ResultId)

/-- What is handed to a worker in a call, up to the word to go on. -/
def messages (worker : Worker) (call : CallId) (environment : Named String)
    (computation : Computation) (arguments : CallArguments) (prepared : PreparedCall) :
    List Message :=
  .command .execute :: .environment environment :: prepared.skeletons ::
    (arguments.parcels computation worker.size worker.rank ++
      [.computation prepared.computation call])

/-- What a waiting worker makes of the messages of a call, up to the word of the coordinator. -/
theorem deliverAll_call (environment : Named String) (computation : Computation)
    (arguments : CallArguments) (prepared : PreparedCall)
    (fits : prepared.Fits computation arguments) (ordered : arguments.IsOrdered)
    (store later : ResultStore) (outcome : Except Failure Output)
    (answered : worker.answer? prepared.computation environment arguments.mentioned
      (arguments.portion computation worker.size worker.rank store) store = some (outcome, later)) :
    (Line.atRest worker store).deliverAll
        (worker.messages call environment computation arguments prepared) =
      worker.concluding call arguments.named outcome later
        [.completed, .status (reported outcome)] := by
  obtain ⟨positional, keyword, same, taken⟩ :=
    takes_prepared computation arguments prepared fits ordered
  have leads := worker.leads_call environment positional keyword _ prepared.computation call _ _
    store later outcome (taken worker store)
    (by simpa only [answer?, Intake.after, Option.none_or] using answered)
  have delivered := Station.deliverAll_leads worker store _ _ _ _ leads
  simp only [messages, Line.deliverAll, Line.atRest, same, delivered, concluding]
  rfl

/-- A worker whose computation gives nothing does not answer. -/
theorem deliverAll_call_silent (environment : Named String) (computation : Computation)
    (arguments : CallArguments) (prepared : PreparedCall)
    (fits : prepared.Fits computation arguments) (ordered : arguments.IsOrdered)
    (store : ResultStore)
    (unanswered : worker.answer? prepared.computation environment arguments.mentioned
      (arguments.portion computation worker.size worker.rank store) store = none) :
    ((Line.atRest worker store).deliverAll
      (worker.messages call environment computation arguments prepared)).unread = [] := by
  obtain ⟨positional, keyword, same, taken⟩ :=
    takes_prepared computation arguments prepared fits ordered
  have leads := worker.leads_compute environment positional keyword _ prepared.computation call _ _
    store (taken worker store)
  have delivered := Station.deliverAll_leads worker store _ _ _ _ leads
  unfold answer? at unanswered
  split at unanswered
  case h_1 => cases unanswered
  case h_2 present =>
    have complete : (Intake.after {} worker.rank store arguments.mentioned
        arguments.named).missing = none := by
      simpa only [Intake.after, Option.none_or] using present
    obtain ⟨how, silent⟩ := worker.settled_silent environment prepared.computation call _ _ store
      complete unanswered
    simp only [messages, Line.deliverAll, Line.atRest, same, delivered, silent, List.append_nil]

/-- What a waiting worker makes of a command that it carries out without another wait. -/
theorem deliver_served (command : Command) (message : Message) (output : List Message)
    (store later : ResultStore)
    (serves : Serves (worker.obey (.ok (.command command))) store [message] output () later) :
    ((Line.atRest worker store).deliver (.command command)).deliver message =
      { Line.atRest worker later with unread := output } := by
  have delivered := Station.deliverAll_leads worker store (.command command) [message] output _
    serves
  rw [← Line.deliverAll_singleton, ← Line.deliverAll_singleton, ← Line.deliverAll_append]
  rw [Station.settled_done, List.append_nil] at delivered
  simp only [Line.deliverAll, Line.atRest, List.cons_append, List.nil_append, delivered]

/-- What a worker makes of the word to go on, or not to. -/
theorem deliver_proceed (outcome : Except Failure Output) (store later : ResultStore)
    (goOn : Bool) (output : List Message)
    (serves : Serves (worker.conclude call named outcome) store [.proceed goOn] output () later) :
    (worker.concluding call named outcome store []).deliver (.proceed goOn) =
      { Line.atRest worker later with unread := output } := by
  obtain ⟨sent, stands⟩ := Station.settled_leads worker _ _ _ _ serves
  have nothing : (Station.settled worker
      ((worker.conclude call named outcome).run.run store)).1 = [] := rfl
  rw [nothing, List.nil_append, Station.settled_done, List.append_nil] at sent
  rw [Station.settled_done] at stands
  rw [← Line.deliverAll_singleton]
  simp only [Line.deliverAll, concluding, Line.atRest, sent, stands, List.nil_append]

end Worker

namespace Group

variable (group : Group) (fleet : Fleet) (sized : fleet.size group.link = group.size)
  (manned : 0 < group.size)

/-- A call, as it is prepared and as it goes on every rank. -/
structure Going (computation : Computation) (arguments : CallArguments) (prepared : PreparedCall)
    (environment : Named String) (stores : Nat → ResultStore)
    (outcome : Nat → Except Failure Output) (later : Nat → ResultStore) : Prop where
  fits : prepared.Fits computation arguments
  ordered : arguments.IsOrdered
  answered : ∀ rank < group.size,
    (fleet.worker group.size rank).answer? prepared.computation environment arguments.mentioned
      (arguments.portion computation group.size rank (stores rank)) (stores rank) =
        some (outcome rank, later rank)

variable {group fleet} {computation : Computation} {arguments : CallArguments}
  {prepared : PreparedCall} {environment : Named String} {stores : Nat → ResultStore}
  {outcome : Nat → Except Failure Output} {later : Nat → ResultStore}

/-- The part of a call in which the ranks are given what they need. -/
def give (prepared : PreparedCall) (environment : Named String) (call : CallId) : Talk Unit := do
  broadcast (.command .execute)
  broadcast (.environment environment)
  broadcast prepared.skeletons
  prepared.positional.forM fun (argument, shipment) => sendData argument shipment
  prepared.keyword.forM fun (_, argument, shipment) => sendData argument shipment
  broadcast (.computation prepared.computation call)

include sized manned in
/-- Every worker is given the messages of the call. -/
theorem says_given (call : CallId) (fits : prepared.Fits computation arguments)
    (ordered : arguments.IsOrdered) :
    Says (give prepared environment call) group (fleet.rest group stores) (.ok ())
      (fleet.place group.link fun rank =>
        (Line.atRest (fleet.worker group.size rank) (stores rank)).deliverAll
          ((fleet.worker group.size rank).messages call environment computation arguments
            prepared)) := by
  have hands := Hands.bind (hands_broadcast group fleet sized (.command .execute)) <|
    Hands.bind (hands_broadcast group fleet sized (.environment environment)) <|
    Hands.bind (hands_broadcast group fleet sized prepared.skeletons) <|
    Hands.bind (hands_prepared group fleet sized manned computation arguments prepared fits
      ordered)
    (hands_broadcast group fleet sized (.computation prepared.computation call))
  have given := hands fun rank => .atRest (fleet.worker group.size rank) (stores rank)
  simp only [bind_assoc] at given
  exact given

include sized manned in
/-- When a call was given, every rank has run it and has said how it went. -/
theorem says_give (call : CallId)
    (going : Going group fleet computation arguments prepared environment stores outcome later) :
    Says (give prepared environment call) group (fleet.rest group stores) (.ok ())
      (fleet.place group.link fun rank => (fleet.worker group.size rank).concluding call
        arguments.named (outcome rank) (later rank)
        [.completed, .status (Worker.reported (outcome rank))]) := by
  refine (says_given sized manned call going.fits going.ordered).placed
    (Fleet.place_congr _ _ _ _ fun rank inside => ?_)
  exact (fleet.worker group.size rank).deliverAll_call call environment computation arguments
    prepared going.fits going.ordered (stores rank) (later rank) (outcome rank)
    (going.answered rank (sized ▸ inside))

/-- A group that can be used passes the check for it. -/
theorem says_ensureUsable (group : Group) (fleet : Fleet) (usable : group.isUnusable = false) :
    Says ensureUsable group fleet (.ok ()) fleet := by
  refine Says.bindGet ?_
  rw [usable]
  exact Says.pure () group fleet

/-- To give a call and go on is to say its parts one after the other and go on. -/
theorem give_bind (prepared : PreparedCall) (environment : Named String) (call : CallId)
    (next : Unit → Talk Unit) :
    (give prepared environment call >>= next) = (do
      broadcast (.command .execute)
      broadcast (.environment environment)
      broadcast prepared.skeletons
      prepared.positional.forM fun (argument, shipment) => sendData argument shipment
      prepared.keyword.forM fun (_, argument, shipment) => sendData argument shipment
      broadcast (.computation prepared.computation call)
      next ()) := by
  simp only [give, bind_assoc]

/-- The part of a call in which the ranks say how it went, and are told whether to go on. -/
def settle : Talk Unit := do
  awaitCompletion
  match RankFailure.combine (← gatherOf Message.expectStatus) with
  | .error failure =>
    broadcast (.proceed false)
    throw failure
  | .ok () => broadcast (.proceed true)

/-- A request is to give the call and to settle it. -/
theorem request_give (prepared : PreparedCall) (environment : Named String) (call : CallId) :
    request prepared environment call = (do
      give prepared environment call
      settle) :=
  (give_bind prepared environment call fun _ => settle).symm

/-- What the ranks report. -/
def statuses (size : Nat) (outcome : Nat → Except Failure Output) : List (Option RankFailure) :=
  (List.range size).map fun rank => Worker.reported (outcome rank)

include sized manned in
/-- The part of a call in which the ranks have said how it went, and wait for the word. -/
theorem says_hear {α : Type} (call : CallId)
    (going : Going group fleet computation arguments prepared environment stores outcome later)
    (continuation : List (Option RankFailure) → Talk α) (answer : Except Failure α) (last : Fleet)
    (rest : Says (continuation (statuses group.size outcome)) group
      (fleet.place group.link fun rank => (fleet.worker group.size rank).concluding call
        arguments.named (outcome rank) (later rank) []) answer last) :
    Says (do
        give prepared environment call
        awaitCompletion
        continuation (← gatherOf Message.expectStatus))
      group (fleet.rest group stores) answer last := by
  refine Says.bind (says_give sized manned call going) ?_
  refine Says.bind (says_awaitCompletion group fleet _ sized
    (fun rank => [.status (Worker.reported (outcome rank))]) fun rank _ => rfl) ?_
  refine Says.bind (says_gatherOf group fleet _ sized Message.expectStatus
    (fun rank => .status (Worker.reported (outcome rank)))
    (fun rank => Worker.reported (outcome rank)) (fun _ => []) (fun _ _ => rfl)
    fun rank _ => rfl) ?_
  exact rest

include sized manned in
/-- A call that fails on some rank, up to the point at which the output would be handed over. The
group is at rest, and nothing but the computations has changed what the ranks store. -/
theorem says_request_failed (call : CallId) (failure : Failure)
    (going : Going group fleet computation arguments prepared environment stores outcome later)
    (combined : RankFailure.combine (statuses group.size outcome) = .error failure) :
    Says (request prepared environment call) group (fleet.rest group stores) (.error failure)
      (fleet.rest group later) := by
  rw [request_give, settle]
  refine says_hear sized manned call going _ _ _ ?_
  simp only [combined]
  refine Says.bind (says_broadcast group fleet _ sized (.proceed false)) ?_
  refine (Says.throw failure group _).placed (Fleet.place_congr _ _ _ _ fun rank inside => ?_)
  exact (fleet.worker group.size rank).deliver_proceed call arguments.named (outcome rank)
    (later rank) (later rank) false [] (Worker.serves_drop _ call _ _ _)

/-- What the ranks store after a call whose outputs they keep. -/
def kept (call : CallId) (output : Nat → Output) (later : Nat → ResultStore) (rank : Nat) :
    ResultStore :=
  (later rank).keep call 0 (output rank).partitions

include sized manned in
/-- A call that fails on no rank, up to the point at which the output is handed over. -/
theorem says_request_ok (call : CallId) (output : Nat → Output)
    (going : Going group fleet computation arguments prepared environment stores
      (fun rank => .ok (output rank)) later) :
    Says (request prepared environment call) group (fleet.rest group stores) (.ok ())
      (fleet.place group.link fun rank => {
        Line.atRest (fleet.worker group.size rank) (kept call output later rank) with
        unread := Worker.handedOver rank (output rank) arguments.named
          (kept call output later rank) }) := by
  rw [request_give, settle]
  have combined : RankFailure.combine (statuses group.size fun rank => .ok (output rank)) =
      .ok () := if_pos (by simp [statuses, Worker.reported])
  refine says_hear sized manned call going _ _ _ ?_
  simp only [combined]
  refine (says_broadcast group fleet _ sized (.proceed true)).placed
    (Fleet.place_congr _ _ _ _ fun rank inside => ?_)
  exact (fleet.worker group.size rank).deliver_proceed call arguments.named _ (later rank)
    (kept call output later rank) true _ (Worker.serves_handOver _ call _ _ _)

/-- What the ranks say about results, all of them storing one or not all of them. -/
def updates (size : Nat) (stores : Nat → ResultStore) (named : List ResultId) :
    Shipment.Updates :=
  named.map fun id =>
    ((List.range size).map fun rank => ((stores rank).find? id).map .ofBatch).mapM fun found => found

include sized in
/-- The ranks report on the named results, one after the other. -/
theorem tells_updates (named : List ResultId) (stores : Nat → ResultStore) (lines : Nat → Line)
    (unread : ∀ rank < group.size,
      (lines rank).unread = named.map (Worker.report (stores rank))) :
    Tells (hearUpdates named.length) group (fleet.place group.link lines)
      (updates group.size stores named, none)
      (fleet.place group.link fun rank => { lines rank with unread := [] }) := by
  induction named generalizing lines with
  | nil =>
    refine (Tells.pure _ group _).placed (Fleet.place_congr _ _ _ _ fun rank inside => ?_)
    have none : (lines rank).unread = [] := unread rank (sized ▸ inside)
    rw [← none]
  | cons id rest inductionHypothesis =>
    refine Tells.bind (Tells.ofSays (says_gatherOf group fleet lines sized
      Message.expectPartitionMeta (fun rank => Worker.report (stores rank) id)
      (fun rank => ((stores rank).find? id).map .ofBatch)
      (fun rank => rest.map (Worker.report (stores rank))) (fun _ _ => rfl) unread)) ?_
    exact Tells.bind (inductionHypothesis _ fun rank inside => rfl) (Tells.pure _ group _)

/-- The reply to a call with these outputs: that of rank zero, with what all ranks keep in the place
of its partitions. -/
def replyOf (call : CallId) (size : Nat) (output : Nat → Output) : Reply :=
  (output 0).reply (.ofOutputs call size fun rank => (output rank).partitions) 0

include sized manned in
/-- Ranks with equally many partitions have handed over just what is collected. -/
theorem says_collect (call : CallId) (output : Nat → Output) (lines : Nat → Line)
    (rest : Nat → List Message)
    (alike : ∀ rank < group.size,
      (output rank).partitions.length = (output 0).partitions.length)
    (unread : ∀ rank < group.size, (lines rank).unread =
      (if rank = 0 then [.outputShape (output 0).distribution] else []) ++
        (output rank).sent rank ++ rest rank) :
    Says (collectReply call) group (fleet.place group.link lines)
      (.ok (replyOf call group.size output))
      (fleet.place group.link fun rank => { lines rank with unread := rest rank }) := by
  have shaped := says_receiveOf group fleet lines Message.expectOutputShape 0
    (.outputShape (output 0).distribution) _ ((output 0).sent 0 ++ rest 0) (sized ▸ manned) rfl
    (unread 0 manned)
  refine Says.bind (Says.collecting shaped) ?_
  have collected := says_reply group fleet sized manned call
    (fun rank => (output rank).partitions) (output 0) 0
    (Function.update lines 0 { lines 0 with unread := (output 0).sent 0 ++ rest 0 }) rest
    ⟨[], by simp⟩ (fun rank inside => by rw [alike rank inside]; omega) fun rank inside => by
      by_cases first : rank = 0
      · subst first
        simp [told]
      · rw [Function.update_of_ne first, unread rank inside, if_neg first, told, if_neg first,
          Output.sent_of_pos rank (Nat.pos_of_ne_zero first), List.drop_zero,
          ← alike rank inside, List.take_length]
        rfl
  refine Says.bind collected ((Says.pure _ group _).placed
    (Fleet.place_congr _ _ _ _ fun rank inside => ?_))
  by_cases first : rank = 0
  · subst first
    simp
  · rw [Function.update_of_ne first]

mutual

/-- As many frames are only named as the argument has results of the live group. -/
theorem lazyFrames_shipment (replicated : Bool) (argument : Argument) :
    Shipment.lazyFrames argument (argument.shipment replicated) = argument.named.length := by
  cases argument with
  | value value =>
    cases shipped : value.shipment replicated <;> simp [Argument.named, Shipment.lazyFrames]
  | frame frame =>
    cases frame with
    | collected table => cases replicated <;> rfl
    | distributed partitioned handle => rfl
  | tuple items => exact lazyFrames_shipments replicated items
  | context context =>
    rw [Argument.shipment]
    split <;> rfl

/-- As many frames are only named as the arguments have results of the live group. -/
theorem lazyFrames_shipments (replicated : Bool) (items : List Argument) :
    Shipment.lazyFramesOf items (Argument.shipments replicated items) =
      (Argument.namedIn items).length := by
  cases items with
  | nil => rfl
  | cons item rest =>
    rw [Argument.shipments, Shipment.lazyFramesOf, Argument.namedIn, List.length_append,
      lazyFrames_shipment replicated item, lazyFrames_shipments replicated rest]

end

/-- The results that arguments name are counted one argument after the other. -/
theorem lazyFramesOf_map {α : Type} (items : List α) (argument : α → Argument)
    (replicated : α → Bool) :
    Shipment.lazyFramesOf (items.map argument)
        (items.map fun item => (argument item).shipment (replicated item)) =
      (items.flatMap fun item => (argument item).named).length := by
  induction items with
  | nil => rfl
  | cons item rest inductionHypothesis =>
    rw [List.map_cons, List.map_cons, Shipment.lazyFramesOf, List.flatMap_cons,
      List.length_append, inductionHypothesis, lazyFrames_shipment]

/-- As many frames are only named as there are results to report on. -/
theorem lazyFrames_prepared (fits : prepared.Fits computation arguments) :
    prepared.lazyFrames = arguments.named.length := by
  unfold PreparedCall.lazyFrames
  rw [fits.positional, fits.keyword]
  simp only [List.map_map, Function.comp_def]
  rw [lazyFramesOf_map, lazyFramesOf_map, CallArguments.named, List.length_append,
    arguments.flatMap_flagged computation Argument.named,
    arguments.flatMap_flaggedKeyword computation Argument.named]

include sized manned in
/-- A call that fails on some rank. -/
theorem tells_conduct_failed (call : CallId) (failure : Failure)
    (going : Going group fleet computation arguments prepared environment stores outcome later)
    (combined : RankFailure.combine (statuses group.size outcome) = .error failure) :
    Tells (conduct prepared environment call arguments) group (fleet.rest group stores)
      { arguments, outcome := .error { failure } } (fleet.rest group later) :=
  Tells.bind (Tells.ofSays (Says.bindError (Says.collectingError
    (says_request_failed sized manned call failure going combined)))) (Tells.pure _ group _)

include sized manned in
/-- A call that fails on no rank. -/
theorem tells_conduct_ok (call : CallId) (output : Nat → Output)
    (going : Going group fleet computation arguments prepared environment stores
      (fun rank => .ok (output rank)) later)
    (alike : ∀ rank < group.size,
      (output rank).partitions.length = (output 0).partitions.length) :
    Tells (conduct prepared environment call arguments) group (fleet.rest group stores)
      { arguments := prepared.updated
          (updates group.size (kept call output later) arguments.named)
        outcome := .ok (replyOf call group.size output) }
      (fleet.rest group (kept call output later)) := by
  have collected := says_collect sized manned call output
    (fun rank => {
      Line.atRest (fleet.worker group.size rank) (kept call output later rank) with
      unread := Worker.handedOver rank (output rank) arguments.named
        (kept call output later rank) })
    (fun rank => arguments.named.map (Worker.report (kept call output later rank))) alike
    fun rank _ => by
      by_cases first : rank = 0
      · subst first
        rfl
      · simp only [Worker.handedOver, if_neg first]
  have requested := Says.collecting (says_request_ok sized manned call output going)
  have told : Says (do
        (request prepared environment call : Talk Unit)
        collectReply call : Collecting Reply) group (fleet.rest group stores) _ _ :=
    Says.bind requested collected
  refine Tells.bind (Tells.ofSays told) ?_
  have heard := tells_updates sized arguments.named (kept call output later)
    (fun rank => {
      Line.atRest (fleet.worker group.size rank) (kept call output later rank) with
      unread := arguments.named.map (Worker.report (kept call output later rank)) })
    fun _ _ => rfl
  rw [← lazyFrames_prepared going.fits] at heard
  exact Tells.bind heard (Tells.pure _ group _)

/-- A call that cannot be prepared. Nothing is sent. -/
theorem tells_submit_refused (isLive : Handle → Bool) (surroundings : List (String × String))
    (call : CallId) (computation : Computation) (arguments : CallArguments) (failure : Failure)
    (usable : group.isUnusable = false)
    (refused : PreparedCall.prepare isLive computation arguments = .error failure) :
    Tells (submit isLive surroundings call computation arguments) group fleet
      { arguments, outcome := .error { failure } } fleet := by
  refine Tells.bind (Tells.ofSays (says_ensureUsable group fleet usable)) ?_
  simp only [refused]
  exact Tells.pure _ group fleet

/-- A call that can be prepared goes as the prepared call does. -/
theorem tells_submit_prepared (isLive : Handle → Bool) (surroundings : List (String × String))
    (call : CallId) (computation : Computation) (arguments : CallArguments)
    (usable : group.isUnusable = false)
    (ready : PreparedCall.prepare isLive computation arguments = .ok prepared) (result : CallEnd)
    (last : Fleet)
    (conducted : Tells (conduct prepared (Environment.forwarded surroundings
      computation.options.propagateEnvironment) call arguments) group fleet result last) :
    Tells (submit isLive surroundings call computation arguments) group fleet result last := by
  refine Tells.bind (Tells.ofSays (says_ensureUsable group fleet usable)) ?_
  simp only [ready]
  exact conducted

/-- The partitions that the ranks store as one table, if all of them store one. -/
def stored (id : ResultId) (size : Nat) (stores : Nat → ResultStore) : Except Failure Batch := do
  joinPartitions (← (List.range size).mapM fun rank =>
    match (stores rank).find? id with
    | some partition => .ok partition
    | none => .error (missingResult id rank))

include sized in
/-- Fetching a result changes nothing. -/
theorem says_gatherResult (id : ResultId) (stores : Nat → ResultStore)
    (usable : group.isUnusable = false) :
    Says (gatherResult id) group (fleet.rest group stores) (stored id group.size stores)
      (fleet.rest group stores) := by
  refine Says.bind (says_ensureUsable group _ usable) ?_
  refine Says.bind (says_broadcast group fleet _ sized (.command .gather)) ?_
  refine Says.bind (says_broadcast group fleet _ sized (.resultId id)) ?_
  have gathered := says_gather group fleet
    (fun rank => ((Line.atRest (fleet.worker group.size rank) (stores rank)).deliver
      (.command .gather)).deliver (.resultId id)) sized
    (fun rank => .partition ((stores rank).find? id)) (fun _ => []) fun rank _ => by
      rw [Worker.deliver_served _ _ _ _ _ _ (Worker.serves_gather _ id (stores rank))]
  refine Says.bind gathered ?_
  have read : (((List.range group.size).map fun rank =>
      (Message.partition ((stores rank).find? id), rank)).mapM fun entry =>
        partitionOf id entry.1 entry.2) >>= joinPartitions = stored id group.size stores := by
    refine congrArg (· >>= joinPartitions) ?_
    induction List.range group.size with
    | nil => rfl
    | cons rank others inductionHypothesis =>
      rw [List.map_cons, List.mapM_cons, List.mapM_cons, inductionHypothesis]
      cases (stores rank).find? id <;> rfl
  rw [zipIdx_ranks]
  show Says (ExceptT.mk (Pure.pure (List.mapM (fun entry : Message × Nat =>
    partitionOf id entry.1 entry.2) _ >>= joinPartitions))) group _ _ _
  rw [read]
  refine (Says.ofExcept _ group _).placed (Fleet.place_congr _ _ _ _ fun rank inside => ?_)
  rw [Worker.deliver_served _ _ _ _ _ _ (Worker.serves_gather _ id (stores rank))]
  rfl

include sized in
/-- Forgetting a result. -/
theorem says_deleteResult (id : ResultId) (stores : Nat → ResultStore)
    (usable : group.isUnusable = false) :
    Says (deleteResult id) group (fleet.rest group stores) (.ok ())
      (fleet.rest group fun rank => (stores rank).erase id) := by
  refine Says.bind (says_ensureUsable group _ usable) ?_
  refine Says.bind (says_broadcast group fleet _ sized (.command .deleteResult)) ?_
  refine (says_broadcast group fleet _ sized (.resultId id)).placed
    (Fleet.place_congr _ _ _ _ fun rank inside => ?_)
  exact Worker.deliver_served _ _ _ _ _ _ (Worker.serves_delete _ id (stores rank))

end Group

end Rankwise
