import Rankwise.Proofs.Transcripts
import Rankwise.Proofs.Preparation

/-!
# What is said to workers

All talk with the workers of a group but its end is put together from looking at the group, sending
and receiving (`Group.Utters`), and each kind of talk sends messages of its own kind: calls,
fetching and freeing results. From this alone it follows what such talk does to the group and whom
it concerns (`Group.Utters.conducted`): only the ranks of the group are talked to, and the group is
marked as broken exactly if some answer was a failure.
-/

namespace Rankwise

namespace Message

/-- A message that belongs to a call: any but a command of another kind. -/
def InCall : Message → Prop
  | command order => order = .execute
  | _ => True

/-- A message that belongs to fetching a result. -/
def InFetching (id : ResultId) : Message → Prop
  | command order => order = .gather
  | resultId named => named = id
  | _ => False

/-- A message that belongs to freeing results of a kind. -/
def InFreeing (may : ResultId → Prop) : Message → Prop
  | command order => order = .deleteResult
  | resultId named => may named
  | _ => False

/-- A message that belongs to ending a group. -/
def InEnding : Message → Prop
  | command order => order = .exit
  | _ => False

/-- A message that frees results of a kind frees results of any wider kind. -/
theorem InFreeing.mono {may other : ResultId → Prop} {message : Message}
    (freeing : message.InFreeing may) (weaker : ∀ result, may result → other result) :
    message.InFreeing other := by
  cases message with
  | command order => exact freeing
  | resultId named => exact weaker named freeing
  | _ => exact freeing

end Message

namespace Group

/-- The talk is put together from looking at the group, sending and receiving, and what is sent
satisfies `may`. -/
inductive Utters (may : Message → Prop) : {α : Type} → StateT Group Dialogue α → Prop
  | pure {α : Type} (value : α) : Utters may (Pure.pure value)
  | bind {α β : Type} {talk : StateT Group Dialogue α}
      {continuation : α → StateT Group Dialogue β} (first : Utters may talk)
      (second : ∀ value, Utters may (continuation value)) : Utters may (talk >>= continuation)
  | look : Utters may (MonadState.get : StateT Group Dialogue Group)
  | send (rank : Nat) (message : Message) (allowed : may message) :
      Utters may (Group.send rank message).run
  | receive (rank : Nat) : Utters may (Group.receive rank).run

namespace Utters

variable {may : Message → Prop} {ε α β : Type}

/-- Composed talk that stops at a failure. -/
theorem bindExcept {talk : ExceptT ε (StateT Group Dialogue) α}
    {continuation : α → ExceptT ε (StateT Group Dialogue) β} (first : Utters may talk.run)
    (second : ∀ value, Utters may (continuation value).run) :
    Utters may (talk >>= continuation).run := by
  apply bind first
  intro answer
  cases answer with
  | ok value => exact second value
  | error failure => exact pure _

/-- To look at the group utters nothing. -/
theorem get : Utters may (MonadState.get : Talk Group).run := by
  have looks : Utters may (do
      let group ← (MonadState.get : StateT Group Dialogue Group)
      Pure.pure (Except.ok group : Except Failure Group)) := bind look fun _ => pure _
  exact looks

/-- Talk about each item utters what is allowed if it does for one. -/
theorem forM (items : List α) (talk : α → Talk Unit)
    (each : ∀ item ∈ items, Utters may (talk item).run) : Utters may (items.forM talk).run := by
  induction items with
  | nil => exact pure _
  | cons item rest inductionHypothesis =>
    obtain ⟨here, others⟩ := List.forall_mem_cons.mp each
    exact bindExcept here fun _ => inductionHypothesis others

/-- So does talk with an answer for each item. -/
theorem mapM (items : List α) (talk : α → Talk β) (each : ∀ item, Utters may (talk item).run) :
    Utters may (items.mapM talk).run := by
  induction items with
  | nil => exact pure _
  | cons item rest inductionHypothesis =>
    rw [List.mapM_cons]
    apply bindExcept (each item)
    intro value
    exact bindExcept inductionHypothesis fun _ => pure _

/-- Talk utters the same where results are collected. -/
theorem collecting {talk : Talk α} (utters : Utters may talk.run) :
    Utters may (liftM talk : Collecting α).run := bind utters fun _ => pure _

/-- To hold results while collecting utters nothing more. -/
theorem holding {collecting : Collecting α} (results : List Partitioned)
    (utters : Utters may collecting.run) : Utters may (Group.holding results collecting).run :=
  bind utters fun _ => pure _

end Utters

/-- The group after talk in which an answer was a failure or not. -/
def marked (group : Group) (failed : Bool) : Group := { group with broken := group.broken || failed }

/-- A group marked twice is broken if it was marked so once. -/
theorem marked_marked (group : Group) (first second : Bool) :
    (group.marked first).marked second = group.marked (first || second) := by
  simp only [marked, Bool.or_assoc]

/-- Whatever is answered, talk marks the group if some answer is a failure, and it concerns the
ranks of the group only. -/
theorem Utters.conducted {may : Message → Prop} {α : Type} {talk : StateT Group Dialogue α}
    (utters : Utters may talk) (group later : Group) (transcript : Transcript) (answer : α)
    (conducted : (talk.run group).Conducted transcript (answer, later)) :
    later = group.marked transcript.hasFailed ∧
      ∀ inquiry ∈ transcript, inquiry.IsTalk may group.link := by
  -- By what the talk is put together from. The group is looked at in between, so the mark is
  -- carried along.
  induction utters generalizing group later transcript with
  | pure value =>
    obtain ⟨rfl, same⟩ := (Dialogue.conducted_done _ _ _).mp conducted
    obtain ⟨-, rfl⟩ := Prod.mk.inj same
    exact ⟨by simp [marked, Transcript.hasFailed], by simp⟩
  | look =>
    obtain ⟨rfl, same⟩ := (Dialogue.conducted_done _ _ _).mp conducted
    obtain ⟨-, rfl⟩ := Prod.mk.inj same
    exact ⟨by simp [marked, Transcript.hasFailed], by simp⟩
  | bind _ _ first second =>
    obtain ⟨begun, ⟨value, between⟩, ended, rfl, starts, goesOn⟩ :=
      (Dialogue.conducted_bind _ _ _ _).mp conducted
    obtain ⟨rfl, talks⟩ := first group between begun value starts
    obtain ⟨rfl, talksOn⟩ := second value _ later ended answer goesOn
    refine ⟨?_, ?_⟩
    · rw [marked_marked, Transcript.hasFailed_append]
    · intro inquiry member
      rcases List.mem_append.mp member with early | late
      · exact talks inquiry early
      · exact talksOn inquiry late
  | send rank message allowed =>
    cases conducted with
    | send _ _ _ _ reply rest =>
      cases reply with
      | ok | error =>
        obtain ⟨rfl, same⟩ := (Dialogue.conducted_done _ _ _).mp rest
        obtain ⟨-, rfl⟩ := Prod.mk.inj same
        refine ⟨by simp [marked, Transcript.hasFailed, Inquiry.hasFailed], ?_⟩
        simpa using ⟨rfl, allowed⟩
  | receive rank =>
    cases conducted with
    | receive _ _ _ reply rest =>
      cases reply with
      | ok | error =>
        obtain ⟨rfl, same⟩ := (Dialogue.conducted_done _ _ _).mp rest
        obtain ⟨-, rfl⟩ := Prod.mk.inj same
        refine ⟨by simp [marked, Transcript.hasFailed, Inquiry.hasFailed], ?_⟩
        simp [Inquiry.IsTalk]

variable {may : Message → Prop}

/-- To tell all ranks utters the one message. -/
theorem utters_broadcast (message : Message) (allowed : may message) :
    Utters may (broadcast message).run := by
  apply Utters.bindExcept Utters.get
  intro group
  exact Utters.forM _ _ fun rank _ => .send rank message allowed

/-- To tell each rank its own utters these messages. -/
theorem utters_scatter (messages : List Message) (allowed : ∀ message ∈ messages, may message) :
    Utters may (scatter messages).run := by
  apply Utters.bindExcept Utters.get
  intro group
  have sends : Utters may (messages.zipIdx.forM fun entry => send entry.2 entry.1).run :=
    Utters.forM _ _ fun entry member =>
      .send entry.2 entry.1 (allowed entry.1 (List.fst_mem_of_mem_zipIdx member))
  dsimp only
  split
  · exact Utters.bindExcept (.pure _) fun _ => sends
  · exact sends

/-- To hear from all ranks utters nothing. -/
theorem utters_gather : Utters may gather.run := by
  apply Utters.bindExcept Utters.get
  intro group
  exact Utters.mapM _ _ fun rank => .receive rank

/-- Nor does it to select what they say. -/
theorem utters_gatherOf {α : Type} (select : Message → Except Failure α) :
    Utters may (gatherOf select).run := by
  apply Utters.bindExcept utters_gather
  intro messages
  exact .pure _

/-- To hear from one rank utters nothing. -/
theorem utters_receiveOf {α : Type} (select : Message → Except Failure α) (rank : Nat) :
    Utters may (receiveOf select rank).run := by
  apply Utters.bindExcept (.receive rank)
  intro message
  exact .pure _

/-- To check the group utters nothing. -/
theorem utters_ensureUsable : Utters may ensureUsable.run := by
  apply Utters.bindExcept Utters.get
  intro group
  cases group.isUnusable with
  | true => exact .pure _
  | false => exact .pure _

/-! Calls. -/

/-- To send a table utters messages of a call. -/
theorem utters_sendTable (table : Batch) (transfer : Transfer) :
    Utters Message.InCall (sendTable table transfer).run := by
  cases transfer with
  | broadcast => exact utters_broadcast _ trivial
  | scatter =>
    apply Utters.bindExcept Utters.get
    intro group
    apply Utters.bindExcept (.pure _)
    intro blocks
    apply utters_scatter
    intro message member
    obtain ⟨block, -, rfl⟩ := List.mem_map.mp member
    trivial
  | «lazy» => exact .pure _

/-- So does it to send a frame. -/
theorem utters_sendFrame (frame : Frame) (transfer : Transfer) :
    Utters Message.InCall (sendFrame frame transfer).run := by
  cases frame with
  | collected table =>
    cases transfer with
    | broadcast => exact utters_sendTable table .broadcast
    | scatter => exact utters_sendTable table .scatter
    | «lazy» => exact .pure _
  | distributed partitioned handle =>
    cases transfer with
    | «lazy» => exact utters_broadcast _ trivial
    | _ => exact .pure _

mutual

/-- So does it to send the tables in a value. -/
theorem utters_sendValueData (value : Value) (shipment : Shipment) :
    Utters Message.InCall (sendValueData value shipment).run := by
  cases shipment with
  | asIs => cases value <;> exact .pure _
  | transfer transfer =>
    cases value with
    | table table => exact utters_sendTable table transfer
    | _ => exact .pure _
  | tuple shipments =>
    cases value with
    | tuple items => exact utters_sendValuesData items shipments
    | _ => exact .pure _
  | map shipments =>
    cases value with
    | map entries => exact utters_sendEntriesData entries shipments
    | _ => exact .pure _
  | context shipment => cases value <;> exact .pure _

/-- So does it for the items of a tuple. -/
theorem utters_sendValuesData (items : List Value) (shipments : List Shipment) :
    Utters Message.InCall (sendValuesData items shipments).run := by
  cases items with
  | nil => cases shipments <;> exact .pure _
  | cons item rest =>
    cases shipments with
    | nil => exact .pure _
    | cons shipment others =>
      apply Utters.bindExcept (utters_sendValueData item shipment)
      intro _
      exact utters_sendValuesData rest others

/-- So does it for the entries of a map. -/
theorem utters_sendEntriesData (entries : List (String × Value))
    (shipments : List (String × Shipment)) :
    Utters Message.InCall (sendEntriesData entries shipments).run := by
  cases entries with
  | nil => exact .pure _
  | cons entry rest =>
    apply Utters.bindExcept (.pure _)
    intro shipment
    apply Utters.bindExcept (utters_sendValueData entry.2 shipment)
    intro _
    exact utters_sendEntriesData rest shipments

end

/-- So does it to send a table of a context. -/
theorem utters_sendContextTable (tables : Named ContextTable) (name : String)
    (shipment : TableShipment) :
    Utters Message.InCall (sendContextTable tables name shipment).run := by
  cases shipment with
  | path path => exact .pure _
  | placeholder transfer =>
    unfold sendContextTable
    dsimp only
    split
    · exact utters_sendTable _ _
    · exact utters_sendFrame _ _
    · exact .pure _

mutual

/-- So does it to send the tables in an argument. -/
theorem utters_sendData (argument : Argument) (shipment : Shipment) :
    Utters Message.InCall (sendData argument shipment).run := by
  cases shipment with
  | asIs => cases argument <;> exact .pure _
  | transfer transfer =>
    cases argument with
    | frame frame => exact utters_sendFrame frame transfer
    | value value => exact utters_sendValueData value (.transfer transfer)
    | _ => exact .pure _
  | tuple shipments =>
    cases argument with
    | tuple items => exact utters_sendAllData items shipments
    | value value => exact utters_sendValueData value (.tuple shipments)
    | _ => exact .pure _
  | map shipments =>
    cases argument with
    | value value => exact utters_sendValueData value (.map shipments)
    | _ => exact .pure _
  | context shipment =>
    cases argument with
    | context found =>
      apply Utters.forM
      intro entry _
      exact utters_sendContextTable found.tables entry.1 entry.2
    | _ => exact .pure _

/-- So does it for several arguments. -/
theorem utters_sendAllData (items : List Argument) (shipments : List Shipment) :
    Utters Message.InCall (sendAllData items shipments).run := by
  cases items with
  | nil => cases shipments <;> exact .pure _
  | cons item rest =>
    cases shipments with
    | nil => exact .pure _
    | cons shipment others =>
      apply Utters.bindExcept (utters_sendData item shipment)
      intro _
      exact utters_sendAllData rest others

end

/-- A request utters messages of a call. -/
theorem utters_request (prepared : PreparedCall) (environment : Named String) (call : CallId)
    (skeletons : prepared.skeletons.InCall) :
    Utters Message.InCall (request prepared environment call).run := by
  have positional : Utters Message.InCall
      (prepared.positional.forM fun entry => sendData entry.1 entry.2).run :=
    Utters.forM _ _ fun entry _ => utters_sendData entry.1 entry.2
  have keyword : Utters Message.InCall
      (prepared.keyword.forM fun entry => sendData entry.2.1 entry.2.2).run :=
    Utters.forM _ _ fun entry _ => utters_sendData entry.2.1 entry.2.2
  refine Utters.bindExcept (utters_broadcast (.command .execute) rfl) fun _ => ?_
  refine Utters.bindExcept (utters_broadcast (.environment environment) trivial) fun _ => ?_
  refine Utters.bindExcept (utters_broadcast _ skeletons) fun _ => ?_
  apply Utters.bindExcept positional
  intro _
  apply Utters.bindExcept keyword
  intro _
  refine Utters.bindExcept (utters_broadcast _ trivial) fun _ => ?_
  apply Utters.bindExcept
    (Utters.bindExcept Utters.get fun _ => Utters.forM _ _ fun rank _ => utters_receiveOf _ rank)
  intro _
  apply Utters.bindExcept (utters_gatherOf _)
  intro statuses
  cases RankFailure.combine statuses with
  | error failure =>
    refine Utters.bindExcept (utters_broadcast _ trivial) fun _ => ?_
    exact .pure _
  | ok _ => exact utters_broadcast _ trivial

/-- To hear of the partitions of a result utters nothing. -/
theorem utters_receivePartitioned (id : ResultId) : Utters may (receivePartitioned id).run := by
  apply Utters.bindExcept (utters_gatherOf _)
  intro parts
  exact .pure _

mutual

/-- To hear a reply utters nothing. -/
theorem utters_receiveReply (call : CallId) (leaf : Nat) (shape : Distribution) :
    Utters may (receiveReply call leaf shape).run := by
  cases shape with
  | replicated =>
    apply Utters.bindExcept (Utters.collecting (utters_receiveOf _ 0))
    intro value
    exact .pure _
  | distributed =>
    apply Utters.bindExcept (Utters.collecting (utters_receivePartitioned _))
    intro found
    exact .pure _
  | tuple shapes =>
    apply Utters.bindExcept (utters_receiveReplies call leaf [] shapes)
    intro received
    exact .pure _
  | map shapes =>
    apply Utters.bindExcept (utters_receiveEntries call leaf [] shapes)
    intro received
    exact .pure _

/-- Nor does it for the items of a tuple. -/
theorem utters_receiveReplies (call : CallId) (leaf : Nat) (received : List Reply)
    (shapes : List Distribution) : Utters may (receiveReplies call leaf received shapes).run := by
  cases shapes with
  | nil => exact .pure _
  | cons shape rest =>
    apply Utters.bindExcept (Utters.holding _ (utters_receiveReply call leaf shape))
    intro item
    exact utters_receiveReplies call item.2 (received ++ [item.1]) rest

/-- Nor does it for the entries of a map. -/
theorem utters_receiveEntries (call : CallId) (leaf : Nat) (received : List (String × Reply))
    (shapes : List (String × Distribution)) :
    Utters may (receiveEntries call leaf received shapes).run := by
  cases shapes with
  | nil => exact .pure _
  | cons shape rest =>
    apply Utters.bindExcept (Utters.holding _ (utters_receiveReply call leaf shape.2))
    intro item
    exact utters_receiveEntries call item.2 (received ++ [(shape.1, item.1)]) rest

end

/-- To hear of changed partitions utters nothing. -/
theorem utters_hearUpdates (count : Nat) : Utters may (hearUpdates count) := by
  induction count with
  | zero => exact .pure _
  | succ count inductionHypothesis =>
    apply Utters.bind (utters_gatherOf Message.expectPartitionMeta)
    intro answer
    cases answer with
    | error failure => exact .pure _
    | ok parts => exact Utters.bind inductionHypothesis fun _ => .pure _

/-- A call utters messages of a call. -/
theorem utters_conduct (prepared : PreparedCall) (environment : Named String) (call : CallId)
    (arguments : CallArguments) (skeletons : prepared.skeletons.InCall) :
    Utters Message.InCall (conduct prepared environment call arguments) := by
  apply Utters.bind
  · apply Utters.bindExcept
      (Utters.collecting (utters_request prepared environment call skeletons))
    intro _
    apply Utters.bindExcept (Utters.collecting (utters_receiveOf _ 0))
    intro shape
    exact Utters.bindExcept (utters_receiveReply call 0 shape) fun _ => .pure _
  · intro answer
    cases answer with
    | error abandoned => exact .pure _
    | ok reply => exact Utters.bind (utters_hearUpdates _) fun _ => .pure _

/-- Calls send no command but their own. -/
theorem utters_submit (isLive : Handle → Bool) (surroundings : List (String × String))
    (call : CallId) (computation : Computation) (arguments : CallArguments) :
    Utters Message.InCall (submit isLive surroundings call computation arguments) := by
  apply Utters.bind utters_ensureUsable
  intro answer
  cases answer with
  | error failure => exact .pure _
  | ok _ =>
    dsimp only
    cases prepares : PreparedCall.prepare isLive computation arguments with
    | error failure => exact .pure _
    | ok prepared =>
      obtain ⟨positional, keyword, -, -, skeletons⟩ :=
        (PreparedCall.prepare_ok _ _ _ prepared prepares).skeletons
      exact utters_conduct prepared _ call arguments (skeletons ▸ trivial)

/-! Fetching and freeing results, and telling the workers to leave. -/

/-- To fetch a result utters the order to gather and the name of this result. -/
theorem utters_gatherResult (id : ResultId) :
    Utters (Message.InFetching id) (gatherResult id).run := by
  apply Utters.bindExcept utters_ensureUsable
  intro _
  refine Utters.bindExcept (utters_broadcast (.command .gather) rfl) fun _ => ?_
  refine Utters.bindExcept (utters_broadcast (.resultId id) rfl) fun _ => ?_
  apply Utters.bindExcept utters_gather
  intro messages
  exact .pure _

/-- To end a group utters the order to exit. -/
theorem utters_exit : Utters Message.InEnding (broadcast (.command .exit)).run :=
  utters_broadcast _ rfl

/-- To free a result utters the order to delete and the name of this result. -/
theorem utters_deleteResult (freed : ResultId → Prop) (id : ResultId) (allowed : freed id) :
    Utters (Message.InFreeing freed) (deleteResult id).run := by
  apply Utters.bindExcept utters_ensureUsable
  intro _
  refine Utters.bindExcept (utters_broadcast (.command .deleteResult) rfl) fun _ => ?_
  exact utters_broadcast (.resultId id) allowed

end Group

end Rankwise
