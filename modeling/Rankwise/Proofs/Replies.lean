import Rankwise.Proofs.Serving

/-!
# How outputs are collected

The coordinator learns the shape of the output from rank zero and walks through it, while each rank
walks through its own output. `Output.reply` says to what the walk comes: the values of rank zero,
and for each distributed part the result that all ranks keep under its number. `says_reply` shows
that ranks whose outputs have equally many partitions send exactly what the walk takes, whatever
they send afterwards.
-/

namespace Rankwise

namespace Output

mutual

/-- The reply that mirrors an output whose distributed parts, numbered from `leaf` on, are the
results that `found` says. -/
def reply (found : Nat → Partitioned) (leaf : Nat) : Output → Reply
  | replicated value => .value value
  | distributed _ => .partitioned (found leaf)
  | tuple items => .tuple (replies found leaf items)
  | map entries => .map (entryReplies found leaf entries)

/-- The replies that mirror the items. -/
def replies (found : Nat → Partitioned) (leaf : Nat) : List Output → List Reply
  | [] => []
  | item :: rest =>
    reply found leaf item :: replies found (leaf + item.partitions.length) rest

/-- The replies that mirror the entries. -/
def entryReplies (found : Nat → Partitioned) (leaf : Nat) :
    List (String × Output) → List (String × Reply)
  | [] => []
  | (name, entry) :: rest =>
    (name, reply found leaf entry) :: entryReplies found (leaf + entry.partitions.length) rest

end

/-! Ranks other than zero send nothing but the sizes of their partitions. -/

/-- The word about a partition. -/
def announce (partition : Batch) : Message := .partitionMeta (some (.ofBatch partition))

mutual

/-- A rank above zero announces its partitions and sends nothing else of an output. -/
theorem sent_of_pos (rank : Nat) (later : 0 < rank) (output : Output) :
    output.sent rank = output.partitions.map announce := by
  cases output with
  | replicated value => rw [sent, if_neg (Nat.pos_iff_ne_zero.mp later)]; rfl
  | distributed partition => rfl
  | tuple items => exact sentOf_of_pos rank later items
  | map entries => exact entrySent_of_pos rank later entries

/-- So it does for the items of a tuple. -/
theorem sentOf_of_pos (rank : Nat) (later : 0 < rank) (items : List Output) :
    sentOf rank items = (partitionsOf items).map announce := by
  cases items with
  | nil => rfl
  | cons item rest =>
    rw [sentOf, partitionsOf, List.map_append, sent_of_pos rank later item,
      sentOf_of_pos rank later rest]

/-- So it does for the entries of a map. -/
theorem entrySent_of_pos (rank : Nat) (later : 0 < rank) (entries : List (String × Output)) :
    entrySent rank entries = (entryPartitions entries).map announce := by
  cases entries with
  | nil => rfl
  | cons entry rest =>
    rw [entrySent, entryPartitions, List.map_append, sent_of_pos rank later entry.2,
      entrySent_of_pos rank later rest]

end

end Output

/-- The result whose partitions these are, by rank. It has the schema of the partition of rank
zero. -/
def Partitioned.ofRanks (id : ResultId) (size : Nat) (partition : Nat → Batch) : Partitioned where
  id
  schema := (partition 0).schema
  partitionRows := (List.range size).map fun rank => (partition rank).rows

/-- The result that is made of the partitions number `leaf` of the outputs of all ranks. -/
def Partitioned.ofOutputs (call : CallId) (size : Nat) (partitions : Nat → List Batch)
    (leaf : Nat) : Partitioned :=
  .ofRanks (.ofOutput call leaf) size fun rank =>
    ((partitions rank)[leaf]?).getD (.empty { fields := [] })

namespace Group

variable (group : Group) (fleet : Fleet) (sized : fleet.size group.link = group.size)
  (manned : 0 < group.size)

/-- Where every rank has announced its partition, all of them are found. -/
theorem allPartitions_some (size : Nat) (parts : Nat → PartitionMeta) :
    allPartitions ((List.range size).map fun rank => some (parts rank)) =
      .ok ((List.range size).map parts) := by
  rw [allPartitions, zipIdx_ranks]
  induction List.range size with
  | nil => rfl
  | cons rank rest inductionHypothesis =>
    rw [List.map_cons, List.mapM_cons, inductionHypothesis]
    rfl

include sized manned in
/-- One partition of each rank makes a result. -/
theorem says_receivePartitioned (lines : Nat → Line) (id : ResultId) (partition : Nat → Batch)
    (rest : Nat → List Message)
    (unread : ∀ rank < group.size,
      (lines rank).unread = Output.announce (partition rank) :: rest rank) :
    Says (receivePartitioned id) group (fleet.place group.link lines)
      (.ok (.ofRanks id group.size partition))
      (fleet.place group.link fun rank => { lines rank with unread := rest rank }) := by
  refine Says.bind (says_gatherOf group fleet lines sized Message.expectPartitionMeta
    (fun rank => Output.announce (partition rank))
    (fun rank => some (.ofBatch (partition rank))) rest (fun _ _ => rfl) unread) ?_
  rw [allPartitions_some]
  have made : Partitioned.ofPartitions id
      ((List.range group.size).map fun rank => .ofBatch (partition rank)) =
        .ok (.ofRanks id group.size partition) := by
    obtain ⟨others, count⟩ := Nat.exists_eq_add_one.mpr manned
    simp [count, List.range_succ_eq_map, Partitioned.ofPartitions, Partitioned.ofRanks,
      PartitionMeta.ofBatch, Function.comp_def]
  simp only [Except.bind, made]
  exact Says.ofExcept _ group _

/-- What a rank has said when `count` partitions from number `leaf` on were announced and rank zero
has sent `sent`. -/
def told (partitions : Nat → List Batch) (rank leaf count : Nat) (sent : List Message) :
    List Message :=
  if rank = 0 then sent else (((partitions rank).drop leaf).take count).map Output.announce

/-- What a rank tells of two groups of leaves is told of one after the other. -/
theorem told_append (partitions : Nat → List Batch) (rank leaf first second : Nat)
    (sent further : List Message) :
    told partitions rank leaf (first + second) (sent ++ further) =
      told partitions rank leaf first sent ++
        told partitions rank (leaf + first) second further := by
  unfold told
  split
  · rfl
  · rw [List.take_add, List.drop_drop, List.map_append]

/-- Of no leaf nothing is told. -/
theorem told_nothing (partitions : Nat → List Batch) (rank leaf : Nat) (rest : List Message) :
    told partitions rank leaf 0 [] ++ rest = rest := by
  unfold told
  split <;> rfl

/-- The partitions of rank zero's own leaves are met in the order of the leaves. -/
theorem own_append (partitions : Nat → List Batch) (leaf : Nat) (first second : List Batch)
    (own : ∃ later, (partitions 0).drop leaf = (first ++ second) ++ later) :
    (∃ later, (partitions 0).drop leaf = first ++ later) ∧
      ∃ later, (partitions 0).drop (leaf + first.length) = second ++ later := by
  obtain ⟨later, found⟩ := own
  refine ⟨⟨second ++ later, by rw [found, List.append_assoc]⟩, later, ?_⟩
  rw [← List.drop_drop, found, List.append_assoc, List.drop_left]

/-- Collecting that goes well is not disturbed by what is held. -/
theorem Says.holding {α : Type} {collecting : Collecting α} {group : Group} {fleet later : Fleet}
    {value : α} (results : List Partitioned)
    (spoken : Says collecting group fleet (.ok value) later) :
    Says (holding results collecting) group fleet (.ok value) later := by
  have whole := Dialogue.run_bind Fleet.outside (collecting.run.run group)
    (fun reached => .done (reached.1.mapError fun abandoned =>
      { abandoned with orphans := abandoned.orphans ++ results }, reached.2)) fleet
  rw [spoken] at whole
  exact whole

variable (call : CallId) (partitions : Nat → List Batch)

include sized manned

set_option linter.unusedSectionVars false in
mutual

/-- Ranks that announce enough partitions have said all that the walk through the shape takes. -/
theorem says_reply (output : Output) (leaf : Nat) (lines : Nat → Line)
    (rest : Nat → List Message)
    (own : ∃ later, (partitions 0).drop leaf = output.partitions ++ later)
    (enough : ∀ rank < group.size, leaf + output.partitions.length ≤ (partitions rank).length)
    (unread : ∀ rank < group.size, (lines rank).unread =
      told partitions rank leaf output.partitions.length (output.sent 0) ++ rest rank) :
    Says (receiveReply call leaf output.distribution) group (fleet.place group.link lines)
      (.ok (output.reply (.ofOutputs call group.size partitions) leaf,
        leaf + output.partitions.length))
      (fleet.place group.link fun rank => { lines rank with unread := rest rank }) := by
  -- By the form of the output. Only a partition takes up a leaf, and every rank has announced its
  -- own.
  cases output with
  | replicated value =>
    rw [Output.distribution, receiveReply]
    refine Says.bind (Says.collecting (says_receiveOf group fleet lines Message.expectValue 0
      (.value value) value (rest 0) (sized ▸ manned) rfl (unread 0 manned))) ?_
    refine (Says.pure _ group _).placed (Fleet.place_congr _ _ _ _ fun rank inside => ?_)
    by_cases first : rank = 0
    · subst first
      simp
    · have same := unread rank (sized ▸ inside)
      simp only [told, if_neg first, Output.partitions, List.length_nil, List.take_zero,
        List.map_nil, List.nil_append] at same
      rw [Function.update_of_ne first, ← same]
  | distributed partition =>
    rw [Output.distribution, receiveReply]
    refine Says.bind (Says.collecting (says_receivePartitioned group fleet sized manned lines _
      (fun rank => ((partitions rank)[leaf]?).getD (.empty { fields := [] })) rest
      fun rank inside => ?_)) (Says.pure _ group _)
    have listed : leaf < (partitions rank).length := by
      have := enough rank inside
      simp only [Output.partitions, List.length_singleton] at this
      omega
    rw [unread rank inside, List.getElem?_eq_getElem listed]
    unfold told
    split
    case isTrue first =>
      subst first
      obtain ⟨later, found⟩ := own
      rw [List.drop_eq_getElem_cons listed] at found
      rw [(List.cons.inj found).1]
      rfl
    case isFalse =>
      rw [List.drop_eq_getElem_cons listed]
      rfl
  | tuple items =>
    rw [Output.distribution, receiveReply]
    exact Says.bind (says_replies items leaf [] lines rest own enough unread)
      (Says.pure _ group _)
  | map entries =>
    rw [Output.distribution, receiveReply]
    exact Says.bind (says_entries entries leaf [] lines rest own enough unread)
      (Says.pure _ group _)

/-- The items of a tuple are received one by one, each with its own leaves. -/
theorem says_replies (items : List Output) (leaf : Nat) (received : List Reply)
    (lines : Nat → Line) (rest : Nat → List Message)
    (own : ∃ later, (partitions 0).drop leaf = Output.partitionsOf items ++ later)
    (enough : ∀ rank < group.size,
      leaf + (Output.partitionsOf items).length ≤ (partitions rank).length)
    (unread : ∀ rank < group.size, (lines rank).unread =
      told partitions rank leaf (Output.partitionsOf items).length (Output.sentOf 0 items) ++
        rest rank) :
    Says (receiveReplies call leaf received (Output.distributions items)) group
      (fleet.place group.link lines)
      (.ok (received ++ Output.replies (.ofOutputs call group.size partitions) leaf items,
        leaf + (Output.partitionsOf items).length))
      (fleet.place group.link fun rank => { lines rank with unread := rest rank }) := by
  cases items with
  | nil =>
    rw [Output.replies, List.append_nil]
    refine (Says.pure _ group _).placed (Fleet.place_congr _ _ _ _ fun rank inside => ?_)
    have same : (lines rank).unread = rest rank :=
      (unread rank (sized ▸ inside)).trans (told_nothing partitions rank leaf (rest rank))
    rw [← same]
  | cons item others =>
    obtain ⟨ownFirst, ownRest⟩ := own_append partitions leaf _ _ own
    rw [Output.partitionsOf, List.length_append] at enough
    let middle (rank : Nat) : List Message :=
      told partitions rank (leaf + item.partitions.length) (Output.partitionsOf others).length
        (Output.sentOf 0 others) ++ rest rank
    have first := says_reply item leaf lines middle
      ownFirst (fun rank inside => by have := enough rank inside; omega)
      fun rank inside => by
        rw [unread rank inside, Output.partitionsOf, List.length_append, Output.sentOf,
          told_append, List.append_assoc]
    have second := says_replies others (leaf + item.partitions.length)
      (received ++ [item.reply (.ofOutputs call group.size partitions) leaf])
      (fun rank => { lines rank with unread := middle rank }) rest
      ownRest (fun rank inside => by have := enough rank inside; omega) fun rank inside => rfl
    rw [Output.distributions, receiveReplies]
    refine Says.bind (Says.holding _ first) ?_
    rw [Output.replies, Output.partitionsOf, List.length_append, ← Nat.add_assoc]
    rw [List.append_assoc] at second
    exact second

/-- The entries of a map are received one by one, each with its own leaves. -/
theorem says_entries (entries : List (String × Output)) (leaf : Nat)
    (received : List (String × Reply)) (lines : Nat → Line) (rest : Nat → List Message)
    (own : ∃ later, (partitions 0).drop leaf = Output.entryPartitions entries ++ later)
    (enough : ∀ rank < group.size,
      leaf + (Output.entryPartitions entries).length ≤ (partitions rank).length)
    (unread : ∀ rank < group.size, (lines rank).unread =
      told partitions rank leaf (Output.entryPartitions entries).length
        (Output.entrySent 0 entries) ++ rest rank) :
    Says (receiveEntries call leaf received (Output.entryDistributions entries)) group
      (fleet.place group.link lines)
      (.ok (received ++ Output.entryReplies (.ofOutputs call group.size partitions) leaf entries,
        leaf + (Output.entryPartitions entries).length))
      (fleet.place group.link fun rank => { lines rank with unread := rest rank }) := by
  cases entries with
  | nil =>
    rw [Output.entryReplies, List.append_nil]
    refine (Says.pure _ group _).placed (Fleet.place_congr _ _ _ _ fun rank inside => ?_)
    have same : (lines rank).unread = rest rank :=
      (unread rank (sized ▸ inside)).trans (told_nothing partitions rank leaf (rest rank))
    rw [← same]
  | cons entry others =>
    obtain ⟨name, entry⟩ := entry
    obtain ⟨ownFirst, ownRest⟩ := own_append partitions leaf _ _ own
    rw [Output.entryPartitions, List.length_append] at enough
    -- What is unread once the first entry was received.
    let middle (rank : Nat) : List Message :=
      told partitions rank (leaf + entry.partitions.length) (Output.entryPartitions others).length
        (Output.entrySent 0 others) ++ rest rank
    have first := says_reply entry leaf lines middle
      ownFirst (fun rank inside => by have := enough rank inside; omega)
      fun rank inside => by
        rw [unread rank inside, Output.entryPartitions, List.length_append, Output.entrySent,
          told_append, List.append_assoc]
    have second := says_entries others (leaf + entry.partitions.length)
      (received ++ [(name, entry.reply (.ofOutputs call group.size partitions) leaf)])
      (fun rank => { lines rank with unread := middle rank }) rest
      ownRest (fun rank inside => by have := enough rank inside; omega) fun rank inside => rfl
    rw [Output.entryDistributions, receiveEntries]
    refine Says.bind (Says.holding _ first) ?_
    rw [Output.entryReplies, Output.entryPartitions, List.length_append, ← Nat.add_assoc]
    rw [List.append_assoc] at second
    exact second

end

end Group

end Rankwise
