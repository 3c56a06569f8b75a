import Rankwise.Proofs.Exchanges

/-!
# What a call leaves unread

Ranks may come with outputs of different shapes. The coordinator takes what the output of rank zero
makes it take, and what else the ranks have sent stays unread. `Ends` tells what is true wherever a
piece of talk comes to its end; it may also wait for ever. The main statement is that a call whose
ranks have outputs leaves the group at rest exactly if all ranks have equally many partitions
(`ends_conduct`).
-/

namespace Rankwise

/-- Wherever the talk comes to its end with workers that act at once, the group is the same as
before and `holds` is true of the value and of the fleet. -/
def Ends {α : Type} (talk : StateT Group Dialogue α) (group : Group) (fleet : Fleet)
    (holds : α → Fleet → Prop) : Prop :=
  ∀ value later last,
    (talk.run group).run Fleet.outside fleet = some ((value, later), last) →
      later = group ∧ holds value last

namespace Ends

variable {ε α β : Type} {group : Group} {fleet : Fleet}

/-- Talk that goes well in one way ends in this way. -/
theorem ofTells {talk : StateT Group Dialogue α} {value : α} {later : Fleet}
    {holds : α → Fleet → Prop} (tells : Tells talk group fleet value later)
    (stands : holds value later) : Ends talk group fleet holds := by
  intro result last remains ends
  rw [tells] at ends
  obtain ⟨same, rfl⟩ := Prod.mk.inj (Option.some.inj ends)
  obtain ⟨rfl, rfl⟩ := Prod.mk.inj same
  exact ⟨rfl, stands⟩

/-- Less may be said of how talk ends. -/
theorem weaken {talk : StateT Group Dialogue α} {first holds : α → Fleet → Prop}
    (ends : Ends talk group fleet first)
    (weaker : ∀ value last, first value last → holds value last) :
    Ends talk group fleet holds := by
  intro value later last returned
  obtain ⟨same, stands⟩ := ends value later last returned
  exact ⟨same, weaker value last stands⟩

/-- What is known because the talk comes to its end can be used to tell how it does. -/
theorem given {talk : StateT Group Dialogue α} {known : Prop} {holds : α → Fleet → Prop}
    (first : Ends talk group fleet fun _ _ => known)
    (second : known → Ends talk group fleet holds) : Ends talk group fleet holds := by
  intro value later last returned
  exact second (first value later last returned).2 value later last returned

/-- Talk that ends, and goes on from each of its ends to another, ends there. -/
theorem bind {talk : StateT Group Dialogue α} {continuation : α → StateT Group Dialogue β}
    {holds : α → Fleet → Prop} {after : β → Fleet → Prop} (first : Ends talk group fleet holds)
    (second : ∀ value middle, holds value middle →
      Ends (continuation value) group middle after) :
    Ends (talk >>= continuation) group fleet after := by
  intro result later last returned
  have whole := Dialogue.run_bind Fleet.outside (talk.run group)
    (fun reached => continuation reached.1 reached.2) fleet
  obtain ⟨⟨⟨value, between⟩, middle⟩, begun, ended⟩ :=
    Option.bind_eq_some_iff.mp (whole.symm.trans returned)
  obtain ⟨rfl, stands⟩ := first value between middle begun
  exact second value middle stands result later last ended

/-- Composed talk that stops at a failure. -/
theorem bindExcept {talk : ExceptT ε (StateT Group Dialogue) α}
    {continuation : α → ExceptT ε (StateT Group Dialogue) β}
    {holds : Except ε α → Fleet → Prop} {after : Except ε β → Fleet → Prop}
    (first : Ends talk.run group fleet holds)
    (second : ∀ value middle, holds (.ok value) middle →
      Ends (continuation value).run group middle after)
    (stopped : ∀ failure middle, holds (.error failure) middle →
      after (.error failure) middle) :
    Ends (talk >>= continuation).run group fleet after := by
  refine bind first fun answer middle stands => ?_
  cases answer with
  | ok value => exact second value middle stands
  | error failure => exact ofTells (Tells.pure _ group middle) (stopped failure middle stands)

/-- Composed talk of which it is known how it begins. -/
theorem behind {talk : ExceptT ε (StateT Group Dialogue) α} {value : α} {middle : Fleet}
    {continuation : α → ExceptT ε (StateT Group Dialogue) β} {holds : Except ε β → Fleet → Prop}
    (first : Says talk group fleet (.ok value) middle)
    (second : Ends (continuation value).run group middle holds) :
    Ends (talk >>= continuation).run group fleet holds := by
  intro answer later last returned
  have whole := Dialogue.run_bind Fleet.outside (talk.run.run group)
    (fun reached => ExceptT.bindCont continuation reached.1 reached.2) fleet
  rw [first] at whole
  exact second answer later last (whole.symm.trans returned)

/-- Talk ends as well where results are collected. -/
theorem collecting {talk : Talk α} {holds : Except Failure α → Fleet → Prop}
    (ends : Ends talk.run group fleet holds) :
    Ends (liftM talk : Collecting α).run group fleet fun answer last =>
      ∃ before, answer = before.mapError (fun failure => { failure }) ∧ holds before last := by
  show Ends (talk.run >>= fun answer =>
    Pure.pure (answer.mapError fun failure => ({ failure } : Abandoned))) group fleet _
  apply bind ends
  intro answer middle stands
  exact ofTells (Tells.pure _ group middle) ⟨answer, rfl, stands⟩

/-- Results that are held on to are given back with what is given back already. -/
theorem holding {collecting : Collecting α} {holds : Except Abandoned α → Fleet → Prop}
    (results : List Partitioned) (ends : Ends collecting.run group fleet holds) :
    Ends (Group.holding results collecting).run group fleet fun answer last =>
      ∃ before, answer = before.mapError (fun abandoned =>
        { abandoned with orphans := abandoned.orphans ++ results }) ∧ holds before last := by
  show Ends (collecting.run >>= fun answer => Pure.pure (answer.mapError fun abandoned =>
    ({ abandoned with orphans := abandoned.orphans ++ results } : Abandoned))) group fleet _
  apply bind ends
  intro answer middle stands
  exact ofTells (Tells.pure _ group middle) ⟨answer, rfl, stands⟩

end Ends

/-- The talk comes to its end with workers that act at once. -/
def Returns {α : Type} (talk : StateT Group Dialogue α) (group : Group) (fleet : Fleet) : Prop :=
  ∃ value later last,
    (talk.run group).run Fleet.outside fleet = some ((value, later), last)

namespace Returns

variable {ε α β : Type} {group : Group} {fleet : Fleet}

/-- Talk that comes to its end has come to the end of its first part. -/
theorem first {talk : StateT Group Dialogue α} {continuation : α → StateT Group Dialogue β}
    (returns : Returns (talk >>= continuation) group fleet) : Returns talk group fleet := by
  obtain ⟨result, later, last, returned⟩ := returns
  have whole := Dialogue.run_bind Fleet.outside (talk.run group)
    (fun reached => continuation reached.1 reached.2) fleet
  obtain ⟨⟨⟨value, between⟩, middle⟩, begun, -⟩ :=
    Option.bind_eq_some_iff.mp (whole.symm.trans returned)
  exact ⟨value, between, middle, begun⟩

/-- It goes on from where the first part has come to. -/
theorem behind {talk : ExceptT ε (StateT Group Dialogue) α} {value : α} {middle : Fleet}
    {continuation : α → ExceptT ε (StateT Group Dialogue) β}
    (begun : Says talk group fleet (.ok value) middle)
    (returns : Returns (talk >>= continuation).run group fleet) :
    Returns (continuation value).run group middle := by
  obtain ⟨result, later, last, returned⟩ := returns
  have whole := Dialogue.run_bind Fleet.outside (talk.run.run group)
    (fun reached => ExceptT.bindCont continuation reached.1 reached.2) fleet
  rw [begun] at whole
  exact ⟨result, later, last, whole.symm.trans returned⟩

end Returns

/-- The fleet in which this is unread of the workers of a group. -/
def Fleet.queued (fleet : Fleet) (link : Link) (lines : Nat → Line)
    (queue : Nat → List Message) : Fleet :=
  fleet.place link fun rank => { lines rank with unread := queue rank }

namespace Group

variable (group : Group) (fleet : Fleet) (lines : Nat → Line) (queue : Nat → List Message)

/-- Whoever is answered has taken the first unread message. -/
theorem ends_receive (rank : Nat) (inside : rank < fleet.size group.link) :
    Ends (receive rank).run group (fleet.queued group.link lines queue) fun answer last =>
      ∃ message rest, queue rank = message :: rest ∧ answer = .ok message ∧
        last = fleet.queued group.link lines (Function.update queue rank rest) := by
  cases unread : queue rank with
  | nil =>
    intro answer later last returned
    have silent := Fleet.receive_silent (fleet.queued group.link lines queue) group.link rank inside
      (by rw [Fleet.queued, Fleet.line_place _ _ _ _ inside, unread])
    have waits : ((receive rank).run.run group).run Fleet.outside
        (fleet.queued group.link lines queue) = none := by
      show Option.bind (Fleet.outside.receive _ _ _) _ = _
      rw [silent]
      rfl
    rw [waits] at returned
    cases returned
  | cons message rest =>
    have received := says_receive group fleet
      (fun rank => { lines rank with unread := queue rank }) rank message rest inside unread
    refine Ends.ofTells (Tells.ofSays received) ⟨message, rest, rfl, rfl, ?_⟩
    refine Fleet.place_congr _ _ _ _ fun other _ => ?_
    by_cases here : other = rank
    · subst here
      simp
    · simp [here]

/-- Ranks that are heard one after the other have all sent something. -/
theorem ends_mapM_receive (ranks : List Nat) (distinct : ranks.Nodup)
    (inside : ∀ rank ∈ ranks, rank < fleet.size group.link) :
    Ends (ranks.mapM receive).run group (fleet.queued group.link lines queue) fun answer _ =>
      (∃ messages, answer = .ok messages) ∧ ∀ rank ∈ ranks, queue rank ≠ [] := by
  induction ranks generalizing queue with
  | nil =>
    exact Ends.ofTells (Tells.pure _ group _) ⟨⟨[], rfl⟩, fun rank member => nomatch member⟩
  | cons rank rest inductionHypothesis =>
    obtain ⟨fresh, distinctRest⟩ := List.nodup_cons.mp distinct
    have insideRest (other : Nat) (member : other ∈ rest) : other < fleet.size group.link :=
      inside other (List.mem_cons_of_mem _ member)
    rw [List.mapM_cons]
    apply Ends.bindExcept (ends_receive group fleet lines queue rank
      (inside rank List.mem_cons_self))
    · rintro value middle ⟨message, others, unread, -, rfl⟩
      apply Ends.bindExcept (inductionHypothesis _ distinctRest insideRest)
      · rintro values last ⟨-, heard⟩
        refine Ends.ofTells (Tells.pure _ group last) ⟨⟨value :: values, rfl⟩, ?_⟩
        intro other member
        rcases List.mem_cons.mp member with rfl | later
        · simp [unread]
        · have apart : other ≠ rank := by
            rintro rfl
            exact fresh later
          simpa [apart] using heard other later
      · rintro failure last ⟨⟨messages, answered⟩, -⟩
        cases answered
    · rintro failure middle ⟨message, others, unread, answered, -⟩
      cases answered

variable (sized : fleet.size group.link = group.size)

include sized in
/-- Where one message was awaited from every rank, every rank has sent one. -/
theorem ends_gather : Ends gather.run group (fleet.queued group.link lines queue) fun answer last =>
    ∃ message : Nat → Message,
      (∀ rank < group.size, queue rank = message rank :: (queue rank).tail) ∧
      answer = .ok ((List.range group.size).map message) ∧
      last = fleet.queued group.link lines fun rank => (queue rank).tail := by
  have heard : Ends gather.run group (fleet.queued group.link lines queue) fun _ _ =>
      ∀ rank < group.size, queue rank ≠ [] := by
    apply Ends.weaken (ends_mapM_receive group fleet lines queue (List.range group.size)
      List.nodup_range fun rank member => sized ▸ List.mem_range.mp member)
    rintro answer last ⟨-, sent⟩ rank inside
    exact sent rank (List.mem_range.mpr inside)
  apply Ends.given heard
  intro sent
  have parts (rank : Nat) (inside : rank < group.size) :
      queue rank = (queue rank).headD .completed :: (queue rank).tail := by
    cases unread : queue rank with
    | nil => exact absurd unread (sent rank inside)
    | cons message rest => rfl
  have gathered := says_gather group fleet (fun rank => { lines rank with unread := queue rank })
    sized (fun rank => (queue rank).headD .completed) (fun rank => (queue rank).tail) parts
  exact Ends.ofTells (Tells.ofSays gathered) ⟨_, parts, rfl, rfl⟩

/-- Every unread message of the rank is word about a partition. -/
def Announces (queue : List Message) : Prop :=
  ∀ message ∈ queue, ∃ part, message = .partitionMeta part

/-- What the first of these messages tells about a partition. -/
def toldPart : List Message → Option PartitionMeta
  | .partitionMeta part :: _ => part
  | _ => none

include sized in
/-- The same for word about partitions. -/
theorem ends_gatherOf_meta (heads : ∀ rank < group.size, ∀ message rest,
      queue rank = message :: rest → ∃ part, message = .partitionMeta part) :
    Ends (gatherOf Message.expectPartitionMeta).run group (fleet.queued group.link lines queue)
      fun answer last => ∃ part : Nat → Option PartitionMeta,
        (∀ rank < group.size, queue rank = .partitionMeta (part rank) :: (queue rank).tail) ∧
        answer = .ok ((List.range group.size).map part) ∧
        last = fleet.queued group.link lines fun rank => (queue rank).tail := by
  let part (rank : Nat) : Option PartitionMeta := toldPart (queue rank)
  have sent : Ends (gatherOf Message.expectPartitionMeta).run group
      (fleet.queued group.link lines queue) fun _ _ =>
        ∀ rank < group.size, queue rank = .partitionMeta (part rank) :: (queue rank).tail := by
    have known (message : Nat → Message) (unread : ∀ rank < group.size,
        queue rank = message rank :: (queue rank).tail) (rank : Nat) (inside : rank < group.size) :
        queue rank = .partitionMeta (part rank) :: (queue rank).tail := by
      obtain ⟨found, announced⟩ := heads rank inside _ _ (unread rank inside)
      have shown := unread rank inside
      rw [announced] at shown
      simp only [part]
      rw [shown]
      rfl
    apply Ends.bindExcept (ends_gather group fleet lines queue sized)
    · rintro messages middle ⟨message, unread, -, -⟩
      exact Ends.ofTells (Tells.ofSays (Says.ofExcept _ group middle)) (known message unread)
    · rintro failure middle ⟨message, unread, -, -⟩
      exact known message unread
  apply Ends.given sent
  intro unread
  have gathered := says_gatherOf group fleet
    (fun rank => { lines rank with unread := queue rank }) sized Message.expectPartitionMeta
    (fun rank => .partitionMeta (part rank)) part (fun rank => (queue rank).tail)
    (fun _ _ => rfl) unread
  exact Ends.ofTells (Tells.ofSays gathered) ⟨part, unread, rfl, rfl⟩

/-- What is left to be received when the first `count` messages of the ranks other than zero were
taken. -/
structure Walked (size : Nat) (queue last : Nat → List Message) (count : Nat) : Prop where
  left : ∀ rank < size, rank ≠ 0 → last rank = (queue rank).drop count
  enough : ∀ rank < size, rank ≠ 0 → count ≤ (queue rank).length

namespace Walked

variable {size : Nat} {queue last further : Nat → List Message} {count more : Nat}

/-- Where no message was taken, all are left. -/
theorem refl (size : Nat) (queue : Nat → List Message) : Walked size queue queue 0 where
  left _ _ _ := rfl
  enough _ _ _ := Nat.zero_le _

/-- Messages may be taken in two goes. -/
theorem trans (first : Walked size queue last count) (second : Walked size last further more) :
    Walked size queue further (count + more) where
  left rank inside later := by
    rw [second.left rank inside later, first.left rank inside later, List.drop_drop]
  enough rank inside later := by
    have taken := first.enough rank inside later
    have takenThen := second.enough rank inside later
    rw [first.left rank inside later, List.length_drop] at takenThen
    omega

/-- What was taken later was among what was there from the beginning. -/
theorem mem_take (first : Walked size queue last count) (rank : Nat) (inside : rank < size)
    (later : rank ≠ 0) (message : Message) (member : message ∈ (last rank).take more) :
    message ∈ (queue rank).take (count + more) := by
  rw [first.left rank inside later] at member
  rw [List.take_add]
  exact List.mem_append_right _ member

/-- What is left is word about partitions if all of it was. -/
theorem announces (first : Walked size queue last count)
    (announced : ∀ rank < size, rank ≠ 0 → Announces (queue rank)) (rank : Nat)
    (inside : rank < size) (later : rank ≠ 0) : Announces (last rank) := by
  intro message member
  rw [first.left rank inside later] at member
  exact announced rank inside later message (List.mem_of_mem_drop member)

end Walked

/-- How the walk through an output with `count` partitions ends before which `queue` is unread and
behind whose messages rank zero has sent `tail`. If it fails, some rank had no partition to announce
but only a named result to report on. -/
def WalkEnds {α : Type} (group : Group) (fleet : Fleet) (lines : Nat → Line)
    (queue : Nat → List Message) (count : Nat) (tail : List Message)
    (answer : Except Abandoned α) (last : Fleet) : Prop :=
  ∃ (taken : Nat) (further : Nat → List Message),
    last = fleet.queued group.link lines further ∧ Walked group.size queue further taken ∧
      match answer with
      | .ok _ => taken = count ∧ further 0 = tail
      | .error _ => taken ≤ count ∧ (∃ own, further 0 = own ++ tail) ∧
        ∃ rank < group.size, rank ≠ 0 ∧ .partitionMeta none ∈ (queue rank).take taken

/-- A walk goes on where its first part has come to. -/
theorem ends_walk {α β : Type} (results : List Partitioned) (talk : Collecting α)
    (continuation : α → Collecting β) (first second : Nat) (queue : Nat → List Message)
    (own tail : List Message)
    (announced : ∀ rank < group.size, rank ≠ 0 → Announces (queue rank))
    (begun : Ends talk.run group (fleet.queued group.link lines queue)
      (WalkEnds group fleet lines queue first (own ++ tail)))
    (goesOn : ∀ value further, further 0 = own ++ tail →
      (∀ rank < group.size, rank ≠ 0 → Announces (further rank)) →
      Ends (continuation value).run group (fleet.queued group.link lines further)
        (WalkEnds group fleet lines further second tail)) :
    Ends (holding results talk >>= continuation).run group (fleet.queued group.link lines queue)
      (WalkEnds group fleet lines queue (first + second) tail) := by
  apply Ends.bindExcept (Ends.holding results begun)
  · rintro value middle ⟨before, same, taken, further, rfl, walked, ended⟩
    cases before with
    | error failure => cases same
    | ok found =>
      obtain ⟨rfl, left⟩ := ended
      apply Ends.weaken (goesOn value further left (walked.announces announced))
      rintro result last ⟨more, queued, rfl, walkedOn, endedOn⟩
      refine ⟨taken + more, queued, rfl, walked.trans walkedOn, ?_⟩
      cases result with
      | ok _ =>
        obtain ⟨rfl, unread⟩ := endedOn
        exact ⟨rfl, unread⟩
      | error _ =>
        obtain ⟨part, unread, rank, inside, later, missing⟩ := endedOn
        have missed := walked.mem_take rank inside later _ missing
        exact ⟨Nat.add_le_add_left part taken, unread, rank, inside, later, missed⟩
  · rintro failure middle ⟨before, same, taken, further, rfl, walked, ended⟩
    cases before with
    | ok found => cases same
    | error _ =>
      obtain ⟨part, ⟨left, unread⟩, lacking⟩ := ended
      refine ⟨taken, further, rfl, walked, Nat.le_trans part (Nat.le_add_right _ _), ?_, lacking⟩
      exact ⟨left ++ own, by rw [unread, List.append_assoc]⟩

variable (manned : 0 < group.size)

/-- Partitions of which none is missing make a result. -/
theorem partitioned_of_parts (id : ResultId) (size : Nat) (manned : 0 < size)
    (part : Nat → Option PartitionMeta) (present : ∀ rank < size, part rank ≠ none) :
    ∃ found, (allPartitions ((List.range size).map part)).bind (Partitioned.ofPartitions id) =
      .ok found := by
  obtain ⟨others, count⟩ := Nat.exists_eq_add_one.mpr manned
  have listed : (List.range size).map part =
      (List.range size).map fun rank =>
        some ((part rank).getD (.ofBatch (.empty { fields := [] }))) := by
    apply List.map_congr_left
    intro rank member
    cases found : part rank with
    | none => exact absurd found (present rank (List.mem_range.mp member))
    | some present => rfl
  rw [listed, allPartitions_some, count, List.range_succ_eq_map]
  exact ⟨_, rfl⟩

include sized manned in
/-- Where partitions of all ranks were awaited, all ranks have sent word. If a result is not made of
them, one of the words was that there is no partition. -/
theorem ends_receivePartitioned (id : ResultId) (heads : ∀ rank < group.size, ∀ message rest,
      queue rank = message :: rest → ∃ part, message = .partitionMeta part) :
    Ends (receivePartitioned id).run group (fleet.queued group.link lines queue) fun answer last =>
      last = (fleet.queued group.link lines fun rank => (queue rank).tail) ∧
      (∀ rank < group.size, queue rank ≠ []) ∧
      ((∃ found, answer = .ok found) ∨
        (∃ failure, answer = .error failure) ∧
          ∃ rank < group.size, queue rank = .partitionMeta none :: (queue rank).tail) := by
  apply Ends.bindExcept (ends_gatherOf_meta group fleet lines queue sized heads)
  · rintro parts middle ⟨part, unread, made, rfl⟩
    obtain rfl := Except.ok.inj made
    refine Ends.ofTells (Tells.ofSays (Says.ofExcept _ group _)) ⟨rfl, ?_, ?_⟩
    · intro rank inside nothing
      have sent := unread rank inside
      rw [nothing] at sent
      cases sent
    · by_cases present : ∀ rank < group.size, part rank ≠ none
      · exact .inl (partitioned_of_parts id group.size manned part present)
      · have lacking : ∃ rank < group.size, part rank = none := by
          simpa only [not_forall, not_not, exists_prop] using present
        obtain ⟨rank, inside, missing⟩ := lacking
        have sent := unread rank inside
        rw [missing] at sent
        cases (allPartitions ((List.range group.size).map part)).bind
            (Partitioned.ofPartitions id) with
        | ok found => exact .inl ⟨found, rfl⟩
        | error failure => exact .inr ⟨⟨failure, rfl⟩, rank, inside, sent⟩
  · rintro failure middle ⟨part, unread, made, -⟩
    cases made

variable (call : CallId)

include sized manned

/-- The walk through a value takes the value. -/
theorem ends_value (value : Value) (leaf : Nat) (queue : Nat → List Message) (tail : List Message)
    (own : queue 0 = .value value :: tail) :
    Ends (receiveReply call leaf .replicated).run group (fleet.queued group.link lines queue)
      (WalkEnds group fleet lines queue 0 tail) := by
  have received := says_receiveOf group fleet
    (fun rank => { lines rank with unread := queue rank }) Message.expectValue 0 (.value value)
    value tail (sized ▸ manned) rfl own
  have answered : Says (receiveReply call leaf .replicated) group
      (fleet.queued group.link lines queue) (.ok (.value value, leaf))
      (fleet.place group.link (Function.update
        (fun rank => { lines rank with unread := queue rank }) 0
        { lines 0 with unread := tail })) := by
    rw [receiveReply]
    exact Says.bind (Says.collecting received) (Says.pure _ group _)
  refine Ends.ofTells (Tells.ofSays answered) ⟨0, Function.update queue 0 tail, ?_, ?_, rfl,
    Function.update_self _ _ _⟩
  · refine Fleet.place_congr _ _ _ _ fun rank _ => ?_
    by_cases first : rank = 0
    · subst first
      simp
    · simp [first]
  · constructor
    · intro rank _ later
      rw [Function.update_of_ne later, List.drop_zero]
    · intro rank _ _
      exact Nat.zero_le _

/-- The walk through a partition takes one word of every rank. -/
theorem ends_partition (partition : Batch) (leaf : Nat) (queue : Nat → List Message)
    (tail : List Message) (own : queue 0 = Output.announce partition :: tail)
    (announced : ∀ rank < group.size, rank ≠ 0 → Announces (queue rank)) :
    Ends (receiveReply call leaf .distributed).run group (fleet.queued group.link lines queue)
      (WalkEnds group fleet lines queue 1 tail) := by
  rw [receiveReply]
  have heads (rank : Nat) (inside : rank < group.size) (message : Message)
      (rest : List Message) (unread : queue rank = message :: rest) :
      ∃ part, message = .partitionMeta part := by
    by_cases first : rank = 0
    · subst first
      rw [own] at unread
      exact ⟨_, (List.cons.inj unread).1.symm⟩
    · exact announced rank inside first message (unread ▸ List.mem_cons_self)
  have walked (sent : ∀ rank < group.size, queue rank ≠ []) :
      Walked group.size queue (fun rank => (queue rank).tail) 1 := by
    constructor
    · intro rank _ _
      exact List.drop_one.symm
    · intro rank inside _
      exact List.length_pos_iff.mpr (sent rank inside)
  apply Ends.bindExcept (Ends.collecting
    (ends_receivePartitioned group fleet lines queue sized manned (.ofOutput call leaf) heads))
  · rintro found middle ⟨before, -, rfl, sent, -⟩
    refine Ends.ofTells (Tells.pure _ group _) ⟨1, _, rfl, walked sent, rfl, ?_⟩
    rw [own]
    rfl
  · rintro failure middle ⟨before, same, rfl, sent, found | ⟨-, rank, inside, missing⟩⟩
    · obtain ⟨partitioned, rfl⟩ := found
      cases same
    · refine ⟨1, _, rfl, walked sent, Nat.le_refl 1, ⟨[], ?_⟩, rank, inside, ?_, ?_⟩
      · rw [own]
        rfl
      · rintro rfl
        rw [own] at missing
        cases missing
      · rw [missing]
        exact List.mem_cons_self

set_option linter.unusedSectionVars false in
mutual

/-- The walk through an output takes one message of every rank for each of its partitions. -/
theorem ends_receiveReply (output : Output) (leaf : Nat) (queue : Nat → List Message)
    (tail : List Message) (own : queue 0 = output.sent 0 ++ tail)
    (announced : ∀ rank < group.size, rank ≠ 0 → Announces (queue rank)) :
    Ends (receiveReply call leaf output.distribution).run group
      (fleet.queued group.link lines queue)
      (WalkEnds group fleet lines queue output.partitions.length tail) := by
  cases output with
  | replicated value =>
    exact ends_value group fleet lines sized manned call value leaf queue tail own
  | distributed partition =>
    exact ends_partition group fleet lines sized manned call partition leaf queue tail own announced
  | tuple items =>
    rw [Output.distribution, receiveReply]
    apply Ends.bindExcept (ends_receiveReplies items leaf [] queue tail own announced)
    · intro received middle ended
      exact Ends.ofTells (Tells.pure _ group _) ended
    · intro failure middle ended
      exact ended
  | map entries =>
    rw [Output.distribution, receiveReply]
    apply Ends.bindExcept (ends_receiveEntries entries leaf [] queue tail own announced)
    · intro received middle ended
      exact Ends.ofTells (Tells.pure _ group _) ended
    · intro failure middle ended
      exact ended

/-- The walk through several items ends where the walk through all of their partitions does. -/
theorem ends_receiveReplies (items : List Output) (leaf : Nat) (received : List Reply)
    (queue : Nat → List Message) (tail : List Message)
    (own : queue 0 = Output.sentOf 0 items ++ tail)
    (announced : ∀ rank < group.size, rank ≠ 0 → Announces (queue rank)) :
    Ends (receiveReplies call leaf received (Output.distributions items)).run group
      (fleet.queued group.link lines queue)
      (WalkEnds group fleet lines queue (Output.partitionsOf items).length tail) := by
  cases items with
  | nil =>
    exact Ends.ofTells (Tells.pure _ group _) ⟨0, queue, rfl, .refl _ _, rfl, own⟩
  | cons item rest =>
    rw [Output.distributions, receiveReplies, Output.partitionsOf, List.length_append]
    rw [Output.sentOf, List.append_assoc] at own
    apply ends_walk group fleet lines _ _ _ _ _ _ (Output.sentOf 0 rest) tail announced
    · exact ends_receiveReply item leaf queue (Output.sentOf 0 rest ++ tail) own announced
    · intro answer further left announcedThen
      exact ends_receiveReplies rest answer.2 (received ++ [answer.1]) further tail left
        announcedThen

/-- The walk through several entries ends where the walk through all of their partitions does. -/
theorem ends_receiveEntries (entries : List (String × Output)) (leaf : Nat)
    (received : List (String × Reply)) (queue : Nat → List Message) (tail : List Message)
    (own : queue 0 = Output.entrySent 0 entries ++ tail)
    (announced : ∀ rank < group.size, rank ≠ 0 → Announces (queue rank)) :
    Ends (receiveEntries call leaf received (Output.entryDistributions entries)).run group
      (fleet.queued group.link lines queue)
      (WalkEnds group fleet lines queue (Output.entryPartitions entries).length tail) := by
  cases entries with
  | nil =>
    exact Ends.ofTells (Tells.pure _ group _) ⟨0, queue, rfl, .refl _ _, rfl, own⟩
  | cons entry rest =>
    obtain ⟨name, entry⟩ := entry
    rw [Output.entryDistributions, receiveEntries, Output.entryPartitions, List.length_append]
    rw [Output.entrySent, List.append_assoc] at own
    apply ends_walk group fleet lines _ _ _ _ _ _ (Output.entrySent 0 rest) tail announced
    · exact ends_receiveReply entry leaf queue (Output.entrySent 0 rest ++ tail) own announced
    · intro answer further left announcedThen
      exact ends_receiveEntries rest answer.2 (received ++ [(name, answer.1)]) further tail left
        announcedThen

end

omit manned in
/-- Reports on named results take one word of every rank for each of them. -/
theorem ends_hearUpdates (count : Nat) (queue : Nat → List Message)
    (announced : ∀ rank < group.size, Announces (queue rank)) :
    Ends (hearUpdates count) group (fleet.queued group.link lines queue) fun _ last =>
      (last = fleet.queued group.link lines fun rank => (queue rank).drop count) ∧
        ∀ rank < group.size, count ≤ (queue rank).length := by
  induction count generalizing queue with
  | zero =>
    exact Ends.ofTells (Tells.pure _ group _) ⟨rfl, fun rank _ => Nat.zero_le _⟩
  | succ count inductionHypothesis =>
    have heads (rank : Nat) (inside : rank < group.size) (message : Message)
        (rest : List Message) (unread : queue rank = message :: rest) :
        ∃ part, message = .partitionMeta part :=
      announced rank inside message (unread ▸ List.mem_cons_self)
    apply Ends.bind (ends_gatherOf_meta group fleet lines queue sized heads)
    rintro answer middle ⟨part, unread, rfl, rfl⟩
    have announcedThen (rank : Nat) (inside : rank < group.size) : Announces (queue rank).tail :=
      fun message member => announced rank inside message (List.mem_of_mem_tail member)
    apply Ends.bind (inductionHypothesis (fun rank => (queue rank).tail) announcedThen)
    rintro updates middle ⟨rfl, enough⟩
    refine Ends.ofTells (Tells.pure _ group _) ⟨?_, ?_⟩
    · refine Fleet.place_congr _ _ _ _ fun rank _ => ?_
      exact congrArg (fun unread => { lines rank with unread }) List.drop_tail
    · intro rank inside
      have more := enough rank inside
      rw [unread rank inside, List.length_cons]
      omega

omit manned in
/-- A group whose workers wait is at rest exactly if nothing is unread. -/
theorem atRest_queued (store : Nat → ResultStore) (queue : Nat → List Message) :
    (∃ later, (fleet.queued group.link
        (fun rank => .atRest (fleet.worker group.size rank) (store rank)) queue).AtRest group later) ↔
      ∀ rank < group.size, queue rank = [] := by
  constructor
  · rintro ⟨later, rests⟩ rank inside
    have resting := rests.resting rank inside
    rw [Fleet.queued, Fleet.line_place _ _ _ _ (sized ▸ inside)] at resting
    exact congrArg Line.unread resting
  · intro nothing
    refine ⟨store, sized, fun rank inside => ?_⟩
    rw [Fleet.queued, Fleet.line_place _ _ _ _ (sized ▸ inside), nothing rank inside]
    rfl

end Group

/-! The messages that the ranks hand over in a call whose computation succeeded everywhere. -/

namespace Group

/-- What a rank hands over besides values is word about partitions. -/
theorem announces_handedOver (parts : List Batch) (named : List ResultId) (store : ResultStore) :
    Announces (parts.map Output.announce ++ named.map (Worker.report store)) := by
  intro message member
  rcases List.mem_append.mp member with announced | reported
  · obtain ⟨part, -, rfl⟩ := List.mem_map.mp announced
    exact ⟨_, rfl⟩
  · obtain ⟨id, -, rfl⟩ := List.mem_map.mp reported
    exact ⟨_, rfl⟩

variable (output : Nat → Output) (named : List ResultId) (store : Nat → ResultStore)

/-- What is unread once the shape of the output was taken. -/
def outstanding (rank : Nat) : List Message :=
  (output rank).sent rank ++ named.map (Worker.report (store rank))

/-- Ranks other than zero send word about partitions only. -/
theorem outstanding_of_pos (rank : Nat) (later : rank ≠ 0) :
    outstanding output named store rank =
      (output rank).partitions.map Output.announce ++ named.map (Worker.report (store rank)) := by
  rw [outstanding, Output.sent_of_pos rank (Nat.pos_of_ne_zero later)]

/-- What is unread of a rank other than zero is word about partitions. -/
theorem announces_outstanding (rank : Nat) (later : rank ≠ 0) :
    Announces (outstanding output named store rank) := by
  rw [outstanding_of_pos _ _ _ rank later]
  exact announces_handedOver _ _ _

/-- A rank that was heard to have no partition has fewer of them than were taken of it, and was
taken at its word about a named result. -/
theorem short_of_missing (rank : Nat) (later : rank ≠ 0) (taken : Nat)
    (missing : .partitionMeta none ∈ (outstanding output named store rank).take taken) :
    (output rank).partitions.length < taken ∧ named ≠ [] := by
  rw [outstanding_of_pos _ _ _ rank later, List.take_append, List.length_map] at missing
  rcases List.mem_append.mp missing with announced | reported
  · obtain ⟨part, -, same⟩ := List.mem_map.mp (List.mem_of_mem_take announced)
    cases same
  · constructor
    · by_contra few
      rw [Nat.sub_eq_zero_of_le (Nat.le_of_not_lt few), List.take_zero] at reported
      cases reported
    · rintro rfl
      rw [List.map_nil, List.take_nil] at reported
      cases reported

/-- What the end of the walk and of the reports says about what is left: nothing exactly if all
ranks have equally many partitions. -/
theorem drained_iff (size taken : Nat) (further : Nat → List Message)
    (walked : Walked size (outstanding output named store) further taken)
    (all : taken = (output 0).partitions.length)
    (own : further 0 = named.map (Worker.report (store 0)))
    (enough : ∀ rank < size, named.length ≤ (further rank).length) :
    (∀ rank < size, (further rank).drop named.length = []) ↔
      ∀ rank < size, (output rank).partitions.length = (output 0).partitions.length := by
  have amount (rank : Nat) (inside : rank < size) (later : rank ≠ 0) :
      (further rank).length = (output rank).partitions.length + named.length - taken := by
    rw [walked.left rank inside later, List.length_drop, outstanding_of_pos _ _ _ rank later,
      List.length_append, List.length_map, List.length_map]
  have some_ (rank : Nat) (inside : rank < size) (later : rank ≠ 0) :
      taken ≤ (output rank).partitions.length + named.length := by
    have listed := walked.enough rank inside later
    rwa [outstanding_of_pos _ _ _ rank later, List.length_append, List.length_map,
      List.length_map] at listed
  constructor
  · intro drained rank inside
    by_cases first : rank = 0
    · rw [first]
    · have nothing := List.drop_eq_nil_iff.mp (drained rank inside)
      have left := amount rank inside first
      have listed := enough rank inside
      have least := some_ rank inside first
      omega
  · intro alike rank inside
    apply List.drop_eq_nil_of_le
    by_cases first : rank = 0
    · rw [first, own, List.length_map]
    · have left := amount rank inside first
      have same := alike rank inside
      omega

variable {group : Group} {fleet : Fleet} {computation : Computation} {arguments : CallArguments}
  {prepared : PreparedCall} {environment : Named String} {stores later : Nat → ResultStore}
  (sized : fleet.size group.link = group.size) (manned : 0 < group.size)

include sized manned in
/-- Once no rank has failed, the call is a walk over the output of rank zero, which sends its
reports on the named results behind it. -/
theorem ends_collecting (call : CallId) (output : Nat → Output)
    (going : Going group fleet computation arguments prepared environment stores
      (fun rank => .ok (output rank)) later) :
    Ends (do
        (request prepared environment call : Talk Unit)
        collectReply call : Collecting Reply).run group (fleet.rest group stores)
      (WalkEnds group fleet
        (fun rank => .atRest (fleet.worker group.size rank) (kept call output later rank))
        (outstanding output arguments.named (kept call output later))
        (output 0).partitions.length
        (arguments.named.map (Worker.report (kept call output later 0)))) := by
  let lines (rank : Nat) : Line :=
    .atRest (fleet.worker group.size rank) (kept call output later rank)
  let queue : Nat → List Message := outstanding output arguments.named (kept call output later)
  have requested := Says.collecting (says_request_ok sized manned call output going)
  have shaped := says_receiveOf group fleet
    (fun rank => { lines rank with
      unread := Worker.handedOver rank (output rank) arguments.named (kept call output later rank) })
    Message.expectOutputShape 0 (.outputShape (output 0).distribution) _ (queue 0)
    (sized ▸ manned) rfl rfl
  -- Only rank zero sends the shape of its output ahead of the partitions.
  have placed : (fleet.place group.link (Function.update
      (fun rank => { lines rank with
        unread := Worker.handedOver rank (output rank) arguments.named
          (kept call output later rank) }) 0
      { lines 0 with unread := queue 0 })) = fleet.queued group.link lines queue := by
    refine Fleet.place_congr _ _ _ _ fun rank _ => ?_
    by_cases first : rank = 0
    · subst first
      simp
    · simp [first, Worker.handedOver, queue, outstanding]
  have walk := ends_receiveReply group fleet lines sized manned call (output 0) 0 queue _ rfl
    fun rank _ behind => announces_outstanding output arguments.named (kept call output later) rank
      behind
  rw [← placed] at walk
  refine Ends.behind requested (Ends.behind (Says.collecting shaped) ?_)
  apply Ends.bindExcept walk
  · intro reply middle ended
    exact Ends.ofTells (Tells.pure _ group _) ended
  · intro failure middle ended
    exact ended

include sized manned in
/-- A call that fails on no rank leaves the group at rest exactly if all ranks have equally many
partitions. -/
theorem ends_conduct (call : CallId) (output : Nat → Output)
    (going : Going group fleet computation arguments prepared environment stores
      (fun rank => .ok (output rank)) later) :
    Ends (conduct prepared environment call arguments) group (fleet.rest group stores) fun _ last =>
      (∃ store, last.AtRest group store) ↔
        ∀ rank < group.size, (output rank).partitions.length = (output 0).partitions.length := by
  apply Ends.bind (ends_collecting sized manned call output going)
  rintro answer middle ⟨taken, further, rfl, walked, ended⟩
  -- Some rank had too few partitions, and something is left, or what is left is as much as is too
  -- many.
  cases answer with
  | error abandoned =>
    obtain ⟨part, ⟨own, unread⟩, rank, inside, behind, missing⟩ := ended
    obtain ⟨short, reported⟩ := short_of_missing output arguments.named _ rank behind taken missing
    have pending : further 0 ≠ [] := by
      rw [unread]
      exact List.append_ne_nil_of_right_ne_nil _ (mt List.map_eq_nil_iff.mp reported)
    refine Ends.ofTells (Tells.pure _ group _) ?_
    rw [atRest_queued group fleet sized]
    constructor
    · intro nothing
      exact absurd (nothing 0 manned) pending
    · intro alike
      have same := alike rank inside
      omega
  | ok reply =>
    obtain ⟨all, own⟩ := ended
    have announcedThen (rank : Nat) (inside : rank < group.size) : Announces (further rank) := by
      by_cases first : rank = 0
      · rw [first, own]
        exact announces_handedOver [] arguments.named _
      · exact walked.announces (fun rank _ behind => announces_outstanding _ _ _ rank behind) rank
          inside first
    dsimp only
    rw [lazyFrames_prepared going.fits]
    apply Ends.bind (ends_hearUpdates group fleet _ sized arguments.named.length further
      announcedThen)
    rintro updates middle ⟨rfl, enough⟩
    refine Ends.ofTells (Tells.pure _ group _) ?_
    rw [atRest_queued group fleet sized]
    exact drained_iff output arguments.named (kept call output later) group.size taken further
      walked all own enough

include sized in
/-- A rank whose word on its completion was received had sent it first of all. -/
theorem ends_expectCompleted (lines : Nat → Line) (queue : Nat → List Message) (rank : Nat)
    (inside : rank < group.size)
    (heads : ∀ message rest, queue rank = message :: rest → message = .completed) :
    Ends (receiveOf Message.expectCompleted rank).run group
      (fleet.queued group.link lines queue) fun answer last => answer = .ok () ∧
        ∃ others, queue rank = .completed :: others ∧
          last = fleet.queued group.link lines (Function.update queue rank others) := by
  apply Ends.bindExcept (ends_receive group fleet lines queue rank (sized ▸ inside))
  · rintro message middle ⟨first, others, unread, same, rfl⟩
    obtain rfl := Except.ok.inj same
    obtain rfl := heads _ _ unread
    exact Ends.ofTells (Tells.ofSays (Says.ofExcept _ group _)) ⟨rfl, others, unread, rfl⟩
  · rintro failure middle ⟨first, others, unread, same, -⟩
    cases same

include sized in
/-- Where the word of each of some ranks was awaited, each of them has sent something. -/
theorem ends_expectCompletedEach (lines : Nat → Line) (ranks : List Nat)
    (queue : Nat → List Message) (distinct : ranks.Nodup)
    (inside : ∀ rank ∈ ranks, rank < group.size)
    (heads : ∀ rank ∈ ranks, ∀ message rest, queue rank = message :: rest →
      message = .completed) :
    Ends (ranks.forM (receiveOf Message.expectCompleted)).run group
      (fleet.queued group.link lines queue) fun answer _ =>
        answer = .ok () ∧ ∀ rank ∈ ranks, queue rank ≠ [] := by
  induction ranks generalizing queue with
  | nil =>
    exact Ends.ofTells (Tells.pure _ group _) ⟨rfl, fun rank member => nomatch member⟩
  | cons rank rest inductionHypothesis =>
    obtain ⟨fresh, distinctRest⟩ := List.nodup_cons.mp distinct
    have apart (other : Nat) (member : other ∈ rest) : other ≠ rank := by
      rintro rfl
      exact fresh member
    apply Ends.bindExcept (ends_expectCompleted sized lines queue rank
      (inside rank List.mem_cons_self) (heads rank List.mem_cons_self))
    · rintro value middle ⟨-, others, unread, rfl⟩
      apply Ends.weaken (inductionHypothesis (Function.update queue rank others) distinctRest
        (fun other member => inside other (List.mem_cons_of_mem _ member))
        fun other member message further found => by
          rw [Function.update_of_ne (apart other member)] at found
          exact heads other (List.mem_cons_of_mem _ member) message further found)
      rintro answer last ⟨answered, sent⟩
      refine ⟨answered, ?_⟩
      intro other member
      rcases List.mem_cons.mp member with rfl | later
      · simp [unread]
      · simpa [apart other later] using sent other later
    · rintro failure middle ⟨same, -⟩
      cases same

include sized in
/-- Where the word of every rank was awaited, every rank has sent something. -/
theorem ends_awaitCompletion (lines : Nat → Line) (queue : Nat → List Message)
    (heads : ∀ rank < group.size, ∀ message rest, queue rank = message :: rest →
      message = .completed) :
    Ends awaitCompletion.run group (fleet.queued group.link lines queue) fun _ _ =>
      ∀ rank < group.size, queue rank ≠ [] := by
  apply Ends.weaken (ends_expectCompletedEach sized lines (List.range group.size) queue
    List.nodup_range (fun rank member => List.mem_range.mp member)
    fun rank member => heads rank (List.mem_range.mp member))
  rintro answer last ⟨-, sent⟩ rank inside
  exact sent rank (List.mem_range.mpr inside)

include sized manned in
/-- A call that comes to its end was answered by every rank. -/
theorem answered_of_returns (call : CallId) (fits : prepared.Fits computation arguments)
    (ordered : arguments.IsOrdered)
    (returns : Returns (conduct prepared environment call arguments) group
      (fleet.rest group stores)) (rank : Nat) (inside : rank < group.size) :
    (fleet.worker group.size rank).answer? prepared.computation environment arguments.mentioned
      (arguments.portion computation group.size rank (stores rank)) (stores rank) ≠ none := by
  let line (rank : Nat) : Line := (Line.atRest (fleet.worker group.size rank) (stores rank)).deliverAll
    ((fleet.worker group.size rank).messages call environment computation arguments prepared)
  have placed : fleet.place group.link line =
      fleet.queued group.link line fun rank => (line rank).unread := rfl
  have collecting : Returns ((request prepared environment call).run >>= fun answer =>
      Pure.pure (answer.mapError fun failure => ({ failure } : Abandoned))) group
      (fleet.rest group stores) := returns.first.first
  have requested := collecting.first
  rw [request_give] at requested
  have settled := requested.behind (says_given sized manned call fits ordered)
  have awaited : Returns awaitCompletion.run group (fleet.place group.link line) := settled.first
  have heads (rank : Nat) (inside : rank < group.size) (message : Message) (rest : List Message)
      (unread : (line rank).unread = message :: rest) : message = .completed := by
    cases answered : (fleet.worker group.size rank).answer? prepared.computation environment
        arguments.mentioned (arguments.portion computation group.size rank (stores rank))
        (stores rank) with
    | none =>
      have silent := (fleet.worker group.size rank).deliverAll_call_silent call environment
        computation arguments prepared fits ordered (stores rank) answered
      rw [show (line rank).unread = [] from silent] at unread
      cases unread
    | some outcome =>
      have told := (fleet.worker group.size rank).deliverAll_call call environment computation
        arguments prepared fits ordered (stores rank) outcome.2 outcome.1 answered
      rw [show line rank = _ from told] at unread
      exact (List.cons.inj unread).1.symm
  -- A rank that does not come to an answer says nothing, and the coordinator would wait for its
  -- word.
  intro unanswered
  obtain ⟨value, later, last, returned⟩ := awaited
  obtain ⟨-, sent⟩ := ends_awaitCompletion sized line (fun rank => (line rank).unread) heads
    value later last returned
  exact sent rank inside ((fleet.worker group.size rank).deliverAll_call_silent call environment
    computation arguments prepared fits ordered (stores rank) unanswered)

end Group

namespace Request

/-- No rank fails in the call, and not all ranks come with equally many partitions. -/
def IsUneven (registry : Registry) (size : Nat) (stores : Nat → ResultStore)
    (isLive : Handle → Bool) (surroundings : List (String × String)) (computation : Computation)
    (arguments : CallArguments) : Prop :=
  ∃ (prepared : PreparedCall) (output : Nat → Output) (later : Nat → ResultStore),
    PreparedCall.prepare isLive computation arguments = .ok prepared ∧
    (∀ rank < size, outcome? registry size surroundings computation arguments prepared stores
      rank = some (.ok (output rank), later rank)) ∧
    ∃ rank < size, (output rank).partitions.length ≠ (output 0).partitions.length

end Request

namespace Request

variable {registry : Registry} {size : Nat} {stores : Nat → ResultStore} {isLive : Handle → Bool}
  {surroundings : List (String × String)} {computation : Computation} {arguments : CallArguments}
  {prepared : PreparedCall}

/-- Whether a call is uneven is a matter of the outputs of the ranks. -/
theorem isUneven_iff (ready : PreparedCall.prepare isLive computation arguments = .ok prepared)
    (output : Nat → Output) (later : Nat → ResultStore) (answered : ∀ rank < size,
      outcome? registry size surroundings computation arguments prepared stores rank =
        some (.ok (output rank), later rank)) (manned : 0 < size) :
    ¬ IsUneven registry size stores isLive surroundings computation arguments ↔
      ∀ rank < size, (output rank).partitions.length = (output 0).partitions.length := by
  constructor
  · intro even rank inside
    by_contra apart
    exact even ⟨prepared, output, later, ready, answered, rank, inside, apart⟩
  · rintro alike ⟨found, another, _, readyToo, answeredToo, rank, inside, apart⟩
    obtain rfl := Except.ok.inj (ready.symm.trans readyToo)
    have same (rank : Nat) (inside : rank < size) : output rank = another rank := by
      have both := (answered rank inside).symm.trans (answeredToo rank inside)
      exact Except.ok.inj (Prod.mk.inj (Option.some.inj both)).1
    rw [← same rank inside, ← same 0 manned] at apart
    exact apart (alike rank inside)

/-- A call that fails on some rank is not uneven. -/
theorem not_isUneven_of_failed
    (ready : PreparedCall.prepare isLive computation arguments = .ok prepared)
    (outcome : Nat → Except Failure Output) (later : Nat → ResultStore) (answered : ∀ rank < size,
      outcome? registry size surroundings computation arguments prepared stores rank =
        some (outcome rank, later rank))
    (failed : ∃ rank < size, ∃ failure, outcome rank = .error failure) :
    ¬ IsUneven registry size stores isLive surroundings computation arguments := by
  rintro ⟨found, output, _, readyToo, succeeded, -⟩
  obtain rfl := Except.ok.inj (ready.symm.trans readyToo)
  obtain ⟨rank, inside, failure, failedHere⟩ := failed
  have both := (answered rank inside).symm.trans (succeeded rank inside)
  rw [failedHere] at both
  cases both

end Request

namespace Group

variable {group : Group} {fleet : Fleet} {stores : Nat → ResultStore}
  (sized : fleet.size group.link = group.size) (manned : 0 < group.size)
  (usable : group.isUnusable = false)

include sized manned in
/-- A prepared call that comes to its end was answered by every rank: by all of them with an output,
or by some with a failure. -/
theorem answers_of_returns (isLive : Handle → Bool) (surroundings : List (String × String))
    (call : CallId) (computation : Computation) (arguments : CallArguments)
    (ordered : arguments.IsOrdered) (prepared : PreparedCall)
    (ready : PreparedCall.prepare isLive computation arguments = .ok prepared)
    (returns : Returns (conduct prepared (Environment.forwarded surroundings
      computation.options.propagateEnvironment) call arguments) group (fleet.rest group stores)) :
    (∃ (output : Nat → Output) (later : Nat → ResultStore), ∀ rank < group.size,
      Request.outcome? fleet.registry group.size surroundings computation arguments prepared stores
        rank = some (.ok (output rank), later rank)) ∨
    ∃ (outcome : Nat → Except Failure Output) (later : Nat → ResultStore),
      (∀ rank < group.size, Request.outcome? fleet.registry group.size surroundings computation
        arguments prepared stores rank = some (outcome rank, later rank)) ∧
      ∃ rank < group.size, ∃ failure, outcome rank = .error failure := by
  let answer (rank : Nat) : Except Failure Output × ResultStore :=
    (Request.outcome? fleet.registry group.size surroundings computation arguments prepared stores
      rank).getD (.ok (.tuple []), [])
  have answered (rank : Nat) (inside : rank < group.size) :
      Request.outcome? fleet.registry group.size surroundings computation arguments prepared stores
        rank = some ((answer rank).1, (answer rank).2) := by
    have something := answered_of_returns sized manned call
      (PreparedCall.prepare_ok isLive computation arguments prepared ready) ordered returns rank
      inside
    obtain ⟨found, is⟩ := Option.ne_none_iff_exists'.mp something
    have same : answer rank = found := congrArg (Option.getD · _) is
    rw [same]
    exact is
  by_cases succeeds : ∀ rank < group.size, ∃ output, (answer rank).1 = .ok output
  · obtain ⟨output, found⟩ := Request.outputs_of_succeeds _ succeeds
    refine .inl ⟨output, fun rank => (answer rank).2, ?_⟩
    intro rank inside
    exact found rank inside ▸ answered rank inside
  · refine .inr ⟨fun rank => (answer rank).1, fun rank => (answer rank).2, answered, ?_⟩
    simp only [not_forall] at succeeds
    obtain ⟨rank, inside, failed⟩ := succeeds
    cases found : (answer rank).1 with
    | error failure => exact ⟨rank, inside, failure, found⟩
    | ok output => exact absurd ⟨output, found⟩ failed

include sized manned in
/-- What a prepared call that comes to its end leaves. -/
theorem ends_prepared (isLive : Handle → Bool) (surroundings : List (String × String))
    (call : CallId) (computation : Computation) (arguments : CallArguments)
    (ordered : arguments.IsOrdered) (prepared : PreparedCall)
    (ready : PreparedCall.prepare isLive computation arguments = .ok prepared) :
    Ends (conduct prepared (Environment.forwarded surroundings
        computation.options.propagateEnvironment) call arguments) group (fleet.rest group stores)
      fun _ last => (∃ store, last.AtRest group store) ↔
        ¬ Request.IsUneven fleet.registry group.size stores isLive surroundings computation
          arguments := by
  intro value after last returned
  rcases answers_of_returns sized manned isLive surroundings call computation arguments ordered
    prepared ready ⟨value, after, last, returned⟩ with
    ⟨output, later, answered⟩ | ⟨outcome, later, answered, rank, inside, failed⟩
  · have going := Request.going_of_answered stores isLive surroundings computation arguments
      prepared ready ordered later (fun rank => .ok (output rank)) answered
    rw [Request.isUneven_iff ready output _ answered manned]
    exact ends_conduct sized manned call output going value after last returned
  · obtain ⟨failure, combined⟩ := Request.combine_of_failed outcome rank inside failed
    have going := Request.going_of_answered stores isLive surroundings computation arguments
      prepared ready ordered later outcome answered
    have told := tells_conduct_failed sized manned call failure going combined
    have even := Request.not_isUneven_of_failed ready _ _ answered ⟨rank, inside, failed⟩
    obtain ⟨same, rfl⟩ := Prod.mk.inj (Option.some.inj (told.symm.trans returned))
    obtain ⟨-, rfl⟩ := Prod.mk.inj same
    exact ⟨rfl, iff_of_true ⟨_, Fleet.atRest_rest sized⟩ even⟩

include sized manned in
/-- A prepared call that gives a reply was answered by every rank with an output. -/
theorem ends_conduct_answered (isLive : Handle → Bool) (surroundings : List (String × String))
    (call : CallId) (computation : Computation) (arguments : CallArguments)
    (ordered : arguments.IsOrdered) (prepared : PreparedCall)
    (ready : PreparedCall.prepare isLive computation arguments = .ok prepared) :
    Ends (conduct prepared (Environment.forwarded surroundings
        computation.options.propagateEnvironment) call arguments) group (fleet.rest group stores)
      fun called _ => (∃ reply, called.outcome = .ok reply) →
        ∃ (output : Nat → Output) (later : Nat → ResultStore), ∀ rank < group.size,
          Request.outcome? fleet.registry group.size surroundings computation arguments prepared
            stores rank = some (.ok (output rank), later rank) := by
  intro value after last returned
  refine ⟨(ends_prepared sized manned isLive surroundings call computation arguments ordered
    prepared ready value after last returned).1, ?_⟩
  rintro ⟨reply, replied⟩
  rcases answers_of_returns sized manned isLive surroundings call computation arguments ordered
    prepared ready ⟨value, after, last, returned⟩ with
    answered | ⟨outcome, later, answered, rank, inside, failed⟩
  · exact answered
  · obtain ⟨failure, combined⟩ := Request.combine_of_failed outcome rank inside failed
    have going := Request.going_of_answered stores isLive surroundings computation arguments
      prepared ready ordered later outcome answered
    have told := tells_conduct_failed sized manned call failure going combined
    obtain ⟨same, -⟩ := Prod.mk.inj (Option.some.inj (told.symm.trans returned))
    obtain ⟨rfl, -⟩ := Prod.mk.inj same
    cases replied

include usable in
/-- A call that can be prepared ends as the prepared call does. -/
theorem ends_submit_of_conduct (isLive : Handle → Bool) (surroundings : List (String × String))
    (call : CallId) (computation : Computation) (arguments : CallArguments) (prepared : PreparedCall)
    (ready : PreparedCall.prepare isLive computation arguments = .ok prepared)
    (holds : CallEnd → Fleet → Prop)
    (ends : Ends (conduct prepared (Environment.forwarded surroundings
      computation.options.propagateEnvironment) call arguments) group fleet holds) :
    Ends (submit isLive surroundings call computation arguments) group fleet holds := by
  have begun := Tells.ofSays (says_ensureUsable group fleet usable)
  have first : Ends ensureUsable.run group fleet fun answer last =>
      answer = .ok () ∧ last = fleet := Ends.ofTells begun ⟨rfl, rfl⟩
  apply Ends.bind first
  rintro answer middle ⟨rfl, rfl⟩
  simp only [ready]
  exact ends

include sized manned usable in
/-- A call to a group at rest that comes to its end leaves the group at rest, unless no rank fails
and not all ranks come with equally many partitions. -/
theorem ends_submit (isLive : Handle → Bool) (surroundings : List (String × String)) (call : CallId)
    (computation : Computation) (arguments : CallArguments) (ordered : arguments.IsOrdered) :
    Ends (submit isLive surroundings call computation arguments) group (fleet.rest group stores)
      fun _ last => (∃ store, last.AtRest group store) ↔
        ¬ Request.IsUneven fleet.registry group.size stores isLive surroundings computation
          arguments := by
  cases ready : PreparedCall.prepare isLive computation arguments with
  | error failure =>
    apply Ends.ofTells (tells_submit_refused isLive surroundings call computation arguments failure
      usable ready)
    refine iff_of_true ⟨_, Fleet.atRest_rest sized⟩ ?_
    rintro ⟨prepared, _, _, found, -⟩
    rw [ready] at found
    cases found
  | ok prepared =>
    exact ends_submit_of_conduct usable isLive surroundings call computation arguments prepared ready
      _ (ends_prepared sized manned isLive surroundings call computation arguments ordered prepared
        ready)

include sized manned usable in
/-- A call to a group at rest that gives a reply was answered by every rank with an output. -/
theorem ends_submit_answered (isLive : Handle → Bool) (surroundings : List (String × String))
    (call : CallId) (computation : Computation) (arguments : CallArguments)
    (ordered : arguments.IsOrdered) :
    Ends (submit isLive surroundings call computation arguments) group (fleet.rest group stores)
      fun called _ => (∃ reply, called.outcome = .ok reply) →
        ∃ prepared, PreparedCall.prepare isLive computation arguments = .ok prepared ∧
          ∃ (output : Nat → Output) (later : Nat → ResultStore), ∀ rank < group.size,
            Request.outcome? fleet.registry group.size surroundings computation arguments prepared
              stores rank = some (.ok (output rank), later rank) := by
  cases ready : PreparedCall.prepare isLive computation arguments with
  | error failure =>
    apply Ends.ofTells (tells_submit_refused isLive surroundings call computation arguments failure
      usable ready)
    rintro ⟨reply, replied⟩
    cases replied
  | ok prepared =>
    apply ends_submit_of_conduct usable isLive surroundings call computation arguments prepared ready
    apply (ends_conduct_answered sized manned isLive surroundings call computation arguments ordered
      prepared ready).weaken
    intro called last answered replied
    exact ⟨prepared, rfl, answered replied⟩

end Group

end Rankwise
