import Rankwise.Proofs.Fleet

/-!
# Talk with workers that act at once

`Says` tells the result of a piece of talk with the workers of a group and the fleet after it. Talk
touches the lines of one group only, so fleets are described by what the lines of that group are
(`Fleet.place`). From rules for sending to one rank and for receiving from one rank follow those for
all ranks: a broadcast or a scatter hands one message to each worker, and a gathering takes the
first unread message of each.
-/

namespace Rankwise

namespace Fleet

variable (fleet : Fleet) (link : Link)

/-- Puts these lines in the places of the workers of a group. -/
def place (lines : Nat → Line) : Fleet := fleet.changeAll link fun rank _ => lines rank

/-- To change all lines changes no size. -/
@[simp] theorem size_changeAll (other : Link) (update : Nat → Line → Line) :
    (fleet.changeAll link update).size other = fleet.size other := rfl

/-- To place lines changes no size. -/
@[simp] theorem size_place (other : Link) (lines : Nat → Line) :
    (fleet.place link lines).size other = fleet.size other := rfl

/-- Lines that are placed are found by rank. -/
theorem line_place (lines : Nat → Line) (rank : Nat) (inside : rank < fleet.size link) :
    (fleet.place link lines).line link rank = lines rank := by
  simp [place, changeAll, inside]

/-- Only the lines of the workers of the group matter. -/
theorem place_congr (lines others : Nat → Line)
    (agree : ∀ rank < fleet.size link, lines rank = others rank) :
    fleet.place link lines = fleet.place link others := by
  simp only [place, changeAll, Fleet.mk.injEq, true_and]
  congr 1
  funext rank
  by_cases inside : rank < fleet.size link
  · simp [inside, agree rank inside]
  · simp [inside]

/-- A fleet is what it is made of. -/
theorem place_line : fleet.place link (fleet.line link) = fleet := by
  simp [place, changeAll]

/-- To change one of the lines that were placed is to place them with the change. -/
theorem change_place (lines : Nat → Line) (rank : Nat) (update : Line → Line)
    (inside : rank < fleet.size link) :
    (fleet.place link lines).change link rank update =
      fleet.place link (Function.update lines rank (update (lines rank))) := by
  simp only [change, line_place _ _ _ _ inside]
  simp only [place, changeAll, Fleet.mk.injEq, true_and, Function.update_idem]
  congr 1
  funext other
  by_cases here : other = rank
  · subst here
    simp [inside]
  · simp [here]

end Fleet

/-- With workers that act at once, the talk comes to this answer and leaves this fleet. The group is
the same as before. -/
def Says {ε α : Type} (talk : ExceptT ε (StateT Group Dialogue) α) (group : Group) (fleet : Fleet)
    (answer : Except ε α) (later : Fleet) : Prop :=
  (talk.run.run group).run Fleet.outside fleet = some ((answer, group), later)

namespace Says

variable {ε α β : Type} {talk : ExceptT ε (StateT Group Dialogue) α}
  {continuation : α → ExceptT ε (StateT Group Dialogue) β} {group : Group}
  {fleet middle later : Fleet} {value : α} {failure : ε} {answer : Except ε β}

/-- To give a value is to say nothing. -/
theorem pure (value : α) (group : Group) (fleet : Fleet) :
    Says (ε := ε) (Pure.pure value) group fleet (.ok value) fleet := rfl

/-- To fail is to say nothing. -/
theorem throw (failure : ε) (group : Group) (fleet : Fleet) :
    Says (α := α) (MonadExcept.throw failure) group fleet (.error failure) fleet := rfl

/-- To give an outcome is to say nothing. -/
theorem ofExcept (result : Except ε α) (group : Group) (fleet : Fleet) :
    Says (ExceptT.mk (Pure.pure result)) group fleet result fleet := rfl

/-- Two talks follow one another. -/
theorem bind (first : Says talk group fleet (.ok value) middle)
    (second : Says (continuation value) group middle answer later) :
    Says (talk >>= continuation) group fleet answer later := by
  have whole := Dialogue.run_bind Fleet.outside (talk.run.run group)
    (fun reached => ExceptT.bindCont continuation reached.1 reached.2) fleet
  rw [first] at whole
  exact whole.trans second

/-- A talk that fails is not gone on with. -/
theorem bindError (first : Says talk group fleet (.error failure) later) :
    Says (talk >>= continuation) group fleet (.error failure) later := by
  have whole := Dialogue.run_bind Fleet.outside (talk.run.run group)
    (fun reached => ExceptT.bindCont continuation reached.1 reached.2) fleet
  rw [first] at whole
  exact whole

/-- The same with the fleet written in another way. -/
theorem placed {later last : Fleet} {answer : Except ε α} (spoken : Says talk group fleet answer later)
    (same : later = last) : Says talk group fleet answer last := same ▸ spoken

/-- Talk that begins with a look at the group. -/
theorem bindGet {continuation : Group → ExceptT ε (StateT Group Dialogue) β}
    (second : Says (continuation group) group fleet answer later) :
    Says (MonadState.get >>= continuation) group fleet answer later :=
  second

/-- Talk that goes well, used while results are collected. -/
theorem collecting {talk : Talk α} (spoken : Says talk group fleet (.ok value) later) :
    Says (liftM talk : Collecting α) group fleet (.ok value) later := by
  have whole := Dialogue.run_bind Fleet.outside (talk.run.run group)
    (fun reached =>
      .done (reached.1.mapError fun failure => ({ failure } : Abandoned), reached.2)) fleet
  rw [spoken] at whole
  exact whole

/-- Talk that fails, used while results are collected. -/
theorem collectingError {talk : Talk α} {failure : Failure}
    (spoken : Says talk group fleet (.error failure) later) :
    Says (liftM talk : Collecting α) group fleet (.error { failure }) later := by
  have whole := Dialogue.run_bind Fleet.outside (talk.run.run group)
    (fun reached =>
      .done (reached.1.mapError fun failure => ({ failure } : Abandoned), reached.2)) fleet
  rw [spoken] at whole
  exact whole

end Says

namespace Group

variable (group : Group) (fleet : Fleet) (lines : Nat → Line)

/-- Sending to one rank. -/
theorem says_send (rank : Nat) (message : Message) (inside : rank < fleet.size group.link) :
    Says (send rank message) group (fleet.place group.link lines) (.ok ())
      (fleet.place group.link (Function.update lines rank ((lines rank).deliver message))) := by
  have sent := Fleet.send_inside (fleet.place group.link lines) group.link rank message inside
  rw [Fleet.change_place _ _ _ _ _ inside] at sent
  show Option.bind (Fleet.outside.send _ _ _ _) _ = _
  rw [sent]
  rfl

/-- Receiving from one rank. -/
theorem says_receive (rank : Nat) (message : Message) (rest : List Message)
    (inside : rank < fleet.size group.link) (unread : (lines rank).unread = message :: rest) :
    Says (receive rank) group (fleet.place group.link lines) (.ok message)
      (fleet.place group.link
        (Function.update lines rank { lines rank with unread := rest })) := by
  have received := Fleet.receive_unread (fleet.place group.link lines) group.link rank message rest
    inside (by rw [Fleet.line_place _ _ _ _ inside, unread])
  rw [Fleet.change_place _ _ _ _ _ inside] at received
  show Option.bind (Fleet.outside.receive _ _ _) _ = _
  rw [received]
  rfl

/-- Talk with some ranks, one after the other, each of which touches the line of its rank only. -/
theorem says_forM (ranks : List Nat) (talk : Nat → Talk Unit) (update : Nat → Line → Line)
    (distinct : ranks.Nodup)
    (each : ∀ rank ∈ ranks, ∀ others : Nat → Line, others rank = lines rank →
      Says (talk rank) group (fleet.place group.link others) (.ok ())
        (fleet.place group.link (Function.update others rank (update rank (lines rank))))) :
    Says (ranks.forM talk) group (fleet.place group.link lines) (.ok ())
      (fleet.place group.link fun rank =>
        if rank ∈ ranks then update rank (lines rank) else lines rank) := by
  induction ranks generalizing lines with
  | nil => simpa using Says.pure () group (fleet.place group.link lines)
  | cons rank rest inductionHypothesis =>
    obtain ⟨fresh, distinctRest⟩ := List.nodup_cons.mp distinct
    have apart (other : Nat) (member : other ∈ rest) : other ≠ rank := by
      rintro rfl
      exact fresh member
    refine Says.bind (each rank List.mem_cons_self lines rfl) ?_
    have later := inductionHypothesis (Function.update lines rank (update rank (lines rank)))
      distinctRest fun other member others same => by
        rw [Function.update_of_ne (apart other member)] at same ⊢
        exact each other (List.mem_cons_of_mem _ member) others same
    refine later.placed (congrArg _ (funext fun other => ?_))
    by_cases here : other = rank
    · subst here
      simp [fresh]
    · simp [here]

/-- The same for talk that gives something for each rank. -/
theorem says_mapM {α : Type} (ranks : List Nat) (talk : Nat → Talk α) (value : Nat → α)
    (update : Nat → Line → Line) (distinct : ranks.Nodup)
    (each : ∀ rank ∈ ranks, ∀ others : Nat → Line, others rank = lines rank →
      Says (talk rank) group (fleet.place group.link others) (.ok (value rank))
        (fleet.place group.link (Function.update others rank (update rank (lines rank))))) :
    Says (ranks.mapM talk) group (fleet.place group.link lines) (.ok (ranks.map value))
      (fleet.place group.link fun rank =>
        if rank ∈ ranks then update rank (lines rank) else lines rank) := by
  induction ranks generalizing lines with
  | nil => simpa using Says.pure [] group (fleet.place group.link lines)
  | cons rank rest inductionHypothesis =>
    obtain ⟨fresh, distinctRest⟩ := List.nodup_cons.mp distinct
    have apart (other : Nat) (member : other ∈ rest) : other ≠ rank := by
      rintro rfl
      exact fresh member
    rw [List.mapM_cons]
    refine Says.bind (each rank List.mem_cons_self lines rfl) ?_
    have later := inductionHypothesis (Function.update lines rank (update rank (lines rank)))
      distinctRest fun other member others same => by
        rw [Function.update_of_ne (apart other member)] at same ⊢
        exact each other (List.mem_cons_of_mem _ member) others same
    refine Says.bind later ((Says.pure _ group _).placed (congrArg _ (funext fun other => ?_)))
    by_cases here : other = rank
    · subst here
      simp [fresh]
    · simp [here]

variable (sized : fleet.size group.link = group.size)

include sized in
/-- Lines of all ranks of the group are the lines of the group. -/
theorem place_ranks (update : Nat → Line → Line) :
    (fleet.place group.link fun rank =>
        if rank ∈ List.range group.size then update rank (lines rank) else lines rank) =
      fleet.place group.link fun rank => update rank (lines rank) := by
  refine Fleet.place_congr _ _ _ _ fun rank inside => ?_
  simp [sized ▸ inside]

include sized in
/-- Talk with all ranks, one after the other. -/
theorem says_forRanks (talk : Nat → Talk Unit) (update : Nat → Line → Line)
    (each : ∀ rank < group.size, ∀ others : Nat → Line, others rank = lines rank →
      Says (talk rank) group (fleet.place group.link others) (.ok ())
        (fleet.place group.link (Function.update others rank (update rank (others rank))))) :
    Says ((List.range group.size).forM talk) group (fleet.place group.link lines) (.ok ())
      (fleet.place group.link fun rank => update rank (lines rank)) :=
  (says_forM group fleet lines _ talk update List.nodup_range fun rank member others same =>
    same ▸ each rank (List.mem_range.mp member) others same).placed
      (place_ranks group fleet lines sized update)

include sized in
/-- The same for talk that gives something for each rank. -/
theorem says_mapRanks {α : Type} (talk : Nat → Talk α) (value : Nat → α)
    (update : Nat → Line → Line)
    (each : ∀ rank < group.size, ∀ others : Nat → Line, others rank = lines rank →
      Says (talk rank) group (fleet.place group.link others) (.ok (value rank))
        (fleet.place group.link (Function.update others rank (update rank (others rank))))) :
    Says ((List.range group.size).mapM talk) group (fleet.place group.link lines)
      (.ok ((List.range group.size).map value))
      (fleet.place group.link fun rank => update rank (lines rank)) :=
  (says_mapM group fleet lines _ talk value update List.nodup_range fun rank member others same =>
    same ▸ each rank (List.mem_range.mp member) others same).placed
      (place_ranks group fleet lines sized update)

include sized in
/-- Sending each rank something of its own. -/
theorem says_sendAll (message : Nat → Message) :
    Says ((List.range group.size).forM fun rank => send rank (message rank)) group
      (fleet.place group.link lines) (.ok ())
      (fleet.place group.link fun rank => (lines rank).deliver (message rank)) :=
  says_forRanks group fleet lines sized _ (fun rank line => line.deliver (message rank))
    fun rank inside others _ => says_send group fleet others rank (message rank) (sized ▸ inside)

include sized in
/-- Sending to every rank. -/
theorem says_broadcast (message : Message) :
    Says (broadcast message) group (fleet.place group.link lines) (.ok ())
      (fleet.place group.link fun rank => (lines rank).deliver message) :=
  Says.bindGet (says_sendAll group fleet lines sized fun _ => message)

/-- What is listed by rank is numbered by rank. -/
theorem zipIdx_ranks {α : Type} (size : Nat) (content : Nat → α) :
    ((List.range size).map content).zipIdx = (List.range size).map fun rank => (content rank, rank) :=
  List.ext_getElem (by simp) fun _ _ _ => by simp

include sized in
/-- Sending each rank a message of its own, given as a list. -/
theorem says_scatter (message : Nat → Message) :
    Says (scatter ((List.range group.size).map message)) group (fleet.place group.link lines)
      (.ok ())
      (fleet.place group.link fun rank => (lines rank).deliver (message rank)) := by
  refine Says.bindGet ?_
  rw [List.length_map, List.length_range, if_neg (not_not_intro rfl), zipIdx_ranks]
  simp only [List.forM_eq_forM, List.forM_map]
  exact says_sendAll group fleet lines sized message

include sized in
/-- Awaiting one message from every rank. -/
theorem says_gather (message : Nat → Message) (rest : Nat → List Message)
    (unread : ∀ rank < group.size, (lines rank).unread = message rank :: rest rank) :
    Says gather group (fleet.place group.link lines) (.ok ((List.range group.size).map message))
      (fleet.place group.link fun rank => { lines rank with unread := rest rank }) := by
  refine Says.bindGet ?_
  refine says_mapRanks group fleet lines sized receive message
    (fun rank line => { line with unread := rest rank }) fun rank inside others same => ?_
  exact says_receive group fleet others rank (message rank) (rest rank) (sized ▸ inside)
    (by rw [same, unread rank inside])

include sized in
/-- Awaiting one message of the expected kind from every rank. -/
theorem says_gatherOf {α : Type} (select : Message → Except Failure α) (message : Nat → Message)
    (content : Nat → α) (rest : Nat → List Message)
    (selected : ∀ rank < group.size, select (message rank) = .ok (content rank))
    (unread : ∀ rank < group.size, (lines rank).unread = message rank :: rest rank) :
    Says (gatherOf select) group (fleet.place group.link lines)
      (.ok ((List.range group.size).map content))
      (fleet.place group.link fun rank => { lines rank with unread := rest rank }) := by
  refine Says.bind (says_gather group fleet lines sized message rest unread) ?_
  have all (ranks : List Nat) (inside : ∀ rank ∈ ranks, rank < group.size) :
      (ranks.map message).mapM select = .ok (ranks.map content) := by
    induction ranks with
    | nil => rfl
    | cons rank others inductionHypothesis =>
      rw [List.map_cons, List.mapM_cons, selected rank (inside rank List.mem_cons_self),
        inductionHypothesis fun other member => inside other (List.mem_cons_of_mem _ member)]
      rfl
  rw [all _ fun rank member => List.mem_range.mp member]
  exact Says.ofExcept _ group _

/-- Awaiting a message of the expected kind from a rank. -/
theorem says_receiveOf {α : Type} (select : Message → Except Failure α) (rank : Nat)
    (message : Message) (content : α) (rest : List Message)
    (inside : rank < fleet.size group.link) (selected : select message = .ok content)
    (unread : (lines rank).unread = message :: rest) :
    Says (receiveOf select rank) group (fleet.place group.link lines) (.ok content)
      (fleet.place group.link
        (Function.update lines rank { lines rank with unread := rest })) := by
  refine Says.bind (says_receive group fleet lines rank message rest inside unread) ?_
  rw [selected]
  exact Says.ofExcept _ group _

include sized in
/-- Awaiting the word of every rank that it is done. -/
theorem says_awaitCompletion (rest : Nat → List Message)
    (unread : ∀ rank < group.size, (lines rank).unread = .completed :: rest rank) :
    Says awaitCompletion group (fleet.place group.link lines) (.ok ())
      (fleet.place group.link fun rank => { lines rank with unread := rest rank }) := by
  refine Says.bindGet ?_
  refine says_forRanks group fleet lines sized _
    (fun rank line => { line with unread := rest rank }) fun rank inside others same => ?_
  exact says_receiveOf group fleet others Message.expectCompleted rank .completed () (rest rank)
    (sized ▸ inside) rfl (by rw [same, unread rank inside])

end Group

end Rankwise
