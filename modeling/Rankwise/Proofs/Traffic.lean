import Mathlib.Algebra.Order.BigOperators.Group.Finset
import Mathlib.Data.Prod.Lex
import Mathlib.Logic.Relation
import Rankwise.Proofs.Fleet
import Rankwise.Proofs.Reception

/-!
# Coordinator and workers side by side

The coordinator and every worker go on independently of one another. What the coordinator sends to a
worker lies ahead of that worker until it is taken; what a worker sends lies on its wire until it
arrives in the inbox of the group, where the messages of all ranks come together in the order of
their arrival. Each of these moves is a step, and any order of steps may occur. Connections do not
fail here: a worker that has ended is silent.

Main statement: every order of steps comes to the same end. If the dialogue comes to its end with
the workers acting at once (`Fleet.outside`), then no state on the way to it is stuck, every
sequence of steps is finite, and wherever the dialogue is over its value is the same and the
workers, after taking what lies ahead of them, stand where they stand there.

The proof needs no commutation of steps. Letting all workers go on as far as they can maps a state
to a fleet; steps of workers and arrivals do not change this fleet, and a step of the coordinator is
the same step there.
-/

namespace Rankwise

/-- A worker with the messages that are under way to it and from it. -/
structure Lane where
  worker : Worker
  /-- What was sent to the worker and was not taken, in order. -/
  ahead : List Message := []
  work : Work
  /-- What the worker has sent and what has not arrived, in order. -/
  wire : List Message := []

namespace Lane

/-- The next step of the worker itself: it sends, it takes what lies ahead, or it turns to the next
command. A worker that waits for a message that nobody has sent makes no step, nor does one that has
ended. -/
def step? (lane : Lane) : Option Lane :=
  match lane.work with
  | .send message next =>
    some { lane with work := next (.ok ()), wire := lane.wire ++ [message] }
  | .receive next =>
    match lane.ahead with
    | [] => none
    | message :: rest => some { lane with ahead := rest, work := next (.ok message) }
  | .done (.ok (), store) => some { lane with work := .receive (lane.worker.next store) }
  | .done (.error _, _) => none

/-- The worker will not go on unless something is sent to it, and nothing of it is on the wire. -/
def IsQuiet (lane : Lane) : Prop := lane.step? = none ∧ lane.wire = []

instance (lane : Lane) : Decidable lane.IsQuiet :=
  decidable_of_iff (lane.step?.isNone = true ∧ lane.wire.isEmpty = true) (by simp [IsQuiet])

/-- The line to which the lane comes when the worker goes on as far as it can. -/
def settled (lane : Lane) (arrived : List Message) : Line :=
  let (sent, station) := Station.settled lane.worker lane.work
  { worker := lane.worker
    station := (station.deliverAll lane.worker lane.ahead).2
    unread := arrived ++ lane.wire ++ sent ++ (station.deliverAll lane.worker lane.ahead).1 }

/-- What has arrived already has no part in how the worker goes on. -/
theorem settled_arrived (lane : Lane) (arrived : List Message) :
    lane.settled arrived =
      { lane.settled [] with unread := arrived ++ (lane.settled []).unread } := by
  simp [settled]

/-- A worker that makes a step was on its way to where it stands when it has settled. -/
theorem settled_step (lane next : Lane) (arrived : List Message)
    (advanced : lane.step? = some next) : next.settled arrived = lane.settled arrived := by
  obtain ⟨worker, ahead, work, wire⟩ := lane
  cases work with
  | send message continuation =>
    obtain rfl := Option.some.inj advanced
    simp [settled, Station.settled_send]
  | receive continuation =>
    cases ahead with
    | nil => cases advanced
    | cons message rest =>
      obtain rfl := Option.some.inj advanced
      simp [settled, Station.deliverAll_cons]
  | done result =>
    obtain ⟨_ | _, store⟩ := result
    · cases advanced
    · obtain rfl := Option.some.inj advanced
      rfl

/-- What is sent to a worker is taken after everything that lies ahead. -/
theorem settled_send_ahead (lane : Lane) (arrived : List Message) (message : Message) :
    { lane with ahead := lane.ahead ++ [message] }.settled arrived =
      (lane.settled arrived).deliver message := by
  rw [← Line.deliverAll_singleton]
  simp [settled, Line.deliverAll, Station.deliverAll_append]

/-- A quiet worker has already settled. -/
theorem settled_quiet (lane : Lane) (arrived : List Message) (quiet : lane.IsQuiet) :
    (lane.settled arrived).unread = arrived := by
  obtain ⟨worker, ahead, work, wire⟩ := lane
  obtain ⟨still, rfl : wire = []⟩ := quiet
  cases work with
  | send message continuation => cases still
  | receive continuation =>
    cases ahead with
    | nil => simp [settled]
    | cons message rest => cases still
  | done result =>
    obtain ⟨how | _, store⟩ := result
    · simp [settled, Station.settled, Session.settle, Station.deliverAll_ended]
    · cases still

/-- The worker learns that its connection is closed. Only a worker that waits is told. -/
def close (lane : Lane) : Lane :=
  match lane.work with
  | .receive next => { lane with work := next (.error Crews.closedByCoordinator) }
  | _ => lane

/-- To tell a quiet worker is to tell it once it has settled. -/
theorem settled_close (lane : Lane) (arrived : List Message) (quiet : lane.IsQuiet) :
    lane.close.settled arrived = (lane.settled arrived).close := by
  obtain ⟨worker, ahead, work, wire⟩ := lane
  obtain ⟨still, rfl : wire = []⟩ := quiet
  cases work with
  | send message continuation => cases still
  | receive continuation =>
    cases ahead with
    | nil => simp [settled, close, Line.close]
    | cons message rest => cases still
  | done result =>
    obtain ⟨how | _, store⟩ := result
    · simp [settled, close, Line.close, Station.settled, Session.settle,
        Station.deliverAll_ended, Station.deliver]
    · cases still

/-! A worker makes only so many steps on what was sent to it. -/

/-- The number of steps of a worker on the command at hand, up to its next wait. -/
def strides : Work → Nat
  | .send _ next => strides (next (.ok ())) + 1
  | .receive _ => 0
  | .done (.ok _, _) => 1
  | .done (.error _, _) => 0

/-- The number of steps of a worker on what lies ahead. -/
def effortAhead (worker : Worker) : Station → List Message → Nat
  | .ended _, _ => 0
  | .waiting _, [] => 0
  | .waiting next, message :: rest =>
    1 + strides (next (.ok message)) +
      effortAhead worker (Station.settled worker (next (.ok message))).2 rest

/-- The number of steps that a worker makes if nothing more is sent to it. -/
def effort (lane : Lane) : Nat :=
  strides lane.work + effortAhead lane.worker (Station.settled lane.worker lane.work).2 lane.ahead

/-- The number of steps of a worker and of what it sends. -/
def remaining (lane : Lane) : Nat := 2 * lane.effort + lane.wire.length

/-- A step of a worker takes one from the number of its steps. -/
theorem effort_step (lane next : Lane) (advanced : lane.step? = some next) :
    lane.effort = next.effort + 1 := by
  obtain ⟨worker, ahead, work, wire⟩ := lane
  cases work with
  | send message continuation =>
    obtain rfl := Option.some.inj advanced
    simp only [effort, strides, Station.settled_send]
    omega
  | receive continuation =>
    cases ahead with
    | nil => cases advanced
    | cons message rest =>
      obtain rfl := Option.some.inj advanced
      simp only [effort, strides, Station.settled_receive, effortAhead]
      omega
  | done result =>
    obtain ⟨_ | _, store⟩ := result
    · cases advanced
    · obtain rfl := Option.some.inj advanced
      simp only [effort, strides, Station.settled, Session.settle]
      omega

/-- A step of a worker puts at most one message on the wire. -/
theorem wire_step (lane next : Lane) (advanced : lane.step? = some next) :
    next.wire.length ≤ lane.wire.length + 1 := by
  obtain ⟨worker, ahead, work, wire⟩ := lane
  cases work with
  | send message continuation =>
    obtain rfl := Option.some.inj advanced
    simp
  | receive continuation =>
    cases ahead with
    | nil => cases advanced
    | cons message rest =>
      obtain rfl := Option.some.inj advanced
      simp
  | done result =>
    obtain ⟨_ | _, store⟩ := result
    · cases advanced
    · obtain rfl := Option.some.inj advanced
      simp

/-- So with every step less remains, the messages on the wire included. -/
theorem remaining_step (lane next : Lane) (advanced : lane.step? = some next) :
    next.remaining < lane.remaining := by
  have fewer := effort_step lane next advanced
  have longer := wire_step lane next advanced
  simp only [remaining]
  omega

end Lane

namespace Inbox

/-- Only messages of the ranks of the group have arrived. -/
def FromRanks (inbox : Inbox) (size : Nat) : Prop :=
  inbox.aside.length = size ∧ ∀ inbound ∈ inbox.queue, ∃ rank message,
    inbound = .message rank message ∧ rank < size

/-- Something arrives. -/
def arrive (inbox : Inbox) (rank : Nat) (message : Message) : Inbox :=
  { inbox with queue := inbox.queue ++ [.message rank message] }

/-- What arrives is unread from its sender and from no other rank. -/
theorem unread_arrive (inbox : Inbox) (sender rank : Nat) (message : Message) :
    (inbox.arrive sender message).unread rank =
      inbox.unread rank ++ if sender = rank then [message] else [] := by
  by_cases same : sender = rank <;> simp [unread, arrive, same]

/-- Only messages of the ranks have arrived if that holds of the next one, too. -/
theorem fromRanks_arrive (inbox : Inbox) (size rank : Nat) (message : Message)
    (fromRanks : inbox.FromRanks size) (inside : rank < size) :
    (inbox.arrive rank message).FromRanks size := by
  refine ⟨fromRanks.1, fun inbound member => ?_⟩
  rcases List.mem_append.mp member with before | last
  · exact fromRanks.2 inbound before
  · exact ⟨rank, message, List.mem_singleton.mp last, inside⟩

/-- Messages of the ranks come from the group. -/
theorem isFromGroup_of_fromRanks {inbox : Inbox} {size : Nat} (fromRanks : inbox.FromRanks size) :
    ∀ item ∈ inbox.queue, item.isFromGroup inbox.aside.length = true := by
  intro item member
  obtain ⟨rank, message, rfl, inside⟩ := fromRanks.2 item member
  exact decide_eq_true (fromRanks.1.symm ▸ inside)

/-- Where only messages of the ranks arrive, all that is unread is at hand. -/
theorem atHand_of_fromRanks {inbox : Inbox} {size : Nat} (fromRanks : inbox.FromRanks size)
    (rank : Nat) : inbox.atHand inbox.aside.length rank = inbox.unread rank := by
  rw [atHand, List.takeWhile_eq_self_iff.mpr (isFromGroup_of_fromRanks fromRanks), unread_eq]

/-- Where only messages of the ranks arrive, a call gives the first unread message of its rank. -/
theorem receive_first {inbox : Inbox} {rank size : Nat} (fromRanks : inbox.FromRanks size)
    (inside : rank < size) :
    (inbox.receive rank true).map Prod.fst = (inbox.unread rank).head?.map Except.ok := by
  have none : inbox.queue.find? (fun item => !item.isFromGroup inbox.aside.length) = none :=
    List.find?_eq_none.mpr fun item member => by
      simp [isFromGroup_of_fromRanks fromRanks item member]
  rw [receive_verdict, verdict, if_pos (fromRanks.1.symm ▸ inside), none,
    atHand_of_fromRanks fromRanks]
  cases inbox.unread rank <;> rfl

/-- From outside the group nothing is unread. -/
theorem unread_beyond {inbox : Inbox} {rank size : Nat} (fromRanks : inbox.FromRanks size)
    (beyond : ¬ rank < size) : inbox.unread rank = [] := by
  have none : messagesOf rank inbox.queue = [] :=
    List.filterMap_eq_nil_iff.mpr fun item member => by
      obtain ⟨sender, message, rfl, inside⟩ := fromRanks.2 item member
      have foreign : sender ≠ rank := fun same => beyond (same ▸ inside)
      exact if_neg foreign
  rw [unread_eq, none, List.getElem?_eq_none (fromRanks.1.symm ▸ Nat.le_of_not_lt beyond)]
  rfl

/-- Receiving takes the first unread message of the rank and leaves the messages of all other ranks
as they are. -/
theorem receive_exact (inbox next : Inbox) (rank size : Nat) (answer : Except Failure Message)
    (fromRanks : inbox.FromRanks size) (inside : rank < size)
    (received : inbox.receive rank true = some (answer, next)) :
    next.FromRanks size ∧ ∃ message, answer = .ok message ∧
      ∀ other, inbox.unread other =
        if other = rank then message :: next.unread other else next.unread other := by
  obtain ⟨counted, behind, leaves⟩ := receive_leaves received
  have still : next.FromRanks size :=
    ⟨counted.trans fromRanks.1, fun item member => fromRanks.2 item (behind.subset member)⟩
  have first := receive_first fromRanks inside
  rw [received, Option.map_some] at first
  obtain ⟨message, -, rfl⟩ : ∃ message, (inbox.unread rank).head? = some message ∧
      Except.ok message = answer := Option.map_eq_some_iff.mp first.symm
  refine ⟨still, message, rfl, fun other => ?_⟩
  by_cases known : other < size
  · rw [(leaves other (fromRanks.1.symm ▸ known)).1]
    by_cases own : other = rank
    · simp [Event.received?, own]
    · simp [Event.received?, own, Ne.symm own]
  · have foreign : other ≠ rank := fun same => known (same ▸ inside)
    rw [unread_beyond fromRanks known, unread_beyond still known, if_neg foreign]

/-- A message that waits for its receiver can be received. -/
theorem receive_isSome (inbox : Inbox) (rank size : Nat) (fromRanks : inbox.FromRanks size)
    (inside : rank < size) (waits : inbox.unread rank ≠ []) :
    (inbox.receive rank true).isSome = true := by
  have answered := congrArg Option.isSome (receive_first fromRanks inside)
  obtain ⟨message, rest, some⟩ := List.exists_cons_of_ne_nil waits
  simpa [some] using answered

/-- At first nothing has arrived. -/
theorem fromRanks_ofSize (size : Nat) : (ofSize size).FromRanks size := by
  simp [FromRanks, ofSize]

/-- At first nothing is unread. -/
@[simp] theorem unread_ofSize (size rank : Nat) : (ofSize size).unread rank = [] := by
  by_cases inside : rank < size <;> simp [unread, ofSize, inside]

end Inbox

namespace Dialogue

variable {σ α : Type}

/-- The next request of a dialogue, if it is not over and the outside answers. -/
def step? (outside : Outside σ) : σ → Dialogue α → Option (σ × Dialogue α)
  | _, done _ => none
  | state, launch spawner request next =>
    (outside.launch spawner request state).map fun (answer, state) => (state, next answer)
  | state, send link rank message next =>
    (outside.send link rank message state).map fun (answer, state) => (state, next answer)
  | state, receive link rank next =>
    (outside.receive link rank state).map fun (answer, state) => (state, next answer)
  | state, shutdown link next =>
    (outside.shutdown link state).map fun (answer, state) => (state, next answer)

/-- To conduct a dialogue is to make its first step and to conduct what is left. -/
theorem run_step (outside : Outside σ) (dialogue next : Dialogue α) (state later : σ)
    (advanced : dialogue.step? outside state = some (later, next)) :
    dialogue.run outside state = next.run outside later := by
  cases dialogue with
  | done value => cases advanced
  | launch spawner request continuation =>
    obtain ⟨answer, answered, rfl, rfl⟩ := Option.map_eq_some_iff.mp advanced
    simp [run, answered]
  | send link rank message continuation =>
    obtain ⟨answer, answered, rfl, rfl⟩ := Option.map_eq_some_iff.mp advanced
    simp [run, answered]
  | receive link rank continuation =>
    obtain ⟨answer, answered, rfl, rfl⟩ := Option.map_eq_some_iff.mp advanced
    simp [run, answered]
  | shutdown link continuation =>
    obtain ⟨answer, answered, rfl, rfl⟩ := Option.map_eq_some_iff.mp advanced
    simp [run, answered]

/-- A dialogue that comes to its end is over or makes a step. -/
theorem step_of_run (outside : Outside σ) (dialogue : Dialogue α) (state : σ)
    (ends : (dialogue.run outside state).isSome = true) :
    (∃ value, dialogue = done value) ∨ (dialogue.step? outside state).isSome = true := by
  cases dialogue with
  | done value => exact .inl ⟨value, rfl⟩
  | launch spawner request next =>
    refine .inr ?_
    cases answered : outside.launch spawner request state <;> simp_all [run, step?]
  | send link rank message next =>
    refine .inr ?_
    cases answered : outside.send link rank message state <;> simp_all [run, step?]
  | receive link rank next =>
    refine .inr ?_
    cases answered : outside.receive link rank state <;> simp_all [run, step?]
  | shutdown link next =>
    refine .inr ?_
    cases answered : outside.shutdown link state <;> simp_all [run, step?]

end Dialogue

/-- Groups of workers that go on side by side. -/
structure Traffic where
  registry : Registry
  /-- The numbers of workers of the groups, by the places of their links. -/
  sizes : List Nat := []
  /-- The workers, by link and rank. -/
  lane : Link → Nat → Lane
  /-- What has arrived from the workers of each group. -/
  inbox : Link → Inbox

namespace Traffic

/-- The number of workers behind a link. -/
def size (traffic : Traffic) (link : Link) : Nat := (traffic.sizes[link.index]?).getD 0

/-- Replaces the lane of one worker. -/
def change (traffic : Traffic) (link : Link) (rank : Nat) (lane : Lane) : Traffic :=
  { traffic with
    lane := Function.update traffic.lane link (Function.update (traffic.lane link) rank lane) }

/-- Replaces the inbox of a group. -/
def refill (traffic : Traffic) (link : Link) (inbox : Inbox) : Traffic :=
  { traffic with inbox := Function.update traffic.inbox link inbox }

/-- Starts the workers of a group. -/
def launch (traffic : Traffic) (request : LaunchRequest) : Traffic :=
  { traffic with
    sizes := traffic.sizes ++ [request.workers]
    lane := Function.update traffic.lane ⟨traffic.sizes.length⟩ fun rank =>
      let worker : Worker := { rank, size := request.workers, registry := traffic.registry }
      { worker, work := .receive (worker.next []) }
    inbox := Function.update traffic.inbox ⟨traffic.sizes.length⟩ (.ofSize request.workers) }

/-- Whether all workers of a group have done what they can do and none of them hangs. -/
def IsOver (traffic : Traffic) (link : Link) : Prop :=
  ∀ rank < traffic.size link, (traffic.lane link rank).IsQuiet ∧
    ((traffic.lane link rank).settled []).station.isHung = false

instance (traffic : Traffic) (link : Link) : Decidable (traffic.IsOver link) :=
  Nat.decidableBallLT _ _

/-- The outside that consists of these groups. A message that is sent lies ahead of its worker; a
group is shut down once its workers have come to rest. -/
def outside : Outside Traffic where
  launch _ request traffic := some (.ok ⟨traffic.sizes.length⟩, traffic.launch request)
  send link rank message traffic :=
    if rank < traffic.size link then
      let lane := traffic.lane link rank
      some (.ok (), traffic.change link rank { lane with ahead := lane.ahead ++ [message] })
    else some (.error Crews.noSender, traffic)
  receive link rank traffic :=
    ((traffic.inbox link).receive rank true).map fun (answer, inbox) =>
      (answer, traffic.refill link inbox)
  shutdown link traffic :=
    if traffic.IsOver link then
      some (.ok (), { traffic with
        lane := Function.update traffic.lane link fun rank =>
          if rank < traffic.size link then (traffic.lane link rank).close
          else traffic.lane link rank })
    else none

/-- The fleet to which the workers come when each of them goes on as far as it can. -/
def settled (traffic : Traffic) : Fleet where
  registry := traffic.registry
  sizes := traffic.sizes
  line link rank := (traffic.lane link rank).settled ((traffic.inbox link).unread rank)

/-- Only messages of workers of a group arrive in its inbox. -/
def IsSound (traffic : Traffic) : Prop :=
  ∀ link, (traffic.inbox link).FromRanks (traffic.size link)

/-- To settle changes no size. -/
@[simp] theorem settled_size (traffic : Traffic) (link : Link) :
    traffic.settled.size link = traffic.size link := rfl

/-- The line of a worker, once settled, is that of its lane. -/
theorem settled_line (traffic : Traffic) (link : Link) (rank : Nat) :
    traffic.settled.line link rank =
      (traffic.lane link rank).settled ((traffic.inbox link).unread rank) := rfl

/-- A new group has the size that was asked for, and the others keep theirs. -/
theorem size_launch (traffic : Traffic) (request : LaunchRequest) (link : Link) :
    (traffic.launch request).size link =
      if link = ⟨traffic.sizes.length⟩ then request.workers else traffic.size link := by
  obtain ⟨index⟩ := link
  simp only [size, launch, List.getElem?_append, Link.mk.injEq]
  rcases Nat.lt_trichotomy index traffic.sizes.length with before | rfl | after
  · simp [before, Nat.ne_of_lt before]
  · simp
  · have past : ¬ index < traffic.sizes.length := by omega
    have further : index - traffic.sizes.length ≠ 0 := by omega
    simp [past, Nat.ne_of_gt after, further]

/-- A lane that stands for the same line can be put in place of another. -/
theorem settled_change (traffic : Traffic) (link : Link) (rank : Nat) (lane : Lane) :
    (traffic.change link rank lane).settled =
      traffic.settled.change link rank
        fun _ => lane.settled ((traffic.inbox link).unread rank) := by
  simp only [settled, change, Fleet.change, Fleet.mk.injEq, true_and]
  funext other place
  by_cases there : other = link
  · subst there
    by_cases here : place = rank
    · subst here; simp
    · simp [here]
  · simp [there]

/-- To leave a line as it is changes nothing. -/
theorem change_line (fleet : Fleet) (link : Link) (rank : Nat) :
    fleet.change link rank (fun line => line) = fleet := by
  simp [Fleet.change]

/-- The answers of side-by-side groups are those of groups whose workers act at once. -/
theorem launch_simulates (traffic : Traffic) (request : LaunchRequest) (sound : traffic.IsSound) :
    (traffic.launch request).IsSound ∧
      (traffic.launch request).settled = traffic.settled.launch request := by
  constructor
  · intro link
    rw [size_launch]
    by_cases new : link = ⟨traffic.sizes.length⟩
    · subst new
      simp [launch, Inbox.fromRanks_ofSize]
    · simpa [launch, new] using sound link
  · simp only [settled, launch, Fleet.launch, Fleet.mk.injEq, true_and]
    funext link rank
    by_cases new : link = ⟨traffic.sizes.length⟩
    · subst new
      simp [Lane.settled, Line.atRest, Station.idle]
    · simp [new]

/-- To send is answered as it is once everything has settled. -/
theorem send_simulates (traffic next : Traffic) (link : Link) (rank : Nat) (message : Message)
    (answer : Except Failure Unit) (sound : traffic.IsSound)
    (answered : outside.send link rank message traffic = some (answer, next)) :
    next.IsSound ∧
      Fleet.outside.send link rank message traffic.settled = some (answer, next.settled) := by
  simp only [outside] at answered
  split at answered
  case isTrue inside =>
    obtain ⟨rfl, rfl⟩ := Prod.mk.inj (Option.some.inj answered)
    refine ⟨sound, ?_⟩
    rw [Fleet.send_inside _ _ _ _ inside, settled_change, Lane.settled_send_ahead]
    rfl
  case isFalse beyond =>
    obtain ⟨rfl, rfl⟩ := Prod.mk.inj (Option.some.inj answered)
    exact ⟨sound, Fleet.send_beyond _ _ _ _ beyond⟩

/-- What is received is what is received once everything has settled. -/
theorem receive_simulates (traffic next : Traffic) (link : Link) (rank : Nat)
    (answer : Except Failure Message) (sound : traffic.IsSound)
    (answered : outside.receive link rank traffic = some (answer, next)) :
    next.IsSound ∧
      Fleet.outside.receive link rank traffic.settled = some (answer, next.settled) := by
  obtain ⟨⟨_, inbox⟩, received, rfl, rfl⟩ := Option.map_eq_some_iff.mp answered
  by_cases inside : rank < traffic.size link
  · obtain ⟨fromRanks, message, rfl, exact⟩ :=
      Inbox.receive_exact _ _ rank _ _ (sound link) inside received
    constructor
    · intro other
      by_cases there : other = link
      · subst there
        simpa [refill, size] using fromRanks
      · simpa [refill, size, there] using sound other
    · have first : (traffic.settled.line link rank).unread =
          message :: ((traffic.lane link rank).settled (inbox.unread rank)).unread := by
        rw [settled_line, exact rank, if_pos rfl, Lane.settled_arrived,
          Lane.settled_arrived _ (inbox.unread rank)]
        rfl
      rw [Fleet.receive_unread _ _ _ _ _ inside first]
      simp only [Option.some.injEq, Prod.mk.injEq, true_and]
      simp only [settled, refill, Fleet.change, Fleet.mk.injEq, true_and]
      funext other place
      by_cases there : other = link
      · subst there
        by_cases here : place = rank
        · subst here
          simp only [Function.update_self]
          rw [Lane.settled_arrived, Lane.settled_arrived _ (inbox.unread place)]
        · simp [here, exact place]
      · simp [there]
  · have unlisted : (traffic.inbox link).aside.length ≤ rank := by
      rw [(sound link).1]
      omega
    rw [Inbox.receive, List.getElem?_eq_none unlisted] at received
    obtain ⟨rfl, rfl⟩ := Prod.mk.inj (Option.some.inj received)
    have same : traffic.refill link (traffic.inbox link) = traffic := by simp [refill]
    rw [same]
    exact ⟨sound, Fleet.receive_beyond _ _ _ inside⟩

/-- To end a group is answered as it is once everything has settled. -/
theorem shutdown_simulates (traffic next : Traffic) (link : Link) (answer : Except Failure Unit)
    (sound : traffic.IsSound)
    (answered : outside.shutdown link traffic = some (answer, next)) :
    next.IsSound ∧
      Fleet.outside.shutdown link traffic.settled = some (answer, next.settled) := by
  simp only [outside] at answered
  split at answered
  case isFalse => cases answered
  case isTrue done =>
    obtain ⟨rfl, rfl⟩ := Prod.mk.inj (Option.some.inj answered)
    have awake : traffic.settled.isHung link = false := by
      simp only [Fleet.isHung, List.any_eq_false, List.mem_range, settled_size]
      intro rank inside
      rw [settled_line, Lane.settled_arrived]
      simpa using (done rank inside).2
    refine ⟨sound, ?_⟩
    rw [Fleet.shutdown_awake _ _ awake]
    simp only [Option.some.injEq, Prod.mk.injEq, true_and]
    simp only [settled, Fleet.changeAll, Fleet.mk.injEq, true_and]
    funext other rank
    by_cases there : other = link
    · subst there
      by_cases inside : rank < traffic.size other
      · simp only [Function.update_self, if_pos inside]
        exact (if_pos inside).trans (Lane.settled_close _ _ (done rank inside).1).symm
      · simp only [Function.update_self, if_neg inside]
        exact if_neg inside
    · simp [there]

/-- A step of the coordinator is the same step where the workers act at once. -/
theorem step_simulates {α : Type} (traffic later : Traffic) (dialogue next : Dialogue α)
    (sound : traffic.IsSound) (advanced : dialogue.step? outside traffic = some (later, next)) :
    later.IsSound ∧
      dialogue.step? Fleet.outside traffic.settled = some (later.settled, next) := by
  cases dialogue with
  | done value => cases advanced
  | launch spawner request continuation =>
    obtain ⟨rfl, rfl⟩ := Prod.mk.inj (Option.some.inj advanced)
    obtain ⟨kept, same⟩ := launch_simulates traffic request sound
    refine ⟨kept, ?_⟩
    rw [same]
    rfl
  | send link rank message continuation =>
    obtain ⟨⟨answer, _⟩, answered, rfl, rfl⟩ := Option.map_eq_some_iff.mp advanced
    obtain ⟨kept, same⟩ := send_simulates traffic later link rank message answer sound answered
    exact ⟨kept, by simp only [Dialogue.step?, same, Option.map_some]⟩
  | receive link rank continuation =>
    obtain ⟨⟨answer, _⟩, answered, rfl, rfl⟩ := Option.map_eq_some_iff.mp advanced
    obtain ⟨kept, same⟩ := receive_simulates traffic later link rank answer sound answered
    exact ⟨kept, by simp only [Dialogue.step?, same, Option.map_some]⟩
  | shutdown link continuation =>
    obtain ⟨⟨answer, _⟩, answered, rfl, rfl⟩ := Option.map_eq_some_iff.mp advanced
    obtain ⟨kept, same⟩ := shutdown_simulates traffic later link answer sound answered
    exact ⟨kept, by simp only [Dialogue.step?, same, Option.map_some]⟩

/-- The steps of the coordinator and of the workers, and the arrivals of what workers have sent. -/
inductive Step {α : Type} : Traffic × Dialogue α → Traffic × Dialogue α → Prop
  | coordinator (traffic later : Traffic) (dialogue next : Dialogue α)
      (advanced : dialogue.step? outside traffic = some (later, next)) :
      Step (traffic, dialogue) (later, next)
  | worker (traffic : Traffic) (dialogue : Dialogue α) (link : Link) (rank : Nat) (lane : Lane)
      (inside : rank < traffic.size link)
      (advanced : (traffic.lane link rank).step? = some lane) :
      Step (traffic, dialogue) (traffic.change link rank lane, dialogue)
  | arrival (traffic : Traffic) (dialogue : Dialogue α) (link : Link) (rank : Nat)
      (message : Message) (rest : List Message) (inside : rank < traffic.size link)
      (sent : (traffic.lane link rank).wire = message :: rest) :
      Step (traffic, dialogue)
        ((traffic.change link rank { traffic.lane link rank with wire := rest }).refill link
          ((traffic.inbox link).arrive rank message), dialogue)

/-- Steps of workers do not change where the workers settle. -/
theorem worker_settled (traffic : Traffic) (link : Link) (rank : Nat) (lane : Lane)
    (advanced : (traffic.lane link rank).step? = some lane) :
    (traffic.change link rank lane).settled = traffic.settled := by
  rw [settled_change, Lane.settled_step _ _ _ advanced]
  exact change_line traffic.settled link rank

/-- Arrivals do not change where the workers settle. -/
theorem arrival_settled (traffic : Traffic) (link : Link) (rank : Nat) (message : Message)
    (rest : List Message) (sent : (traffic.lane link rank).wire = message :: rest) :
    ((traffic.change link rank { traffic.lane link rank with wire := rest }).refill link
      ((traffic.inbox link).arrive rank message)).settled = traffic.settled := by
  simp only [settled, refill, change, Fleet.mk.injEq, true_and]
  funext other place
  by_cases there : other = link
  · subst there
    by_cases here : place = rank
    · subst here
      simp [Inbox.unread_arrive, Lane.settled, sent]
    · simp [Inbox.unread_arrive, here, Ne.symm here]
  · simp [there]

/-- No step changes to what end the dialogue comes with workers that act at once. -/
theorem run_unchanged {α : Type} (before after : Traffic × Dialogue α) (sound : before.1.IsSound)
    (step : Step before after) :
    after.1.IsSound ∧
      after.2.run Fleet.outside after.1.settled = before.2.run Fleet.outside before.1.settled := by
  cases step with
  | coordinator traffic later dialogue next advanced =>
    obtain ⟨kept, same⟩ := step_simulates traffic later dialogue next sound advanced
    exact ⟨kept, (Dialogue.run_step _ _ _ _ _ same).symm⟩
  | worker traffic dialogue link rank lane inside advanced =>
    exact ⟨sound, by rw [worker_settled traffic link rank lane advanced]⟩
  | arrival traffic dialogue link rank message rest inside sent =>
    refine ⟨fun other => ?_, by rw [arrival_settled traffic link rank message rest sent]⟩
    by_cases there : other = link
    · subst there
      simpa [refill, change, size] using
        Inbox.fromRanks_arrive _ _ rank message (sound other) inside
    · simpa [refill, change, size, there] using sound other

/-- A worker that has more to do, or that has sent something which has not arrived, makes a step
possible. -/
theorem step_of_unquiet {α : Type} (traffic : Traffic) (dialogue : Dialogue α) (link : Link)
    (rank : Nat) (inside : rank < traffic.size link)
    (unquiet : ¬ (traffic.lane link rank).IsQuiet) :
    ∃ after, Step (traffic, dialogue) after := by
  cases advanced : (traffic.lane link rank).step? with
  | some lane => exact ⟨_, .worker traffic dialogue link rank lane inside advanced⟩
  | none =>
    cases sent : (traffic.lane link rank).wire with
    | nil => exact absurd ⟨advanced, sent⟩ unquiet
    | cons message rest => exact ⟨_, .arrival traffic dialogue link rank message rest inside sent⟩

/-- Wherever the dialogue can go on with workers that act at once, some step is possible: a message
that is awaited has arrived, or is on the wire, or its sender has work left. -/
theorem not_stuck {α : Type} (traffic : Traffic) (dialogue : Dialogue α) (sound : traffic.IsSound)
    (ends : (dialogue.run Fleet.outside traffic.settled).isSome = true) :
    (∃ value, dialogue = .done value) ∨ ∃ after, Step (traffic, dialogue) after := by
  rcases Dialogue.step_of_run _ _ _ ends with ended | goes
  · exact .inl ended
  refine .inr ?_
  cases dialogue with
  | done value => cases goes
  | launch spawner request next => exact ⟨_, .coordinator _ _ _ _ rfl⟩
  | send link rank message next =>
    by_cases inside : rank < traffic.size link
    · exact ⟨_, .coordinator _ _ _ _ (by simp only [Dialogue.step?, outside, if_pos inside]; rfl)⟩
    · exact ⟨_, .coordinator _ _ _ _ (by simp only [Dialogue.step?, outside, if_neg inside]; rfl)⟩
  | receive link rank next =>
    by_cases inside : rank < traffic.size link
    · by_cases arrived : (traffic.inbox link).unread rank = []
      · refine step_of_unquiet traffic _ link rank inside fun quiet => ?_
        have silent : (traffic.settled.line link rank).unread = [] := by
          rw [settled_line, Lane.settled_quiet _ _ quiet, arrived]
        simp [Dialogue.step?, Fleet.receive_silent _ _ _ inside silent] at goes
      · obtain ⟨⟨answer, inbox⟩, received⟩ := Option.isSome_iff_exists.mp
          (Inbox.receive_isSome _ rank _ (sound link) inside arrived)
        exact ⟨_, .coordinator _ _ _ _
          (by simp only [Dialogue.step?, outside, received, Option.map_some]; rfl)⟩
    · have unlisted : (traffic.inbox link).aside.length ≤ rank := by
        rw [(sound link).1]
        omega
      exact ⟨_, .coordinator _ _ _ _ (by
        simp only [Dialogue.step?, outside, Inbox.receive, List.getElem?_eq_none unlisted,
          Option.map_some]
        rfl)⟩
  | shutdown link next =>
    by_cases done : traffic.IsOver link
    · exact ⟨_, .coordinator _ _ _ _ (by simp only [Dialogue.step?, outside, if_pos done]; rfl)⟩
    · have awake : traffic.settled.isHung link = false := by
        by_contra hangs
        simp [Dialogue.step?, Fleet.outside, Bool.eq_true_of_not_eq_false hangs] at goes
      simp only [IsOver, not_forall, not_and] at done
      obtain ⟨rank, inside, held⟩ := done
      refine step_of_unquiet traffic _ link rank inside fun quiet => held quiet ?_
      have awakeAt := List.any_eq_false.mp awake rank (List.mem_range.mpr inside)
      rw [settled_line, Lane.settled_arrived] at awakeAt
      simpa using awakeAt

/-- The number of steps of all workers and of what they send. -/
def remaining (traffic : Traffic) : Nat :=
  ∑ index ∈ Finset.range traffic.sizes.length, ∑ rank ∈ Finset.range (traffic.size ⟨index⟩),
    (traffic.lane ⟨index⟩ rank).remaining

/-- If less remains on one lane, less remains altogether. -/
theorem remaining_change (traffic : Traffic) (link : Link) (rank : Nat) (lane : Lane)
    (inside : rank < traffic.size link)
    (less : lane.remaining < (traffic.lane link rank).remaining) :
    (traffic.change link rank lane).remaining < traffic.remaining := by
  have listed : link.index < traffic.sizes.length := by
    by_contra unlisted
    simp [size, List.getElem?_eq_none (Nat.le_of_not_lt unlisted)] at inside
  have atMost (index place : Nat) :
      ((traffic.change link rank lane).lane ⟨index⟩ place).remaining ≤
        (traffic.lane ⟨index⟩ place).remaining := by
    by_cases there : Link.mk index = link
    · by_cases here : place = rank
      · simpa [change, there, here] using less.le
      · simp [change, there, here]
    · simp [change, there]
  refine Finset.sum_lt_sum (fun index _ => Finset.sum_le_sum fun place _ => atMost index place)
    ⟨link.index, Finset.mem_range.mpr listed, ?_⟩
  refine Finset.sum_lt_sum (fun place _ => atMost link.index place)
    ⟨rank, Finset.mem_range.mpr inside, ?_⟩
  simpa [change] using less

/-- Between two steps of the coordinator the workers have only so much to do. -/
theorem finite_of_next {α : Type} (dialogue : Dialogue α)
    (finite : ∀ traffic later next, dialogue.step? outside traffic = some (later, next) →
      Acc (fun after before => Step before after) (later, next)) (traffic : Traffic) :
    Acc (fun after before => Step before after) (traffic, dialogue) := by
  induction amount : traffic.remaining using Nat.strong_induction_on generalizing traffic with
  | _ amount inductionHypothesis =>
    refine Acc.intro _ fun after step => ?_
    cases step with
    | coordinator _ later _ next advanced => exact finite traffic later next advanced
    | worker _ _ link rank lane inside advanced =>
      have less := remaining_change traffic link rank lane inside (Lane.remaining_step _ _ advanced)
      exact inductionHypothesis _ (amount ▸ less) _ rfl
    | arrival _ _ link rank message rest inside sent =>
      have less := remaining_change traffic link rank
        { traffic.lane link rank with wire := rest } inside
        (by simp [Lane.remaining, Lane.effort, sent])
      exact inductionHypothesis _ (amount ▸ less) _ rfl

/-- Every sequence of steps comes to an end, since the dialogue only ever goes on to its parts. -/
theorem steps_finite {α : Type} (traffic : Traffic) (dialogue : Dialogue α) :
    Acc (fun after before => Step before after) (traffic, dialogue) := by
  induction dialogue generalizing traffic with
  | done value =>
    exact finite_of_next _ (fun _ _ _ advanced => by cases advanced) traffic
  | launch spawner request next inductionHypothesis =>
    refine finite_of_next _ (fun before later _ advanced => ?_) traffic
    obtain ⟨rfl, rfl⟩ := Prod.mk.inj (Option.some.inj advanced)
    exact inductionHypothesis _ _
  | send link rank message next inductionHypothesis =>
    refine finite_of_next _ (fun before later _ advanced => ?_) traffic
    obtain ⟨answer, _, rfl, rfl⟩ := Option.map_eq_some_iff.mp advanced
    exact inductionHypothesis answer.1 _
  | receive link rank next inductionHypothesis =>
    refine finite_of_next _ (fun before later _ advanced => ?_) traffic
    obtain ⟨answer, _, rfl, rfl⟩ := Option.map_eq_some_iff.mp advanced
    exact inductionHypothesis answer.1 _
  | shutdown link next inductionHypothesis =>
    refine finite_of_next _ (fun before later _ advanced => ?_) traffic
    obtain ⟨answer, _, rfl, rfl⟩ := Option.map_eq_some_iff.mp advanced
    exact inductionHypothesis answer.1 _

/-- What several steps lead to. -/
abbrev Reaches {α : Type} : Traffic × Dialogue α → Traffic × Dialogue α → Prop :=
  Relation.ReflTransGen Step

/-- No sequence of steps changes to what end the dialogue comes with workers that act at once. -/
theorem run_reached {α : Type} (before after : Traffic × Dialogue α) (sound : before.1.IsSound)
    (reached : Reaches before after) :
    after.1.IsSound ∧
      after.2.run Fleet.outside after.1.settled = before.2.run Fleet.outside before.1.settled := by
  induction reached with
  | refl => exact ⟨sound, rfl⟩
  | tail _ step inductionHypothesis =>
    obtain ⟨kept, same⟩ := inductionHypothesis
    obtain ⟨keptAfter, sameAfter⟩ := run_unchanged _ _ kept step
    exact ⟨keptAfter, sameAfter.trans same⟩

/-- No step changes which computations the workers know. -/
theorem registry_of_step {α : Type} {before after : Traffic × Dialogue α} (step : Step before after) :
    after.1.registry = before.1.registry := by
  cases step with
  | worker | arrival => rfl
  | coordinator traffic later dialogue next advanced =>
    cases dialogue with
    | done value => cases advanced
    | launch spawner request continuation =>
      obtain ⟨rfl, rfl⟩ := Prod.mk.inj (Option.some.inj advanced)
      rfl
    | send link rank message continuation =>
      obtain ⟨⟨_, _⟩, answered, rfl, rfl⟩ := Option.map_eq_some_iff.mp advanced
      simp only [outside] at answered
      split at answered <;> cases answered <;> rfl
    | receive link rank continuation =>
      obtain ⟨⟨_, _⟩, answered, rfl, rfl⟩ := Option.map_eq_some_iff.mp advanced
      obtain ⟨_, -, same⟩ := Option.map_eq_some_iff.mp answered
      cases same
      rfl
    | shutdown link continuation =>
      obtain ⟨⟨_, _⟩, answered, rfl, rfl⟩ := Option.map_eq_some_iff.mp advanced
      simp only [outside] at answered
      split at answered <;> cases answered
      rfl

/-- No step changes what the workers can compute. -/
theorem registry_of_reaches {α : Type} {before after : Traffic × Dialogue α}
    (reached : Reaches before after) : after.1.registry = before.1.registry := by
  induction reached with
  | refl => rfl
  | tail _ step inductionHypothesis => exact (registry_of_step step).trans inductionHypothesis

/-- All orders of steps come to one end: the one to which the dialogue comes with workers that act
at once. -/
theorem same_end {α : Type} (traffic : Traffic) (dialogue : Dialogue α) (value : α) (fleet : Fleet)
    (sound : traffic.IsSound)
    (ends : dialogue.run Fleet.outside traffic.settled = some (value, fleet))
    (after : Traffic × Dialogue α) (reached : Reaches (traffic, dialogue) after) :
    after.1.IsSound ∧
      ((∃ result, after.2 = .done result) ∨ ∃ further, Step after further) ∧
      ∀ result, after.2 = .done result → result = value ∧ after.1.settled = fleet := by
  obtain ⟨kept, same⟩ := run_reached _ _ sound reached
  have endsHere : after.2.run Fleet.outside after.1.settled = some (value, fleet) :=
    same.trans ends
  refine ⟨kept, not_stuck _ _ kept (Option.isSome_iff_exists.mpr ⟨_, endsHere⟩), ?_⟩
  intro result returned
  rw [returned] at endsHere
  exact Prod.mk.inj (Option.some.inj endsHere)

/-- Some order of steps comes to the end to which the dialogue comes with workers that act at
once. -/
theorem end_reached {α : Type} (before : Traffic × Dialogue α) (value : α) (fleet : Fleet)
    (sound : before.1.IsSound)
    (ends : before.2.run Fleet.outside before.1.settled = some (value, fleet)) :
    ∃ later, Reaches before (later, .done value) ∧ later.settled = fleet := by
  have finite : Acc (fun after before => Step before after) before := steps_finite before.1 before.2
  induction finite with
  | intro before _ inductionHypothesis =>
    rcases not_stuck before.1 before.2 sound (Option.isSome_iff_exists.mpr ⟨_, ends⟩) with
      ⟨result, returned⟩ | ⟨after, step⟩
    · rw [returned] at ends
      obtain ⟨rfl, settles⟩ := Prod.mk.inj (Option.some.inj ends)
      rw [← returned]
      exact ⟨before.1, .refl, settles⟩
    · obtain ⟨kept, same⟩ := run_unchanged _ _ sound step
      obtain ⟨later, reached, settles⟩ := inductionHypothesis after step kept (same.trans ends)
      exact ⟨later, .head step reached, settles⟩

end Traffic

end Rankwise
