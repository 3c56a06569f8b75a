import Mathlib.Logic.Function.Basic
import Rankwise.Group.Call
import Rankwise.Group.InProcess

/-!
# Groups whose workers act at once

The simplest outside that a coordinator can talk to: a worker that is handed a message goes on at
once until it waits again, and what it sends on the way is kept for the coordinator in a line of its
own. There is no common queue and nothing is ever under way, so the state after some requests is a
function of the requests.

The module `Rankwise.Proofs.Traffic` shows that every interleaving of coordinator and workers comes
to the same end as this outside. Laws about calls are therefore proved here, by equations.
-/

namespace Rankwise

/-- The work of a worker on the command at hand. -/
abbrev Work := Session (Except WorkerEnd Unit × ResultStore)

/-- A worker at its place, with what it has sent and nobody has received. -/
structure Line where
  worker : Worker
  station : Station
  unread : List Message := []

namespace Station

/-- Where a worker stands that goes on with a session until it waits, and what it sends on the way.
-/
def settled (worker : Worker) (session : Work) : List Message × Station :=
  let (sent, rest) := session.settle
  match rest with
  | .waiting next => (sent, waiting next)
  | .over (.ok (), store) => (sent, waiting (worker.next store))
  | .over (.error how, _) => (sent, ended how)

/-- Hands over several messages, one after the other. -/
def deliverAll (worker : Worker) : Station → List Message → List Message × Station
  | station, [] => ([], station)
  | station, message :: rest =>
    let (sent, station) := station.deliver worker (.ok message)
    let (further, station) := deliverAll worker station rest
    (sent ++ further, station)

/-- A worker that waits for a command and stores the given partitions. -/
def idle (worker : Worker) (store : ResultStore) : Station := waiting (worker.next store)

/-- A session that waits for a message has settled. -/
@[simp] theorem settled_receive (worker : Worker) (next : Except Failure Message → Work) :
    settled worker (.receive next) = ([], .waiting next) := rfl

/-- A session that sends a message goes on until it waits. -/
theorem settled_send (worker : Worker) (message : Message) (next : Except Failure Unit → Work) :
    settled worker (.send message next) =
      (message :: (settled worker (next (.ok ()))).1, (settled worker (next (.ok ()))).2) := by
  simp only [settled, Session.settle]
  split <;> rfl

/-- A session that is done leaves the worker waiting for the next command. -/
@[simp] theorem settled_done (worker : Worker) (store : ResultStore) :
    settled worker (.done (.ok (), store)) = ([], idle worker store) := rfl

/-- A worker that waits goes on with the message that is handed over. -/
@[simp] theorem deliver_waiting (worker : Worker) (next : Except Failure Message → Work)
    (received : Except Failure Message) :
    (waiting next).deliver worker received = settled worker (next received) := rfl

/-- To hand over no messages does nothing. -/
@[simp] theorem deliverAll_nil (worker : Worker) (station : Station) :
    station.deliverAll worker [] = ([], station) := rfl

/-- Messages are handed over from the first one on, and what is sent on the way is joined. -/
theorem deliverAll_cons (worker : Worker) (station : Station) (message : Message)
    (rest : List Message) :
    station.deliverAll worker (message :: rest) =
      ((station.deliver worker (.ok message)).1 ++
        ((station.deliver worker (.ok message)).2.deliverAll worker rest).1,
        ((station.deliver worker (.ok message)).2.deliverAll worker rest).2) := rfl

/-- Messages can be handed over in two portions. -/
theorem deliverAll_append (worker : Worker) (station : Station) (first second : List Message) :
    station.deliverAll worker (first ++ second) =
      ((station.deliverAll worker first).1 ++
        ((station.deliverAll worker first).2.deliverAll worker second).1,
        ((station.deliverAll worker first).2.deliverAll worker second).2) := by
  induction first generalizing station with
  | nil => simp
  | cons message rest inductionHypothesis =>
    simp only [List.cons_append, deliverAll_cons, inductionHypothesis, List.append_assoc]

/-- A worker that has ended takes no notice of anything. -/
theorem deliverAll_ended (worker : Worker) (how : WorkerEnd) (messages : List Message) :
    (ended how).deliverAll worker messages = ([], ended how) := by
  induction messages with
  | nil => rfl
  | cons message rest inductionHypothesis =>
    rw [deliverAll_cons]
    exact inductionHypothesis ▸ rfl

end Station

namespace Line

/-- A worker that waits for a command, with nothing unread. -/
def atRest (worker : Worker) (store : ResultStore) : Line :=
  { worker, station := .idle worker store }

/-- Hands a message over. -/
def deliver (line : Line) (message : Message) : Line :=
  { line with
    station := (line.station.deliver line.worker (.ok message)).2
    unread := line.unread ++ (line.station.deliver line.worker (.ok message)).1 }

/-- Hands over several messages, one after the other. -/
def deliverAll (line : Line) (messages : List Message) : Line :=
  { line with
    station := (line.station.deliverAll line.worker messages).2
    unread := line.unread ++ (line.station.deliverAll line.worker messages).1 }

/-- The worker learns that its connection is closed. -/
def close (line : Line) : Line :=
  { line with
    station := (line.station.deliver line.worker (.error Crews.closedByCoordinator)).2
    unread := line.unread ++
      (line.station.deliver line.worker (.error Crews.closedByCoordinator)).1 }

/-- To hand over no messages leaves the line as it is. -/
@[simp] theorem deliverAll_nil (line : Line) : line.deliverAll [] = line := by
  simp [deliverAll]

/-- To hand over a list of one message is to hand it over. -/
theorem deliverAll_singleton (line : Line) (message : Message) :
    line.deliverAll [message] = line.deliver message := by
  simp [deliverAll, deliver, Station.deliverAll_cons]

/-- Messages may be handed over in two goes. -/
theorem deliverAll_append (line : Line) (first second : List Message) :
    line.deliverAll (first ++ second) = (line.deliverAll first).deliverAll second := by
  simp [deliverAll, Station.deliverAll_append]

end Line

/-- Groups of workers that act at once. -/
structure Fleet where
  registry : Registry
  /-- The numbers of workers of the groups, by the places of their links. -/
  sizes : List Nat := []
  /-- The workers, by link and rank. -/
  line : Link → Nat → Line

namespace Fleet

/-- The number of workers behind a link. -/
def size (fleet : Fleet) (link : Link) : Nat := (fleet.sizes[link.index]?).getD 0

/-- Changes the line of one worker. -/
def change (fleet : Fleet) (link : Link) (rank : Nat) (update : Line → Line) : Fleet :=
  { fleet with
    line := Function.update fleet.line link
      (Function.update (fleet.line link) rank (update (fleet.line link rank))) }

/-- Changes the lines of all workers of a group. -/
def changeAll (fleet : Fleet) (link : Link) (update : Nat → Line → Line) : Fleet :=
  { fleet with
    line := Function.update fleet.line link fun rank =>
      if rank < fleet.size link then update rank (fleet.line link rank)
      else fleet.line link rank }

/-- Starts the workers of a group. -/
def launch (fleet : Fleet) (request : LaunchRequest) : Fleet :=
  { fleet with
    sizes := fleet.sizes ++ [request.workers]
    line := Function.update fleet.line ⟨fleet.sizes.length⟩ fun rank =>
      .atRest { rank, size := request.workers, registry := fleet.registry } [] }

/-- Whether some worker of a group never comes to an end. -/
def isHung (fleet : Fleet) (link : Link) : Bool :=
  (List.range (fleet.size link)).any fun rank => (fleet.line link rank).station.isHung

/-- The outside that consists of these groups. -/
def outside : Outside Fleet where
  launch _ request fleet := some (.ok ⟨fleet.sizes.length⟩, fleet.launch request)
  send link rank message fleet :=
    if rank < fleet.size link then some (.ok (), fleet.change link rank (·.deliver message))
    else some (.error Crews.noSender, fleet)
  receive link rank fleet :=
    if rank < fleet.size link then
      match (fleet.line link rank).unread with
      | [] => none
      | message :: rest =>
        some (.ok message, fleet.change link rank ({ · with unread := rest }))
    else some (.error (Inbox.noSuchRank rank), fleet)
  shutdown link fleet :=
    if fleet.isHung link then none
    else some (.ok (), fleet.changeAll link fun _ line => line.close)

variable (fleet : Fleet) (link : Link) (rank : Nat)

/-- A message to a rank of the group is handed over at once. -/
theorem send_inside (message : Message) (inside : rank < fleet.size link) :
    outside.send link rank message fleet =
      some (.ok (), fleet.change link rank (·.deliver message)) := if_pos inside

/-- There is no way to send to a rank that the group does not have. -/
theorem send_beyond (message : Message) (beyond : ¬ rank < fleet.size link) :
    outside.send link rank message fleet = some (.error Crews.noSender, fleet) := if_neg beyond

/-- The first unread message of a rank is received. -/
theorem receive_unread (message : Message) (rest : List Message) (inside : rank < fleet.size link)
    (unread : (fleet.line link rank).unread = message :: rest) :
    outside.receive link rank fleet =
      some (.ok message, fleet.change link rank ({ · with unread := rest })) := by
  simp only [outside, if_pos inside, unread]

/-- From a rank with nothing unread one waits forever. -/
theorem receive_silent (inside : rank < fleet.size link)
    (unread : (fleet.line link rank).unread = []) : outside.receive link rank fleet = none := by
  simp only [outside, if_pos inside, unread]

/-- There is no way to receive from a rank that the group does not have. -/
theorem receive_beyond (beyond : ¬ rank < fleet.size link) :
    outside.receive link rank fleet = some (.error (Inbox.noSuchRank rank), fleet) :=
  if_neg beyond

/-- A group of which no worker hangs can be closed. -/
theorem shutdown_awake (awake : fleet.isHung link = false) :
    outside.shutdown link fleet =
      some (.ok (), fleet.changeAll link fun _ line => line.close) := by
  simp only [outside, awake, Bool.false_eq_true, if_false]

end Fleet

end Rankwise
