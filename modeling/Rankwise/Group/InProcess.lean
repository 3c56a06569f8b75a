import Rankwise.Group.Dialogue
import Rankwise.Group.Inbox
import Rankwise.Group.Worker
import Rankwise.Wire.Stream

/-!
# Workers in this process

Groups whose workers run here. Each worker is a session that waits for its next message; when the
coordinator sends one, the worker goes on at once until it waits again, and what it has sent on the
way arrives in the inbox of the coordinator. That is one of the orders in which workers that run
side by side could act.

Messages can be handed over as they are, or as the texts that would pass between processes. In the
second case the reason why a worker has closed its side is not known.
-/

namespace Rankwise

/-- How messages pass between the coordinator and the workers. -/
inductive Medium where
  /-- As they are. -/
  | memory
  /-- As texts. -/
  | text
deriving DecidableEq, Repr

namespace Session

variable {α : Type}

/-- A session up to the point at which it awaits a message or is over. -/
inductive Rest (α : Type) where
  | over (value : α)
  | waiting (next : Except Failure Message → Session α)

/-- Goes on until a message is awaited, and tells what is sent on the way. -/
def settle : Session α → List Message × Rest α
  | done value => ([], .over value)
  | send message next =>
    let (sent, rest) := (next (.ok ())).settle
    (message :: sent, rest)
  | receive next => ([], .waiting next)

end Session

/-- The work that is left to a worker. -/
inductive Station where
  | waiting (next : Except Failure Message → Session (Except WorkerEnd Unit × ResultStore))
  | ended (how : WorkerEnd)

namespace Station

/-- Whether the worker never comes to an end. -/
def isHung : Station → Bool
  | ended .hung => true
  | _ => false

/-- Hands something over to the worker, or the news that its connection has failed. What it sends
then is told with how it goes on. -/
def deliver (worker : Worker) (received : Except Failure Message) :
    Station → List Message × Station
  | ended how => ([], ended how)
  | waiting next =>
    let (sent, rest) := (next received).settle
    match rest with
    | .waiting next => (sent, waiting next)
    | .over (.ok (), store) => (sent, waiting (worker.next store))
    | .over (.error how, _) => (sent, ended how)

end Station

/-- A worker at its place in a group. -/
structure Post where
  worker : Worker
  station : Station
  /-- The coordinator has stopped listening to it. -/
  muted : Bool := false

/-- A group whose workers run here. -/
structure Crew where
  posts : List Post
  inbox : Inbox
  /-- The connection was closed. -/
  isClosed : Bool := false

/-- The groups whose workers run here. -/
structure Crews where
  registry : Registry
  medium : Medium := .memory
  crews : List Crew := []

namespace Crews

/-- The coordinator has closed the connection. -/
def closedByCoordinator : Failure where
  kind := .protocol
  message := "Coordinator closed the channel"

/-- A message after it has passed to the other side. -/
def pass (medium : Medium) (message : Message) : Except Failure Message :=
  match medium with
  | .memory => .ok message
  | .text => Message.ofBody message.body

/-- What of the messages of a worker arrives. After one that cannot be read nothing does. -/
def arriving (medium : Medium) (rank : Nat) : List Message → List Inbound × Bool
  | [] => ([], false)
  | message :: rest =>
    match pass medium message with
    | .ok message =>
      let (found, muted) := arriving medium rank rest
      (.message rank message :: found, muted)
    | .error failure => ([.closed rank (some failure.text)], true)

/-- The notice that a worker has closed its side, if it has ended. -/
def closing (medium : Medium) (rank : Nat) : Station → List Inbound
  | .waiting _ => []
  | .ended .hung => []
  | .ended (.failed failure) =>
    [.closed rank (if medium = .memory then some failure.text else none)]
  | .ended _ => [.closed rank none]

/-- Hands something over to a worker; what it sends arrives in the inbox. -/
def deliver (medium : Medium) (crew : Crew) (rank : Nat) (post : Post)
    (received : Except Failure Message) : Crew :=
  let (sent, station) := post.station.deliver post.worker received
  let (found, muted) := arriving medium rank sent
  let notice := if muted then [] else closing medium rank station
  let arrived := if post.muted then [] else found ++ notice
  { crew with
    posts := crew.posts.set rank { post with station, muted := post.muted || muted }
    inbox := { crew.inbox with queue := crew.inbox.queue ++ arrived } }

/-- Whether some worker can still send something. -/
def isOpen (crew : Crew) : Bool :=
  crew.posts.any fun post => match post.station with
    | .waiting _ => !post.muted
    | .ended how => how = .hung

/-- There is no connection of this name. -/
def unknownLink : Failure := .missing "channel of the group"

/-- There is no connection to this rank. -/
def noSender : Failure := .missing "sender for rank"

/-- The worker no longer listens. -/
def deaf (rank : Nat) : Failure where
  kind := .protocol
  message := "Worker closed its channel"
  fields := [("rank", toString rank)]

/-- Starts the workers of a group. -/
def launch (crews : Crews) (request : LaunchRequest) : Except Failure Link × Crews :=
  let post (rank : Nat) : Post :=
    let worker : Worker := { rank, size := request.workers, registry := crews.registry }
    { worker, station := .waiting (worker.next []) }
  let crew : Crew := {
    posts := (List.range request.workers).map post, inbox := .ofSize request.workers }
  (.ok ⟨crews.crews.length⟩, { crews with crews := crews.crews ++ [crew] })

/-- Sends a message to a worker, who acts on it at once. -/
def send (crews : Crews) (link : Link) (rank : Nat) (message : Message) :
    Except Failure Unit × Crews :=
  match crews.crews[link.index]? with
  | none => (.error unknownLink, crews)
  | some crew =>
    match if crew.isClosed then none else crew.posts[rank]? with
    | none => (.error noSender, crews)
    | some post =>
      match post.station with
      | .ended .hung => (.ok (), crews)
      | .ended _ => (.error (deaf rank), crews)
      | .waiting _ =>
        let crew := deliver crews.medium crew rank post (pass crews.medium message)
        (.ok (), { crews with crews := crews.crews.set link.index crew })

/-- Awaits the next message from a worker. -/
def receive (crews : Crews) (link : Link) (rank : Nat) :
    Option (Except Failure Message × Crews) := do
  match crews.crews[link.index]? with
  | none => some (.error unknownLink, crews)
  | some crew =>
    let (answer, inbox) ← crew.inbox.receive rank (isOpen crew)
    some (answer, { crews with crews := crews.crews.set link.index { crew with inbox } })

/-- Closes the connection to a group. The workers learn of it and end; one that never comes to an
end is waited for without end. -/
def shutdown (crews : Crews) (link : Link) : Option (Except Failure Unit × Crews) :=
  match crews.crews[link.index]? with
  | none => some (.error unknownLink, crews)
  | some crew =>
    if crew.posts.any fun post => post.station.isHung then none
    else
      let crew := crew.posts.zipIdx.foldl
        (fun crew (post, rank) => deliver crews.medium crew rank post (.error closedByCoordinator))
        crew
      some (.ok (), { crews with
        crews := crews.crews.set link.index { crew with isClosed := true } })

/-- The outside that consists of these groups. -/
def outside : Outside Crews where
  launch _ request crews := some (crews.launch request)
  send link rank message crews := some (crews.send link rank message)
  receive link rank crews := crews.receive link rank
  shutdown link crews := crews.shutdown link

end Crews

end Rankwise
