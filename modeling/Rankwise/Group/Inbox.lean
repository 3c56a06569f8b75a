import Rankwise.Group.Message

/-!
# The inbox of the coordinator

Everything that the workers of a group send to the coordinator arrives in one queue, in whatever
order it happens to be sent. The coordinator awaits messages from one rank at a time; messages from
other ranks that it meets on the way are put aside and are found when their rank is asked. The
notice that a worker has closed its side is not put aside: whoever meets it fails.
-/

namespace Rankwise

/-- What arrives at the coordinator. -/
inductive Inbound where
  | message (rank : Nat) (message : Message)
  /-- The worker has closed its side, for a reason that may be known. -/
  | closed (rank : Nat) (reason : Option String)
deriving Repr

/-- What has arrived and has not been received. -/
structure Inbox where
  /-- What nobody has looked at, in the order of arrival. -/
  queue : List Inbound := []
  /-- The messages that were put aside, by rank and in order. -/
  aside : List (List Message)
deriving Repr

namespace Inbox

/-- The inbox for a group of a size. -/
def ofSize (size : Nat) : Inbox := { aside := List.replicate size [] }

/-- There is no such rank. -/
def noSuchRank (rank : Nat) : Failure where
  kind := .internal
  message := "Rank out of range"
  fields := [("rank", toString rank)]

/-- A message comes from a rank that does not exist. -/
def unknownRank (rank : Nat) : Failure where
  kind := .protocol
  message := "Frame from unknown rank"
  fields := [("rank", toString rank)]

/-- A worker has closed its side. -/
def closedBy (rank : Nat) (reason : Option String) : Failure where
  kind := .protocol
  message := "Worker closed its channel"
  fields := ("rank", toString rank) :: (reason.map fun text => ("reason", text)).toList

/-- Nothing can arrive any more. -/
def disconnected : Failure := { kind := .protocol, message := "All workers disconnected" }

/-- Goes through the queue to the first message of a rank. There is no answer if the end of the
queue is reached and something may still arrive. -/
def search (rank : Nat) (isOpen : Bool) :
    List Inbound → List (List Message) → Option (Except Failure Message × Inbox)
  | [], aside => if isOpen then none else some (.error disconnected, { aside })
  | .message sender message :: queue, aside =>
    if sender = rank then some (.ok message, { queue, aside })
    else if sender < aside.length then
      search rank isOpen queue (aside.modify sender (· ++ [message]))
    else some (.error (unknownRank sender), { queue, aside })
  | .closed sender reason :: queue, aside =>
    some (.error (closedBy sender reason), { queue, aside })

/-- The next message of a rank: the first one that was put aside, or else the first one in the
queue. -/
def receive (inbox : Inbox) (rank : Nat) (isOpen : Bool) :
    Option (Except Failure Message × Inbox) :=
  match inbox.aside[rank]? with
  | none => some (.error (noSuchRank rank), inbox)
  | some (message :: rest) =>
    some (.ok message, { inbox with aside := inbox.aside.set rank rest })
  | some [] => search rank isOpen inbox.queue inbox.aside

end Inbox

end Rankwise
