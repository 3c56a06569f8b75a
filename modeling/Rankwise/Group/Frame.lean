import Rankwise.Group.Message

/-!
# Frames

A frame is a table that the coordinator either holds itself or that lies in partitions on the
workers of a group. In the second case the frame has a handle, the right to the result. Handles can
be shared; the result is freed when the last share is given up. A group may end while there are
handles for its results, and such frames are stale.
-/

namespace Rankwise

/-- The name of a spawner. -/
structure SpawnerId where
  index : Nat
deriving DecidableEq, Repr

/-- The right to a result on the workers. -/
structure Handle where
  /-- Tells this right from all others. Its shares all bear the same number. -/
  key : Nat
  id : ResultId
  /-- The generation of the group that stores the result. -/
  generation : Nat
  /-- The spawner that started the group. -/
  owner : SpawnerId
deriving DecidableEq, Repr

/-- What the coordinator knows about a result that lies in partitions on the workers. -/
structure Partitioned where
  id : ResultId
  schema : Schema
  /-- The number of rows in the partition of each rank, by rank. -/
  partitionRows : List Nat
deriving DecidableEq, Repr

namespace Partitioned

/-- A result with no partitions at all. -/
def noPartitions : Failure where
  kind := .protocol
  message := "Distributed result with no partitions"

/-- The result that consists of the given partitions. It has the schema of the first one. -/
def ofPartitions (id : ResultId) (parts : List PartitionMeta) : Except Failure Partitioned :=
  match parts with
  | [] => .error noPartitions
  | first :: _ =>
    .ok { id, schema := first.schema, partitionRows := parts.map PartitionMeta.rows }

/-- The number of rows in all partitions. Each rank says how many it has, up to the largest machine
word, and the numbers are added without bound, where the program breaks off or wraps around. -/
def rows (partitioned : Partitioned) : Nat := partitioned.partitionRows.foldr (· + ·) 0

/-- The same result after its partitions have changed. -/
def updated (partitioned : Partitioned) (parts : List PartitionMeta) : Partitioned :=
  { partitioned with
    schema := (parts.head?.map PartitionMeta.schema).getD partitioned.schema
    partitionRows := parts.map PartitionMeta.rows }

end Partitioned

/-- A table, held by the coordinator or lying in partitions on the workers. -/
inductive Frame where
  | collected (table : Batch)
  | distributed (partitioned : Partitioned) (handle : Handle)
deriving DecidableEq, Repr

/-- Where the data of a frame is. -/
inductive Residency where
  /-- The coordinator holds it. -/
  | held
  /-- A live group stores it. -/
  | resident (id : ResultId)
  /-- A group stored it that is no more. -/
  | stale (id : ResultId)
deriving DecidableEq, Repr

namespace Frame

/-- Where the data of the frame is, given which handles belong to live groups. -/
def residency (isLive : Handle → Bool) : Frame → Residency
  | collected _ => .held
  | distributed _ handle => if isLive handle then .resident handle.id else .stale handle.id

/-- Whether the table lies on workers. -/
def isDistributed : Frame → Bool
  | collected _ => false
  | distributed _ _ => true

/-- The handle of a frame whose table lies on workers. -/
def handle? : Frame → Option Handle
  | collected _ => none
  | distributed _ handle => some handle

/-- The name of the result that the frame stands for. -/
def resultId? (frame : Frame) : Option ResultId := frame.handle?.map Handle.id

/-- What is known about the result that the frame stands for. -/
def partitioned? : Frame → Option Partitioned
  | collected _ => none
  | distributed partitioned _ => some partitioned

/-- The schema of the table. -/
def schema : Frame → Schema
  | collected table => table.schema
  | distributed partitioned _ => partitioned.schema

/-- The number of rows of the table. -/
def rows : Frame → Nat
  | collected table => table.rows
  | distributed partitioned _ => partitioned.rows

/-- The same frame after its partitions have changed. -/
def updated (frame : Frame) (parts : List PartitionMeta) : Frame :=
  match frame with
  | collected table => collected table
  | distributed partitioned handle => distributed (partitioned.updated parts) handle

end Frame

/-- A table of a context that is handed to a computation. -/
inductive ContextTable where
  /-- A table that the workers read themselves. -/
  | path (path : String)
  | data (table : Batch)
  | frame (frame : Frame)
deriving DecidableEq, Repr

/-- Named tables with the catalog and the time zone that go with them. -/
structure ContextArgument where
  tables : Named ContextTable := []
  catalog : Option String := none
  timeZone : Option String := none
deriving DecidableEq, Repr

/-- What the coordinator hands to a computation. -/
inductive Argument where
  | value (value : Value)
  | frame (frame : Frame)
  | tuple (items : List Argument)
  | context (context : ContextArgument)
deriving Repr

/-- The positional and the named arguments of a call. -/
structure CallArguments where
  positional : List Argument := []
  keyword : List (String × Argument) := []
deriving Repr

end Rankwise
