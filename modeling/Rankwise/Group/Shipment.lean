import Rankwise.Group.Frame

/-!
# How arguments are shipped

Before anything is sent, every argument is looked at: what of it is sent as it is, and what is
replaced by a placeholder whose data follows. The *shipment* of an argument says so and the
*skeleton* is the argument with the placeholders in it. Tables are sent whole to every rank if their
parameter is replicated, and in one block per rank otherwise; the parameters of such tables are
noted. What the workers hold already is only named. A frame whose group is no more cannot be
shipped.
-/

namespace Rankwise

/-- How an argument is shipped. -/
inductive Shipment where
  /-- Nothing in it is replaced. -/
  | asIs
  | transfer (transfer : Transfer)
  | tuple (items : List Shipment)
  | map (entries : List (String × Shipment))
  | context (context : ContextShipment)
deriving Repr

namespace Shipment

/-- Whether nothing is replaced. -/
def isAsIs : Shipment → Bool
  | asIs => true
  | _ => false

/-- Notes a parameter, once. -/
def note (parameter : String) (noted : List String) : List String :=
  if noted.contains parameter then noted else noted ++ [parameter]

/-- How a table that is sent reaches the ranks. -/
def transferOf (replicated : Bool) : Transfer := if replicated then .broadcast else .scatter

/-- The result of a group that is no more. -/
def staleFrame (parameter : String) (id : ResultId) : Failure where
  kind := .protocol
  message := "Argument references a result from a process group that was reset"
  fields := [("param", parameter), ("result_id", id.text)]

/-- Looking at arguments, in order. The parameters whose tables are sent are noted; there may be a
failure. -/
abbrev Looking (α : Type) := StateT (List String) (Except Failure) α

/-- How a table is shipped that the coordinator holds. -/
def ofTable (parameter : String) (replicated : Bool) : Looking Transfer := do
  modify (note parameter)
  return transferOf replicated

/-- How a frame is shipped. -/
def ofFrame (isLive : Handle → Bool) (parameter : String) (replicated : Bool) (frame : Frame) :
    Looking Transfer :=
  match frame.residency isLive with
  | .resident _ => return .lazy
  | .held => ofTable parameter replicated
  | .stale id => throw (staleFrame parameter id)

mutual

/-- How a value is shipped. Tuples and maps without tables in them are sent as they are. -/
def ofValue (parameter : String) (replicated : Bool) : Value → Looking Shipment
  | .table _ => do return transfer (← ofTable parameter replicated)
  | .tuple items => do
    let shipments ← ofValues parameter replicated items
    return if shipments.all isAsIs then asIs else tuple shipments
  | .map entries => do
    let shipments ← ofEntries parameter replicated entries
    return if shipments.all fun entry => entry.2.isAsIs then asIs else map shipments
  | _ => return asIs

/-- How the items of a tuple are shipped. -/
def ofValues (parameter : String) (replicated : Bool) : List Value → Looking (List Shipment)
  | [] => return []
  | item :: rest => do
    return (← ofValue parameter replicated item) :: (← ofValues parameter replicated rest)

/-- How the entries of a map are shipped. -/
def ofEntries (parameter : String) (replicated : Bool) :
    List (String × Value) → Looking (List (String × Shipment))
  | [] => return []
  | (name, entry) :: rest => do
    return (name, ← ofValue parameter replicated entry)
      :: (← ofEntries parameter replicated rest)

end

/-- How a table of a context is shipped. -/
def ofContextTable (isLive : Handle → Bool) (parameter : String) (replicated : Bool) :
    ContextTable → Looking TableShipment
  | .path path => return .path path
  | .data _ => do return .placeholder (← ofTable parameter replicated)
  | .frame frame => do return .placeholder (← ofFrame isLive parameter replicated frame)

/-- How a context is shipped. One without tables is sent as it is. -/
def ofContext (isLive : Handle → Bool) (parameter : String) (replicated : Bool)
    (found : ContextArgument) : Looking Shipment := do
  if found.tables.isEmpty then return asIs
  let tables ← found.tables.mapM fun (name, table) => do
    return (name, ← ofContextTable isLive parameter replicated table)
  return context { tables, catalog := found.catalog, timeZone := found.timeZone }

mutual

/-- How an argument is shipped. -/
def ofArgument (isLive : Handle → Bool) (parameter : String) (replicated : Bool) :
    Argument → Looking Shipment
  | .value value => ofValue parameter replicated value
  | .frame frame => do return transfer (← ofFrame isLive parameter replicated frame)
  | .tuple items => do return tuple (← ofArguments isLive parameter replicated items)
  | .context found => ofContext isLive parameter replicated found

/-- How the items of a tuple are shipped. -/
def ofArguments (isLive : Handle → Bool) (parameter : String) (replicated : Bool) :
    List Argument → Looking (List Shipment)
  | [] => return []
  | item :: rest => do
    return (← ofArgument isLive parameter replicated item)
      :: (← ofArguments isLive parameter replicated rest)

end

/-- The shipment belongs to another argument. -/
def mismatch : Failure where
  kind := .internal
  message := "Argument does not match its classification"

/-- The shipment of an entry. -/
def entry? (entries : List (String × Shipment)) (name : String) : Except Failure Shipment :=
  match entries.lookup name with
  | some shipment => .ok shipment
  | none => .error (mismatch.withField "key" name)

mutual

/-- A value with the placeholders in it. -/
def skeletonOfValue : Value → Shipment → Except Failure Skeleton
  | _, transfer found => .ok (.placeholder found)
  | value, asIs => .ok (.value value)
  | .tuple items, tuple shipments =>
    if shipments.length = items.length then
      return .tuple (← skeletonsOfValues items shipments)
    else .error mismatch
  | .map entries, map shipments =>
    if shipments.length = entries.length then
      return .map (← skeletonsOfEntries entries shipments)
    else .error mismatch
  | _, _ => .error mismatch

/-- The items of a tuple with the placeholders in them. -/
def skeletonsOfValues : List Value → List Shipment → Except Failure (List Skeleton)
  | item :: items, shipment :: shipments => do
    return (← skeletonOfValue item shipment) :: (← skeletonsOfValues items shipments)
  | _, _ => .ok []

/-- The entries of a map with the placeholders in them. -/
def skeletonsOfEntries : List (String × Value) → List (String × Shipment) →
    Except Failure (List (String × Skeleton))
  | [], _ => .ok []
  | (name, value) :: rest, shipments => do
    let skeleton ← skeletonOfValue value (← entry? shipments name)
    return (name, skeleton) :: (← skeletonsOfEntries rest shipments)

end

mutual

/-- An argument with the placeholders in it. -/
def skeleton : Argument → Shipment → Except Failure Skeleton
  | _, transfer found => .ok (.placeholder found)
  | .value value, asIs => .ok (.value value)
  | .context found, asIs =>
    .ok (.value (.context { catalog := found.catalog, timeZone := found.timeZone }))
  | .tuple items, tuple shipments =>
    if shipments.length = items.length then return .tuple (← skeletons items shipments)
    else .error mismatch
  | .value (.tuple items), tuple shipments => skeletonOfValue (.tuple items) (tuple shipments)
  | .value value, map shipments => skeletonOfValue value (map shipments)
  | .context _, context shipment => .ok (.context shipment)
  | _, _ => .error mismatch

/-- The items of a tuple with the placeholders in them. -/
def skeletons : List Argument → List Shipment → Except Failure (List Skeleton)
  | item :: items, shipment :: shipments => do
    return (← skeleton item shipment) :: (← skeletons items shipments)
  | _, _ => .ok []

end

mutual

/-- How many frames of an argument are only named. Those among the tables of a context do not
count. -/
def lazyFrames : Argument → Shipment → Nat
  | .frame _, transfer .lazy => 1
  | .tuple items, tuple shipments => lazyFramesOf items shipments
  | _, _ => 0

/-- How many frames among some arguments are only named. -/
def lazyFramesOf : List Argument → List Shipment → Nat
  | item :: items, shipment :: shipments =>
    lazyFrames item shipment + lazyFramesOf items shipments
  | _, _ => 0

end

/-- The partitions of results after a call, in the order in which their frames were named. A result
that some rank no longer stores has none. -/
abbrev Updates := List (Option (List PartitionMeta))

/-- A frame after a call. -/
def updatedFrame (frame : Frame) : StateM Updates Frame := do
  match ← get with
  | [] => return frame
  | update :: rest =>
    set rest
    return update.elim frame frame.updated

mutual

/-- The argument after a call: the frames that were only named know their new partitions. -/
def updated : Argument → Shipment → StateM Updates Argument
  | .frame frame, transfer .lazy => do return .frame (← updatedFrame frame)
  | .tuple items, tuple shipments => do return .tuple (← updatedAll items shipments)
  | argument, _ => return argument

/-- The arguments after a call. -/
def updatedAll : List Argument → List Shipment → StateM Updates (List Argument)
  | item :: items, shipment :: shipments => do
    return (← updated item shipment) :: (← updatedAll items shipments)
  | rest, _ => return rest

end

end Shipment

end Rankwise
