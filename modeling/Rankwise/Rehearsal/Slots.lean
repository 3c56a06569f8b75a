import Rankwise.Group.Spawner

/-!
# Things put aside during a rehearsal

Frames and tables for the workers are kept under names. Whatever is put under a name takes the place
of what was there, and that is given up.
-/

namespace Rankwise

namespace Answer

mutual

/-- The frames of an answer under names that tell their places: the name of the whole, then the
number of the item or the name of the entry, after dots. -/
def placed (name : String) : Answer → List (String × Frame)
  | value _ => []
  | frame found => [(name, found)]
  | tuple items => placedItems name 0 items
  | map entries => placedEntries name entries

/-- The frames of the items of a tuple from a number on. -/
def placedItems (name : String) (index : Nat) : List Answer → List (String × Frame)
  | [] => []
  | item :: rest =>
    placed (name ++ "." ++ toString index) item ++ placedItems name (index + 1) rest

/-- The frames of the entries of a map. -/
def placedEntries (name : String) : List (String × Answer) → List (String × Frame)
  | [] => []
  | (key, entry) :: rest => placed (name ++ "." ++ key) entry ++ placedEntries name rest

end

end Answer

namespace Rehearsal

/-- What is put aside, by name. -/
structure Slots where
  frames : Named Frame := []
  tables : Named LazyTable := []

namespace Slots

/-- Puts a frame aside. -/
def putFrame (slots : Slots) (name : String) (frame : Frame) : Acting Slots := do
  (slots.frames.get? name).forM Frame.release
  return { slots with frames := slots.frames.insert name frame }

/-- Puts all frames of an answer aside. -/
def putAnswer (slots : Slots) (name : String) (answer : Answer) : Acting Slots :=
  (answer.placed name).foldlM (fun slots (place, frame) => slots.putFrame place frame) slots

/-- Puts a table for the workers aside. -/
def putTable (slots : Slots) (name : String) (table : LazyTable) : Acting Slots := do
  (slots.tables.get? name).forM LazyTable.release
  return { slots with tables := slots.tables.insert name table }

/-- Gives up what is under a name, and tells whether there was a frame. -/
def dropFrame (slots : Slots) (name : String) : Acting (Bool × Slots) := do
  match slots.frames.get? name with
  | none => return (false, slots)
  | some frame =>
    frame.release
    return (true, { slots with frames := slots.frames.filter fun entry => entry.1 ≠ name })

/-- What has become of some frames during a call. Every one stands for the same results as before.
-/
def restore (slots : Slots) (changed : List (String × Frame)) : Slots :=
  { slots with
    frames := changed.foldl (fun frames (name, frame) => frames.insert name frame) slots.frames }

/-- Gives up everything, the frames first. -/
def dropAll (slots : Slots) : Acting Unit := do
  slots.frames.forM fun (_, frame) => frame.release
  slots.tables.forM fun (_, table) => table.release

end Slots

end Rehearsal

end Rankwise
