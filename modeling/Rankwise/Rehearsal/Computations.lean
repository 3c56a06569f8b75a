import Rankwise.Group.Registry

/-!
# Computations for rehearsals

Computations that tell what a worker sees, that fail on some ranks only, and that tamper with what
the worker keeps.
-/

namespace Rankwise.Rehearsal

/-- A number as a value. -/
def countValue (n : Nat) : Value := .scalar (.ofCount n)

/-- The same value on every rank. -/
def replicated (value : Value) : Output := .replicated value

/-- The text at a place among the positional arguments. -/
def textAt (arguments : Arguments) (index : Nat) : Except Failure String := do
  match ← arguments.at? index with
  | .scalar (.utf8 content) => return content
  | _ => throw { kind := .invalidInput, message := "Expected a string" }

/-- Whether a rank is among the numbers in the tuple that is the first argument. -/
def isListed (arguments : Arguments) (rank : Nat) : Bool :=
  match arguments.positional.head? with
  | some (.tuple items) => items.any fun item =>
    match item with
    | .scalar value => value.count? = some rank
    | _ => false
  | _ => false

/-- The number of rows of the table under the keyword `df`, or else of the first argument. -/
def localRows : Body := fun _ _ arguments => do
  let table ← (match arguments.keyword.get? "df" with
    | some (.table table) => .ok table
    | some _ => .error { kind := .invalidInput, message := "Expected a table" }
    | none => arguments.tableAt 0 : Except Failure Batch)
  return replicated (countValue table.rows)

/-- How many results the worker keeps, and whether it keeps none. -/
def storedResults : Body := fun _ _ _ => do
  let store : ResultStore ← get
  return replicated (.tuple [countValue store.length, .scalar (.boolean store.isEmpty)])

/-- Fails on the listed ranks, everywhere in the same way. -/
def failOn : Body := fun context _ arguments => do
  if isListed arguments context.rank then
    throw (.failed { kind := .invalidInput, message := "column 'b' not found" })
  return replicated .null

/-- Fails on the listed ranks, on each in its own way. -/
def failEach : Body := fun context _ arguments => do
  if isListed arguments context.rank then
    let kind ← (textAt arguments 1 : Except Failure String)
    throw (.failed {
      kind := .ofName kind, message := "failure on " ++ toString context.rank
      fields := [("size", toString context.size)] })
  return replicated .null

/-- The size of the group and the table. -/
def split : Body := fun context _ arguments => do
  let table ← (arguments.tableAt 0 : Except Failure Batch)
  return .tuple [replicated (countValue context.size), .distributed table]

/-- The size of the group and the table, by name. -/
def sizeAndPart : Body := fun context _ arguments => do
  let table ← (arguments.tableAt 0 : Except Failure Batch)
  return .map [("part", .distributed table), ("size", replicated (countValue context.size))]

/-- Tables within tuples and maps. -/
def nested : Body := fun context _ arguments => do
  let table ← (arguments.tableAt 0 : Except Failure Batch)
  return .tuple [
    .map [("a", .tuple [replicated (countValue context.rank), .distributed table]),
      ("b", .distributed (table.slice 0 1))],
    .tuple [],
    .distributed (table.slice 1 table.rows)]

/-- The value of a variable, if it was handed on. -/
def readVariable : Body := fun context _ arguments => do
  let name ← (textAt arguments 0 : Except Failure String)
  return replicated (((context.environment.get? name).map fun value =>
    Value.scalar (.utf8 value)).getD .null)

/-- Which of the named parameters arrived as partitions. -/
def isDistributed : Body := fun context _ arguments => do
  let names ← ((List.range arguments.positional.length).mapM (textAt arguments) :
    Except Failure (List String))
  return replicated (.tuple (names.map fun name => .scalar (.boolean (context.isDistributed name))))

/-- Breaks off. -/
def panic : Body := fun _ _ _ => throw (.panicked "worker exploded")

/-- Ends the worker on the listed ranks. -/
def exit : Body := fun context _ arguments => do
  if isListed arguments context.rank then throw .exited
  return replicated .null

/-- Keeps the first row of the table under a name of its own. -/
def keepFirstRow : Body := fun _ _ arguments => do
  let table ← (arguments.tableAt 0 : Except Failure Batch)
  let id ← (textAt arguments 1 : Except Failure String)
  modify fun store : ResultStore => store.put ⟨id⟩ (table.slice 0 1)
  return replicated .null

/-- Forgets a result on the listed ranks, and says whether there was one. -/
def forget : Body := fun context _ arguments => do
  if isListed arguments context.rank then
    let id : ResultId := ⟨← (textAt arguments 1 : Except Failure String)⟩
    let store : ResultStore ← get
    set (store.erase id)
    return replicated (.scalar (.boolean (store.find? id).isSome))
  return replicated (.scalar (.boolean false))

/-- Calls the function that is the first argument with the other arguments. -/
def invoke : Body := fun _ call arguments => do
  match ← (arguments.at? 0 : Except Failure Value) with
  | .function name => call name { positional := arguments.positional.drop 1 }
  | other =>
    throw (.failed {
      kind := .invalidInput, message := "Expected a function"
      fields := [("got", other.kindName)] })

/-- All arguments, as they arrived. -/
def allArguments : Body := fun _ _ arguments =>
  return replicated (.tuple [countValue arguments.positional.length,
    .tuple arguments.positional, .map arguments.keyword])

/-- The computations for rehearsals, by name. -/
def computations : List (String × Body) :=
  [("local_rows", localRows), ("stored_results", storedResults), ("fail_on", failOn),
    ("fail_each", failEach), ("split", split), ("size_and_part", sizeAndPart), ("nested", nested),
    ("read_env", readVariable), ("is_distributed", isDistributed), ("panic", panic),
    ("exit", exit), ("keep_first_row", keepFirstRow), ("forget", forget), ("invoke", invoke),
    ("kwargs", allArguments)]

end Rankwise.Rehearsal
