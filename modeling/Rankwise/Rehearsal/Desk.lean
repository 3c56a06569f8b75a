import Rankwise.Rehearsal.Report
import Rankwise.Rehearsal.Shipping
import Rankwise.Wire.Plan

/-!
# Rehearsing with a spawner

A desk holds a spawner, what is outside of it, and what was put aside. The steps of a rehearsal use
the spawner and put frames and tables into slots; at the end everything is given up, the spawner
first. Whatever the coordinator does on the way can be told after every step.
-/

namespace Rankwise.Rehearsal

open Json (Decoder)

/-- A spawner with what is outside and what is put aside. -/
structure Desk (σ : Type) where
  world : World
  outside : σ
  spawner : SpawnerId := ⟨0⟩
  slots : Slots := {}
  /-- The spawner was not given up. -/
  isHeld : Bool := true
  /-- A further share of the spawner is held. -/
  isShared : Bool := false

namespace Desk

variable {σ α : Type}

/-- Steps at a desk. -/
abbrev Step (σ : Type) := Stepping (Desk σ)

/-- Acts as the coordinator. -/
def acting (outside : Outside σ) (action : Acting α) : Step σ α := do
  let desk : Desk σ ← get
  let ((answer, world), state) ← conducting outside (action.run desk.world) desk.outside
  set { desk with world, outside := state }
  return answer

/-- Acts as the coordinator, which may fail. -/
def coordinating (outside : Outside σ) (action : Coordinating α) : Step σ α := do
  (← acting outside action.run)

/-- The spawner, if it was not given up. -/
def heldSpawner : Step σ SpawnerId := do
  let desk : Desk σ ← get
  if desk.isHeld then return desk.spawner else throw (.misuse "spawner was dropped")

/-- The frame in a slot that a step names. -/
def frameOf (step : Json) : Step σ Frame := do
  (← get : Desk σ).slots.frameIn (← needText step "slot")

/-- The table for the workers that a step names. -/
def tableOf (step : Json) : Step σ LazyTable := do
  let name ← needText step "lazy"
  match (← get : Desk σ).slots.tables.get? name with
  | some table => return table
  | none => throw (.misuse ("no lazy argument " ++ name))

/-- Changes what is put aside. -/
def putting (outside : Outside σ) (change : Slots → Acting Slots) : Step σ Unit := do
  let slots ← acting outside (change (← get : Desk σ).slots)
  modify fun desk => { desk with slots }

/-- Puts an answer aside if the step says so, or else gives it up. -/
def keeping (outside : Outside σ) (step : Json) (answer : Answer) : Step σ Unit := do
  match ← want Decoder.string step "as" with
  | some name => putting outside (·.putAnswer name answer)
  | none => acting outside answer.release

/-- Tells about an answer. -/
def told (answer : Answer) : Step σ Json := do
  return answer.summary (← get : Desk σ).world.isLive

/-- Tells about a frame. -/
def toldFrame (frame : Frame) : Step σ Json := do
  return frame.summary (← get : Desk σ).world.isLive

/-- The answer in the form that a step asks for. -/
def converted (form : Option String) (answer : Answer) : Coordinating Answer := do
  match form with
  | some "value" => return .value (← answer.toValue)
  | some "frame" => return .frame (← answer.toFrame)
  | some "tuple" => return .tuple (← answer.toTuple)
  | _ => return answer

/-- The computation that a step asks for. -/
def computationOf (step : Json) : Asked Computation := do
  return {
    name := ← needText step "name", parameters := ← wantTexts step "params"
    options := {
      replicated := ← wantTexts step "replicated"
      propagateEnvironment := ← wantTexts step "propagate_env" } }

/-- Makes a call. Frames out of slots are put back as they are after it, whether it fails or not. -/
def submitting (outside : Outside σ) (step : Json) : Step σ Json := do
  let positional ← wantOr [] anything.list step "args"
  let keyword ← wantOr [] (Decoder.named anything) step "kwargs"
  let computation ← computationOf step
  let slots := (← get : Desk σ).slots
  let spawner ← heldSpawner
  let (after, answer) ← coordinating outside (spawner.submit computation {
    positional := ← argumentsOf slots positional
    keyword := (keyword.map Prod.fst).zip
      (← argumentsOf slots (keyword.map Prod.snd)) })
  let changed := passedAll positional after.positional
    ++ passedAll (keyword.map Prod.snd) (after.keyword.map Prod.snd)
  putting outside fun slots => return slots.restore changed
  let answer ← answer
  let answer ← coordinating outside (converted (← want Decoder.string step "into") answer)
  let result ← told answer
  keeping outside step answer
  return result

/-- What is told of a spawner. -/
def statusOf (world : World) (spawner : SpawnerId) : Json :=
  let found := world.spawner? spawner
  let generation := found.bind Spawner.liveGeneration
  .object [("live", .boolean generation.isSome), ("generation", .ofOption .natural generation),
    ("workers", .ofOption .natural (found.bind Spawner.workers?))]

/-- What is told of a table for the workers. -/
def tableSummary (world : World) (table : LazyTable) : Json :=
  let frame := (table.pending? world).map PendingTable.frame
  .object [("id", .ofOption ResultId.encode (table.resultId? world.names)),
    ("rows", .ofOption .natural (frame.map Frame.rows)),
    ("schema", .ofOption .string (frame.map fun frame => frame.schema.text)),
    ("json", (table.encode? world.names).getD Refusal.unwritable.encode)]

/-- The word for a step that is done. -/
def done : Json := .string "ok"

/-- Takes a frame for a table for the workers: one that comes with the step, or a share of one that
was put aside. -/
def frameToKeep (outside : Outside σ) (step : Json) : Step σ Frame := do
  match part? step "data" with
  | some data => return .collected (← reading Batch.decode data)
  | none => acting outside (← frameOf step).share

/-- Carries out a step that uses the spawner or frames. -/
def stepping (outside : Outside σ) (step : Json) : Step σ Json := do
  let desk : Desk σ ← get
  let name := (needText step "as")
  match ← kindOf step with
  | "status" => return statusOf desk.world (← heldSpawner)
  | "submit" => submitting outside step
  | "scatter" =>
    let table ← need Batch.decode step "data"
    let frame ← coordinating outside ((← heldSpawner).scatter table)
    let result ← toldFrame frame
    keeping outside step (.frame frame)
    return result
  | "local" =>
    let frame := Frame.collected (← need Batch.decode step "data")
    putting outside (·.putFrame (← name) frame)
    toldFrame frame
  | "frame" => toldFrame (← frameOf step)
  | "to_batch" => return (← coordinating outside (← frameOf step).table).encode
  | "collect" =>
    let frame ← coordinating outside (← frameOf step).collect
    let slot ← needText step "slot"
    putting outside fun slots => return slots.restore [(slot, frame)]
    return (← coordinating outside frame.table).encode
  | "drop" =>
    let (found, slots) ← acting outside (desk.slots.dropFrame (← needText step "slot"))
    modify fun desk => { desk with slots }
    return .boolean found
  | "clone" =>
    let frame ← acting outside (← frameOf step).share
    putting outside (·.putFrame (← name) frame)
    return done
  | "classify" =>
    let argument ← do argumentOf desk.slots (← part step "arg")
    let (shipment, flags) ← shipped desk.world.isLive step argument
    return .object (shippedAnswer argument shipment flags)
  | "lazy_new" =>
    let table ← acting outside (LazyTable.create (← frameToKeep outside step))
    putting outside (·.putTable (← name) table)
    return done
  | "lazy_remote" =>
    let table ← need LazyTable.decode step "id"
    putting outside (·.putTable (← name) table)
    return done
  | "lazy_init" =>
    let id ← coordinating outside ((← tableOf step).settle (← heldSpawner))
    return .object [("id", id.encode)]
  | "lazy_info" => return tableSummary desk.world (← tableOf step)
  | "lazy_batch" => return (← coordinating outside (← tableOf step).localTable).encode
  | "reset" =>
    coordinating outside (← heldSpawner).reset
    return done
  | "keep_clone" =>
    let spawner ← heldSpawner
    unless desk.isShared do acting outside spawner.share
    modify fun desk => { desk with isShared := true }
    return done
  | "drop_clone" =>
    modify fun desk => { desk with isShared := false }
    if desk.isShared then acting outside desk.spawner.release
    return done
  | "drop_spawner" =>
    modify fun desk => { desk with isHeld := false }
    if desk.isHeld then acting outside desk.spawner.release
    return done
  | other => unknownStep other

/-- Gives everything up, the spawner first: its group is ended before its results could be freed one
by one. -/
def clearing (outside : Outside σ) : Step σ Unit := do
  let desk : Desk σ ← get
  if desk.isHeld then acting outside desk.spawner.release
  if desk.isShared then acting outside desk.spawner.release
  acting outside desk.slots.dropAll

/-- Carries something out and tells what was written down meanwhile. -/
def watching {α : Type} (takeLog : σ → List Event × σ) (action : Step σ α) :
    Step σ (Asked α × Json) := do
  let result ← attempting action
  let (events, state) := takeLog (← get : Desk σ).outside
  modify fun desk => { desk with outside := state }
  return (result, .array (events.map Event.encode))

/-- Carries out a rehearsal with a new spawner. If what is outside is watched, what was written down
is told with each step and with the end. -/
def rehearsing (outside : Outside σ) (log : Option (σ → List Event × σ))
    (options : Environment.GroupOptions) (steps : List Json) : Step σ Json := do
  let id ← acting outside (SpawnerId.create options)
  modify fun desk => { desk with spawner := id }
  match log with
  | none =>
    let results ← steps.mapM fun step => attempting (stepping outside step)
    clearing outside
    return .array (results.map Asked.told)
  | some takeLog =>
    let results ← steps.mapM fun step => do
      let (result, events) ← watching takeLog (stepping outside step)
      return Json.object [("result", Asked.told result), ("channel", events)]
    let (_, events) ← watching takeLog (clearing outside)
    return .array (results ++ [.object [("channel", events)]])

end Desk

end Rankwise.Rehearsal
