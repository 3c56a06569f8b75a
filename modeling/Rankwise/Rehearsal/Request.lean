import Rankwise.Group.Dialogue
import Rankwise.Wire.Failure
import Rankwise.Wire.Plan

/-!
# Requests

Rehearsals are asked for in structured values. A request holds named parts; a part that need not be
there may also be null. A request can be refused without reaching the program: when a part cannot be
read, or when it speaks of something that was never put aside. Most requests consist of steps, which
are carried out one after the other, whether or not those before were refused.
-/

namespace Rankwise.Rehearsal

open Json (Decoder)

/-- Why a request has no result. -/
inductive Refusal where
  /-- A part is missing or cannot be read. -/
  | unreadable
  /-- The answer cannot be written. -/
  | unwritable
  /-- The request is not one that could be meant. -/
  | misuse (text : String)
  /-- The program fails. -/
  | failed (failure : Failure)
  /-- The program does not come to an end. -/
  | unending
  /-- The program breaks off. -/
  | panicked
deriving Inhabited

/-- How a refusal is told. -/
def Refusal.encode : Refusal → Json
  | unreadable => .object [("error", .string "Decode")]
  | unwritable => .object [("error", .string "Encode")]
  | misuse text => .object [("error", .string "driver"), ("message", .string text)]
  | failed failure => failure.encode
  | unending => .object [("error", .string "unending")]
  | panicked => .object [("error", .string "panic")]

/-- A result, or why there is none. -/
abbrev Asked := Except Refusal

namespace Asked

variable {α : Type}

/-- The request is not one that could be meant. -/
def misuse (text : String) : Asked α := .error (.misuse text)

/-- The result of the program. -/
def ofExcept (result : Except Failure α) : Asked α := result.mapError Refusal.failed

/-- The result of a part of the program that may not come to an end. -/
def ofStopping (result : Except Stop α) : Asked α :=
  result.mapError fun
    | .failed failure => .failed failure
    | .unending => .unending
    | .overflow => .panicked

/-- What is told of the result. -/
def told : Asked Json → Json
  | .ok value => value
  | .error refusal => refusal.encode

end Asked

instance : MonadLift (Except Failure) (Except Refusal) where
  monadLift := Asked.ofExcept

instance : MonadLift (Except Stop) (Except Refusal) where
  monadLift := Asked.ofStopping

/-! The parts of requests. -/

section Parts

variable {α : Type}

/-- Reads a value. -/
def reading (decoder : Decoder α) (value : Json) : Asked α :=
  match Json.readValue? decoder value with
  | some found => .ok found
  | none => .error .unreadable

/-- A part that need not be there. -/
def part? (request : Json) (name : String) : Option Json :=
  match request.member? name with
  | some .null | none => none
  | found => found

/-- A part that has to be there. -/
def part (request : Json) (name : String) : Asked Json :=
  match request.member? name with
  | some found => .ok found
  | none => .error .unreadable

/-- Reads a part that has to be there. -/
def need (decoder : Decoder α) (request : Json) (name : String) : Asked α := do
  reading decoder (← part request name)

/-- Reads a part that need not be there. -/
def want (decoder : Decoder α) (request : Json) (name : String) : Asked (Option α) :=
  (part? request name).mapM (reading decoder)

/-- Reads a part, or takes something else in its place. -/
def wantOr (default : α) (decoder : Decoder α) (request : Json) (name : String) : Asked α := do
  return (← want decoder request name).getD default

/-- Reads a text that has to be there. -/
def needText : Json → String → Asked String := need Decoder.string

/-- Reads a size that has to be there. -/
def needSize : Json → String → Asked Nat := need Decoder.size

/-- Reads a list that has to be there. -/
def needList (decoder : Decoder α) : Json → String → Asked (List α) := need decoder.list

/-- Reads texts that need not be there. -/
def wantTexts : Json → String → Asked (List String) := wantOr [] Decoder.string.list

/-- Reads a node that has to be there. -/
def needNode : Json → String → Asked NodeId := need NodeId.decode

/-- Reads anything. -/
def anything : Decoder Json := Json.decode

/-- The steps of a request. -/
def stepsOf (request : Json) : Asked (List Json) := needList anything request "steps"

/-- The kind of a step. -/
def kindOf (step : Json) : Asked String := needText step "do"

end Parts

/-! Steps. -/

/-- A step that may change what was put aside, and may be refused. -/
abbrev Stepping (σ : Type) := ExceptT Refusal (StateM σ)

section Steps

variable {σ α : Type}

instance : MonadLift (Except Refusal) (ExceptT Refusal (StateM σ)) where
  monadLift result := ExceptT.mk (pure result)

/-- A step of a kind that there is not. -/
def unknownStep (kind : String) : Asked α := .misuse ("unknown step " ++ kind)

/-- Carries a step out and goes on even if it was refused. -/
def attempting (step : Stepping σ α) : Stepping σ (Asked α) :=
  ExceptT.mk do return .ok (← step.run)

/-- Carries all steps out and tells their answers. -/
def answers (steps : List Json) (step : Json → Stepping σ Json) : StateM σ (List Json) :=
  steps.mapM fun request => do return Asked.told (← (step request).run)

end Steps

/-- Conducts a dialogue to its end. -/
def conducting {σ α : Type} (outside : Outside σ) (dialogue : Dialogue α) (state : σ) :
    Asked (α × σ) :=
  match dialogue.run outside state with
  | some found => .ok found
  | none => .error .unending

end Rankwise.Rehearsal
