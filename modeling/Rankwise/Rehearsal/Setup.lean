import Rankwise.Rehearsal.RecordingEngine
import Rankwise.Rehearsal.Script
import Rankwise.Wire.Message

/-!
# Setting up a rehearsal

How engines and scripts for rehearsals are described in structured values. Everything may be left
out.
-/

namespace Rankwise.Rehearsal

open Json (Decoder Record)

/-- What optimizing does. Any other word means that it does nothing. -/
def Optimizing.ofName : Option String → Optimizing
  | some "fail" => failing
  | some "first_child" => firstChild
  | _ => nothing

/-- Reads how an engine is to behave. -/
def Recording.decode : Decoder Recording := fun room written => do
  let record ← Record.open? ["cardinality", "results", "fail_on", "fail_execute", "optimize"]
    room written
  return {
    options := {
      rows := ← record.field? "cardinality" Decoder.size
      refused := ← record.field? "fail_on" Decoder.string
      failsToExecute := (← record.field? "fail_execute" Decoder.boolean).getD false
      optimizing := .ofName (← record.field? "optimize" Decoder.string) }
    results := (← record.field? "results" Batch.decode.list).getD [] }

/-- Reads what the workers of a group will send, and what will fail. -/
def Script.decode : Decoder Script := fun room written => do
  let record ← Record.open? ["recv", "fail_send_after", "fail_shutdown"] room written
  return {
    incoming := (← record.field? "recv" Message.decode.list.list).getD []
    sendLimit := ← record.field? "fail_send_after" Decoder.size
    failsToClose := (← record.field? "fail_shutdown" Decoder.boolean).getD false }

end Rankwise.Rehearsal
