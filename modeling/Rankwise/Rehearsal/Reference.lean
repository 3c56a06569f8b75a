import Rankwise.Json
import Rankwise.Text.Blank

/-!
# References to earlier steps

In the steps of a rehearsal the text `@3` stands for what step 3 has made, and `@3.1` for the second
of the things that it has made. Before a step is read, what is meant is put in the place of such
texts.
-/

namespace Rankwise.Rehearsal

/-- The step and the place among the things that it has made which a text refers to. -/
def placeOf? (text : String) : Option (Nat × Nat) :=
  match text.toList with
  | '@' :: rest =>
    match rest.span (· ≠ '.') with
    | (step, []) => (Text.decimal? step).map (·, 0)
    | (step, _ :: index) => do return (← Text.decimal? step, ← Text.decimal? index)
  | _ => none

mutual

/-- Puts what the steps have made in the place of references. Fails with the first reference to
something that is not there. -/
def withMade (made : List (List Json)) : Json → Except String Json
  | .string text =>
    match placeOf? text with
    | none => .ok (.string text)
    | some (step, index) =>
      match made[step]?.bind fun things => things[index]? with
      | some thing => .ok thing
      | none => .error text
  | .array items => do return .array (← withMadeInItems made items)
  | .object members => do return .object (← withMadeInMembers made members)
  | other => .ok other

/-- Puts what the steps have made in the place of references in items. -/
def withMadeInItems (made : List (List Json)) : List Json → Except String (List Json)
  | [] => .ok []
  | item :: rest => do return (← withMade made item) :: (← withMadeInItems made rest)

/-- Puts what the steps have made in the place of references in members. -/
def withMadeInMembers (made : List (List Json)) :
    List (String × Json) → Except String (List (String × Json))
  | [] => .ok []
  | (name, value) :: rest => do
    return (name, ← withMade made value) :: (← withMadeInMembers made rest)

end

end Rankwise.Rehearsal
