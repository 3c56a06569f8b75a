import Rankwise.CallId

/-!
# Names in place of identifiers

Identifiers of calls differ from one run to the next. Before two rehearsals are compared, each
identifier in their reports is replaced by a name: the first one that occurs by `uuid-1`, the next
one that differs from it by `uuid-2`, and so on.
-/

namespace Rankwise.Rehearsal

/-- How many characters an identifier in groups takes. -/
def identifierLength : Nat := 36

/-- The identifier at the start of a text. -/
def leadingIdentifier? (text : List Char) : Option (List Char) :=
  let start := text.take identifierLength
  (CallId.ofGroups? start).map fun _ => start

/-- Replaces identifiers, given those that have names already and how many characters belong to one
that was just replaced. -/
def renameFrom (named : List (List Char)) : Nat → List Char → List Char
  | _, [] => []
  | skipped + 1, _ :: rest => renameFrom named skipped rest
  | 0, char :: rest =>
    match leadingIdentifier? (char :: rest) with
    | none => char :: renameFrom named 0 rest
    | some identifier =>
      let known := if named.contains identifier then named else named ++ [identifier]
      let name := "uuid-" ++ toString (known.idxOf identifier + 1)
      name.toList ++ renameFrom known (identifierLength - 1) rest

/-- The text with names in place of the identifiers. -/
def rename (text : String) : String := String.ofList (renameFrom [] 0 text.toList)

end Rankwise.Rehearsal
