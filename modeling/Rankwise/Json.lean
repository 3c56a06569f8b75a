import Rankwise.Double
import Rankwise.Named

/-!
# Structured values

The values that JSON texts stand for. Integers are kept apart from doubles, since only integers are
exact. The members of an object are listed in the order in which they are written; `sorted` brings
them into the order of their names.
-/

namespace Rankwise

/-- A structured value. -/
inductive Json where
  | null
  | boolean (value : Bool)
  | integer (value : Int)
  | double (value : Double)
  | string (value : String)
  | array (items : List Json)
  | object (members : List (String × Json))
deriving Repr

namespace Json

mutual

/-- The same value with the members of all objects by increasing name. -/
def sorted : Json → Json
  | array items => array (sortedItems items)
  | object members => object (Named.ofList (sortedMembers members))
  | other => other

/-- Sorts the objects within each item. -/
def sortedItems : List Json → List Json
  | [] => []
  | item :: rest => sorted item :: sortedItems rest

/-- Sorts the objects within each member. -/
def sortedMembers : List (String × Json) → List (String × Json)
  | [] => []
  | (name, value) :: rest => (name, sorted value) :: sortedMembers rest

end

mutual

/-- How many arrays and objects are open at once, at most. -/
def depth : Json → Nat
  | array items => 1 + depthOfItems items
  | object members => 1 + depthOfMembers members
  | _ => 0

/-- The greatest depth of the items. -/
def depthOfItems : List Json → Nat
  | [] => 0
  | item :: rest => max (depth item) (depthOfItems rest)

/-- The greatest depth of the members. -/
def depthOfMembers : List (String × Json) → Nat
  | [] => 0
  | (_, value) :: rest => max (depth value) (depthOfMembers rest)

end

/-- A number of things. -/
def natural (n : Nat) : Json := integer n

/-- The texts as an array. -/
def strings (texts : List String) : Json := array (texts.map string)

/-- The value, or null if there is none. -/
def ofOption {α : Type} (encode : α → Json) : Option α → Json
  | some value => encode value
  | none => null

/-- A choice that carries a value: an object with the name of the choice as its only key. -/
def choice (name : String) (payload : Json) : Json := object [(name, payload)]

/-- The member of an object under a name. -/
def member? (value : Json) (name : String) : Option Json :=
  match value with
  | object members => members.lookup name
  | _ => none

end Json

end Rankwise
