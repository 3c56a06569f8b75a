import Rankwise.Wire.Value

/-!
# Whole numbers

Values in which all numbers are integers that fit a word are written and read exactly. Tables,
values and messages are of this kind, since a double in a table is written as its bit pattern.
-/

namespace Rankwise.Json

mutual

/-- All numbers are integers that fit a word. -/
def IsWhole : Json → Prop
  | integer value => -0x8000000000000000 ≤ value ∧ value < 0x10000000000000000
  | double _ => False
  | array items => ItemsAreWhole items
  | object members => MembersAreWhole members
  | _ => True

/-- All numbers in the items are such integers. -/
def ItemsAreWhole : List Json → Prop
  | [] => True
  | item :: rest => IsWhole item ∧ ItemsAreWhole rest

/-- All numbers in the members are such integers. -/
def MembersAreWhole : List (String × Json) → Prop
  | [] => True
  | (_, value) :: rest => IsWhole value ∧ MembersAreWhole rest

end

/-- Items are whole if each of them is. -/
theorem itemsAreWhole_iff (items : List Json) :
    ItemsAreWhole items ↔ ∀ item ∈ items, item.IsWhole := by
  induction items with
  | nil => simp [ItemsAreWhole]
  | cons item rest inductionHypothesis => simp [ItemsAreWhole, inductionHypothesis]

/-- Members are whole if the value of each of them is. -/
theorem membersAreWhole_iff (members : List (String × Json)) :
    MembersAreWhole members ↔ ∀ member ∈ members, member.2.IsWhole := by
  induction members with
  | nil => simp [MembersAreWhole]
  | cons member rest inductionHypothesis => simp [MembersAreWhole, inductionHypothesis]

/-- An array is whole if its items are. -/
@[simp] theorem isWhole_array (items : List Json) :
    (array items).IsWhole ↔ ∀ item ∈ items, item.IsWhole := itemsAreWhole_iff items

/-- An object is whole if the values of its members are. -/
@[simp] theorem isWhole_object (members : List (String × Json)) :
    (object members).IsWhole ↔ ∀ member ∈ members, member.2.IsWhole := membersAreWhole_iff members

/-- The null value holds no number. -/
@[simp] theorem isWhole_null : null.IsWhole := trivial

/-- Nor does a truth value. -/
@[simp] theorem isWhole_boolean (value : Bool) : (boolean value).IsWhole := trivial

/-- Nor does a text. -/
@[simp] theorem isWhole_string (value : String) : (string value).IsWhole := trivial

/-- A choice is whole if its payload is. -/
@[simp] theorem isWhole_choice (name : String) (payload : Json) :
    (choice name payload).IsWhole ↔ payload.IsWhole := by
  simp [choice]

/-- A list of texts holds no number. -/
@[simp] theorem isWhole_strings (texts : List String) : (strings texts).IsWhole := by
  simp [strings]

/-- An optional value is whole if the value is, where there is one. -/
@[simp] theorem isWhole_ofOption {α : Type} (encode : α → Json) (value : Option α) :
    (ofOption encode value).IsWhole ↔ ∀ found ∈ value, (encode found).IsWhole := by
  cases value <;> simp [ofOption]

/-- Named entries are whole if each of them is. -/
@[simp] theorem isWhole_named {α : Type} (encode : α → Json) (entries : Named α) :
    (Named.encode encode entries).IsWhole ↔ ∀ entry ∈ entries, (encode entry.2).IsWhole := by
  rw [Named.encode, isWhole_object, Named.mapValues, List.forall_mem_map]

/-- A natural number that fits a word is whole. -/
theorem isWhole_natural (value : Nat) (small : value < 0x10000000000000000) :
    (natural value).IsWhole := by
  have bound : (value : Int) < ((0x10000000000000000 : Nat) : Int) := Int.ofNat_lt.mpr small
  exact ⟨by omega, bound⟩

end Rankwise.Json
