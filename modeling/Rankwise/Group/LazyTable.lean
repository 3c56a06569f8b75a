import Rankwise.Group.Value

/-!
# Tables that are shipped by name

A table can be mentioned inside something larger that is sent to the workers, such as a plan. It is
then sent as the name of a result that the workers hold. On the coordinator the name is found only
when the table is put onto the workers, so the mention is a key there; everything that mentions the
same key shares what is found.
-/

namespace Rankwise

/-- The key of a table that the coordinator keeps until the workers need it. -/
structure LazyKey where
  index : Nat
deriving DecidableEq, Repr

/-- A table that is mentioned inside something larger. -/
inductive LazyTable where
  /-- The workers hold the table under this name. -/
  | stored (id : ResultId)
  /-- The coordinator knows the table. -/
  | pending (key : LazyKey)
deriving DecidableEq, Repr

/-- The names under which pending tables were put onto the workers, as far as that was done. -/
abbrev LazyNames := LazyKey → Option ResultId

/-- The name of a table on the workers, if it is known. -/
def LazyTable.resultId? (names : LazyNames) : LazyTable → Option ResultId
  | stored id => some id
  | pending key => names key

end Rankwise
