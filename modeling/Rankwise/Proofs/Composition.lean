import Rankwise.Proofs.Grounding

/-!
# What holds of composed actions

Some properties hold of everything that is put together from actions that have them (`Composes`).
The conversion of a plan is put together from what the engine and those who hand out tables do, so
it has every such property that these have (`Composes.node`).
-/

namespace Rankwise

/-- The property holds of all that is put together from actions that have it. -/
structure Composes {m : Type → Type} [Monad m] (holds : (α : Type) → m α → Prop) : Prop where
  pure {α : Type} (value : α) : holds α (Pure.pure value)
  bind {α β : Type} {first : m α} {next : α → m β} (begun : holds α first)
    (continued : ∀ value, holds β (next value)) : holds β (first >>= next)

namespace Composes

variable {m : Type → Type} [Monad m] {holds : (α : Type) → m α → Prop} {η α β : Type}

/-- Composed actions of which the first one may fail. -/
theorem bindExcept (composes : Composes holds) {first : ExceptT Stop m α} {next : α → ExceptT Stop m β}
    (begun : holds _ first.run) (continued : ∀ value, holds _ (next value).run) :
    holds _ (first >>= next).run := by
  refine composes.bind begun fun answer => ?_
  cases answer with
  | ok value => exact continued value
  | error stop => exact composes.pure _

/-- The property holds of a conversion, whatever is built already. -/
def Throughout (holds : (α : Type) → m α → Prop) (converting : Converting η m α) : Prop :=
  ∀ built, holds _ (converting.run.run built)

namespace Throughout

/-- To give a value holds throughout. -/
theorem pure (composes : Composes holds) (value : α) :
    Throughout holds (Pure.pure value : Converting η m α) := fun _ => composes.pure _

/-- What holds throughout two conversions holds throughout both of them one after the other. -/
theorem bind (composes : Composes holds) {first : Converting η m α} {next : α → Converting η m β}
    (begun : Throughout holds first) (continued : ∀ value, Throughout holds (next value)) :
    Throughout holds (first >>= next) := by
  refine fun built => composes.bind (begun built) fun (answer, later) => ?_
  cases answer with
  | ok value => exact continued value later
  | error stop => exact composes.pure _

/-- What holds of an action holds throughout the conversion that consists of it. -/
theorem outside (composes : Composes holds) {action : m (Except Stop α)} (begun : holds _ action) :
    Throughout holds (Converting.outside action : Converting η m α) :=
  fun _ => composes.bind begun fun _ => composes.pure _

/-- What holds throughout a conversion holds if it starts anew. -/
theorem onItsOwn (composes : Composes holds) {converting : Converting η m α}
    (throughout : Throughout holds converting) :
    Throughout holds (Converting.onItsOwn converting) :=
  fun _ => composes.bind (throughout []) fun _ => composes.pure _

/-- To change what is built holds throughout. -/
theorem modify (composes : Composes holds) (change : Built η → Built η) :
    Throughout holds (modify change : Converting η m PUnit) :=
  fun _ => composes.bind (composes.pure _) fun _ => composes.pure _

end Throughout

section Operands

variable {resolver : Resolver m} {convert : NodeId → Converting η m η}

mutual

/-- The conversion of an operand is put together from those of nodes and from asking for tables. -/
theorem operand (composes : Composes holds) (tables : ∀ batch, holds _ (resolver.table batch))
    (lazyTables : ∀ table, holds _ (resolver.lazyTable table))
    (converts : ∀ id, Throughout holds (convert id)) (combinesTwo : Bool) (found : Operand) :
    Throughout holds (Converting.operand resolver convert combinesTwo found) := by
  cases found with
  | input id =>
    rw [Converting.operand]
    split
    · exact .bind composes (.onItsOwn composes (converts id)) fun _ => .pure composes _
    · exact .bind composes (converts id) fun _ => .pure composes _
  | source id | expression id =>
    rw [Converting.operand]
    exact .bind composes (converts id) fun _ => .pure composes _
  | list items =>
    rw [Converting.operand]
    exact .bind composes (operands composes tables lazyTables converts combinesTwo items)
      fun _ => .pure composes _
  | table batch =>
    rw [Converting.operand]
    exact .bind composes (.outside composes (tables batch)) fun _ => .pure composes _
  | lazyTable table =>
    rw [Converting.operand]
    exact .bind composes (.outside composes (lazyTables table)) fun _ => .pure composes _
  | _ => exact .pure composes _

/-- The conversion of operands is put together from those of each of them. -/
theorem operands (composes : Composes holds) (tables : ∀ batch, holds _ (resolver.table batch))
    (lazyTables : ∀ table, holds _ (resolver.lazyTable table))
    (converts : ∀ id, Throughout holds (convert id)) (combinesTwo : Bool) (items : List Operand) :
    Throughout holds (Converting.operands resolver convert combinesTwo items) := by
  cases items with
  | nil => exact .pure composes _
  | cons first rest =>
    rw [Converting.operands]
    exact .bind composes (operands composes tables lazyTables converts combinesTwo rest) fun _ =>
      .bind composes (operand composes tables lazyTables converts combinesTwo first) fun _ =>
        .pure composes _

end

end Operands

/-- What holds of the engine and of those who hand out tables holds of a conversion. -/
theorem node [LawfulMonad m] (composes : Composes holds) {resolver : Resolver m}
    (tables : ∀ batch, holds _ (resolver.table batch))
    (lazyTables : ∀ table, holds _ (resolver.lazyTable table))
    {create : String → OutputSchema → List (EngineArgument η) → m (Except Stop η)}
    (creates : ∀ name output arguments, holds _ (create name output arguments)) (arena : Arena)
    (id : NodeId) : Throughout holds (Converting.node arena resolver create id) := by
  unfold Converting.node
  generalize arena.walkLimit = limit
  induction limit generalizing id with
  | zero => exact fun _ => composes.pure _
  | succ limit inductionHypothesis =>
    intro built
    rw [Converting.run_nodeWithin]
    split
    · exact composes.pure _
    · have constructs : Throughout holds (Converting.construct arena resolver create
          (Converting.nodeWithin arena resolver create limit) id) := by
        refine .bind composes (fun _ => composes.pure _) fun node => ?_
        refine .bind composes (operands composes tables lazyTables inductionHypothesis _ _)
          fun arguments => ?_
        refine .bind composes (.outside composes (creates _ _ _)) fun handle => ?_
        split
        · exact .bind composes (.modify composes _) fun _ => .pure composes _
        · exact .pure composes _
      exact constructs built

end Composes

end Rankwise
