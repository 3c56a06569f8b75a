import Rankwise.Plan.Engine

/-!
# Handing plans to an engine

A plan is converted node by node, what a node is built from before the node itself and the last
operand first. An operator that is referred to several times is built once and its handle is used
again. The two relations of a join or a set operation are the exception: each is built on its own,
with nothing shared between them or with the rest, since the engine takes both over. Expressions are
built anew wherever they are referred to.
-/

namespace Rankwise

/-- Handles of operators that are built already. -/
abbrev Built (η : Type) := List (NodeId × η)

/-- Converting, with what is built already. -/
abbrev Converting (η : Type) (m : Type → Type) (α : Type) := ExceptT Stop (StateT (Built η) m) α

namespace Converting

variable {η : Type} {m : Type → Type} [Monad m]

/-- Does something outside of the conversion. -/
def outside {α : Type} (action : m (Except Stop α)) : Converting η m α :=
  ExceptT.mk (StateT.lift action)

/-- Starts with nothing built and forgets afterwards what was built, also after a failure. -/
def onItsOwn {α : Type} (converting : Converting η m α) : Converting η m α :=
  ExceptT.mk fun built => do
    let (result, _) ← converting.run.run []
    return (result, built)

mutual

/-- Converts an operand, given how nodes are converted. -/
def operand (resolver : Resolver m) (convert : NodeId → Converting η m η) (combinesTwo : Bool) :
    Operand → Converting η m (EngineArgument η)
  | .input id => do return .owned (← if combinesTwo then onItsOwn (convert id) else convert id)
  | .expression id => do return .owned (← convert id)
  | .source id => do return .borrowed (← convert id)
  | .list items => do return .list (← operands resolver convert combinesTwo items)
  | .scalar value => return .scalar value
  | .text content => return .text content
  | .index value => return .index value
  | .indices values => return .indices values
  | .boolean value => return .boolean value
  | .options entries => return .options entries
  | .table batch => do return .table (← outside (resolver.table batch))
  | .lazyTable table => do return .table (← outside (resolver.lazyTable table))
  | .absent => return .absent

/-- Converts several operands, the last one first. -/
def operands (resolver : Resolver m) (convert : NodeId → Converting η m η) (combinesTwo : Bool) :
    List Operand → Converting η m (List (EngineArgument η))
  | [] => return []
  | first :: rest => do
    let rest ← operands resolver convert combinesTwo rest
    return (← operand resolver convert combinesTwo first) :: rest

end

/-- Whether a node combines two relations. -/
def combinesTwo (node : Node) : Bool :=
  match node.content with
  | .operator operator => operator.combinesTwo
  | .expression _ => false

/-- Converts a node, following references no deeper than the limit. -/
def nodeWithin (arena : Arena) (resolver : Resolver m)
    (create : String → OutputSchema → List (EngineArgument η) → m (Except Stop η)) :
    Nat → NodeId → Converting η m η
  | 0, _ => throw .unending
  | limit + 1, id => do
    match (← get).lookup id with
    | some handle => return handle
    | none =>
      let node ← ExceptT.mk (pure ((arena.node id).mapError Stop.failed))
      let arguments ← operands resolver (nodeWithin arena resolver create limit)
        (combinesTwo node) node.operands
      let handle ← outside (create node.name node.output arguments)
      if !node.isExpression then modify fun built => (id, handle) :: built
      return handle

/-- Converts a node. -/
def node (arena : Arena) (resolver : Resolver m)
    (create : String → OutputSchema → List (EngineArgument η) → m (Except Stop η)) (id : NodeId) :
    Converting η m η :=
  nodeWithin arena resolver create arena.walkLimit id

end Converting

/-- What an engine gives, for those who may be kept waiting. -/
def EngineAction.stopping {ε α : Type} (action : EngineAction ε α) : StateM ε (Except Stop α) := do
  return (← action.run).mapError Stop.failed

/-- Converts the plan below a node. -/
def Arena.convert {ε η : Type} (arena : Arena) (engine : Engine ε η)
    (resolver : Resolver (StateM ε)) (root : NodeId) : StateM ε (Except Stop η) := do
  let create name output arguments := (engine.create name output arguments).stopping
  return (← (Converting.node arena resolver create root).run.run []).1

end Rankwise
