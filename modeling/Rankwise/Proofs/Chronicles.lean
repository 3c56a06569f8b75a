import Rankwise.Proofs.Tracking

/-!
# Chronicles of conversions

What is built for one relation of a join or of a set operation is not used for the other one, nor
for anything outside. A `Scope` names the joins and set operations that a node is converted within,
each with the relation that it is converted for. `Converting.nodeAt` converts nodes as `nodeWithin`
does and lets the engine and the tables know of which node, and in which scope, they are asked. So a
`Chronicle` can be kept: which node was made in which scope from which handles, and for which nodes
tables on the workers were asked for. Keeping it makes no difference to the conversion
(`run_chronicled`).
-/

namespace Rankwise

/-- One of the two relations that a join or a set operation is built from. -/
inductive Half where
  | left
  | right
deriving DecidableEq, Repr

/-- The joins and set operations that a node is converted within, from the outermost one on, each
with the relation that it is converted for. -/
abbrev Scope := List (NodeId × Half)

/-- A call in which the engine was to make a node. The handle that it gave is named by the number of
the call. -/
structure Making where
  scope : Scope
  id : NodeId
  /-- The handles that were passed. -/
  passings : List Passing
deriving DecidableEq, Repr

/-- Calls in which nodes were made, in order. -/
abbrev Makings := List Making

/-- What was asked of the engine and of those who give it tables. -/
structure Chronicle where
  makings : Makings := []
  /-- The tables on the workers that were asked for, each with the node that scans it. -/
  asked : List (NodeId × LazyTable) := []
deriving DecidableEq, Repr

/-- Whether the operand is a relation that the node takes over. -/
def Operand.isInput : Operand → Bool
  | input _ => true
  | _ => false

namespace Converting

section Scoped

variable {η : Type} {m : Type → Type} [Monad m]

/-- Which of two relations comes before these operands. -/
def halfBefore (rest : List Operand) : Half := if rest.any Operand.isInput then .left else .right

/-- The scope in which an operand of a node is converted. A relation has a scope of its own, if the
node combines two. -/
def scopeOf (scope : Scope) (id : NodeId) (combinesTwo : Bool) (rest : List Operand) :
    Operand → Scope
  | .input _ => if combinesTwo then scope ++ [(id, halfBefore rest)] else scope
  | _ => scope

/-- Converts the operands of a node, the last one first, each in its scope. -/
def operandsAt (resolver : Resolver m) (convert : Scope → NodeId → Converting η m η) (scope : Scope)
    (id : NodeId) (combinesTwo : Bool) :
    List Operand → Converting η m (List (EngineArgument η))
  | [] => return []
  | first :: rest => do
    let arguments ← operandsAt resolver convert scope id combinesTwo rest
    let argument ← operand resolver (convert (scopeOf scope id combinesTwo rest first)) combinesTwo
      first
    return argument :: arguments

/-- Converts a node in a scope. The engine and the resolver are told the node, the engine also the
scope. -/
def nodeAt (arena : Arena) (resolver : NodeId → Resolver m)
    (create : Scope → NodeId → String → OutputSchema → List (EngineArgument η) →
      m (Except Stop η)) :
    Nat → Scope → NodeId → Converting η m η
  | 0, _, _ => throw .unending
  | limit + 1, scope, id => do
    match (← get).lookup id with
    | some handle => return handle
    | none =>
      let node ← ExceptT.mk (pure ((arena.node id).mapError Stop.failed))
      let arguments ← operandsAt (resolver id) (nodeAt arena resolver create limit) scope id
        (combinesTwo node) node.operands
      let handle ← outside (create scope id node.name node.output arguments)
      if !node.isExpression then modify fun built => (id, handle) :: built
      return handle

/-- Builds a node in a scope, given how nodes are converted. -/
def constructAt (arena : Arena) (resolver : NodeId → Resolver m)
    (create : Scope → NodeId → String → OutputSchema → List (EngineArgument η) →
      m (Except Stop η))
    (convert : Scope → NodeId → Converting η m η) (scope : Scope) (id : NodeId) :
    Converting η m η := do
  let node ← ExceptT.mk (pure ((arena.node id).mapError Stop.failed))
  let arguments ← operandsAt (resolver id) convert scope id (combinesTwo node) node.operands
  let handle ← outside (create scope id node.name node.output arguments)
  if !node.isExpression then modify fun built => (id, handle) :: built
  return handle

/-- A node is converted by looking it up among those that are built, and by constructing it if it is
not there. -/
theorem run_nodeAt [LawfulMonad m] (arena : Arena) (resolver : NodeId → Resolver m)
    (create : Scope → NodeId → String → OutputSchema → List (EngineArgument η) →
      m (Except Stop η)) (limit : Nat) (scope : Scope) (id : NodeId) (built : Built η) :
    (nodeAt arena resolver create (limit + 1) scope id).run.run built =
      match built.lookup id with
      | some handle => pure (.ok handle, built)
      | none =>
        (constructAt arena resolver create (nodeAt arena resolver create limit) scope id).run.run
          built := by
  have looked : (ExceptT.run get : StateT (Built η) m (Except Stop (Built η))).run built =
      pure (.ok built, built) := by
    show (Except.ok <$> (get : StateT (Built η) m (Built η))).run built = _
    rw [StateT.run_map, StateT.run_get, map_pure]
  rw [nodeAt, ExceptT.run_bind, StateT.run_bind, looked, pure_bind]
  dsimp only
  cases built.lookup id with
  | some handle => rfl
  | none => rfl

/-- Operands none of which has a scope of its own are converted in the scope of the node. -/
theorem operandsAt_plain (resolver : Resolver m) (convert : Scope → NodeId → Converting η m η)
    (scope : Scope) (id : NodeId) {combinesTwo : Bool} {items : List Operand}
    (plain : combinesTwo = true → ∀ item ∈ items, item.isInput = false) :
    operandsAt resolver convert scope id combinesTwo items =
      operands resolver (convert scope) combinesTwo items := by
  induction items with
  | nil => rfl
  | cons first rest inductionHypothesis =>
    have same : scopeOf scope id combinesTwo rest first = scope := by
      cases first with
      | input =>
        cases combinesTwo with
        | true => cases plain rfl _ List.mem_cons_self
        | false => rfl
      | _ => rfl
    have further := inductionHypothesis fun two item member =>
      plain two item (List.mem_cons_of_mem _ member)
    rw [operandsAt, operands, further, same]

end Scoped

end Converting

/-- An action on a state beside a chronicle, which it leaves as it is. -/
def Chronicle.beside {ε α : Type} (action : StateM ε α) : StateM (ε × Chronicle) α :=
  fun (state, chronicle) => ((action.run state).1, (action.run state).2, chronicle)

/-- The tables that a node asks for, with a note for each table on the workers. -/
def Resolver.noting {ε : Type} (resolver : Resolver (StateM ε)) (id : NodeId) :
    Resolver (StateM (ε × Chronicle)) where
  table batch := Chronicle.beside (resolver.table batch)
  lazyTable table := fun (state, chronicle) =>
    (((resolver.lazyTable table).run state).1, ((resolver.lazyTable table).run state).2,
      { chronicle with asked := chronicle.asked ++ [(id, table)] })

/-- Making a node for numbered handles, with a note of the call. -/
def Engine.noting {ε η : Type} (engine : Engine ε η) (scope : Scope) (id : NodeId) (name : String)
    (output : OutputSchema) (arguments : List (EngineArgument (Nat × η))) :
    StateM (ε × Chronicle) (Except Stop (Nat × η)) := fun (state, chronicle) =>
  let ran := (engine.create name output (EngineArgument.bareAll arguments)).stopping.run state
  (ran.1.map (chronicle.makings.length, ·), ran.2,
    { chronicle with
      makings := chronicle.makings ++ [⟨scope, id, EngineArgument.passingsOf arguments⟩] })

namespace Converting

/-- Converting a node with a chronicle. -/
abbrev notingNode {ε η : Type} (engine : Engine ε η) (resolver : Resolver (StateM ε)) (arena : Arena)
    (limit : Nat) (scope : Scope) (id : NodeId) :
    Converting (Nat × η) (StateM (ε × Chronicle)) (Nat × η) :=
  nodeAt arena resolver.noting engine.noting limit scope id

end Converting

/-- Converts the plan below a node and keeps a chronicle. -/
def Arena.chronicled {ε η : Type} (arena : Arena) (engine : Engine ε η)
    (resolver : Resolver (StateM ε)) (root : NodeId) :
    StateM (ε × Chronicle) (Except Stop (Nat × η)) := do
  return (← (Converting.notingNode engine resolver arena arena.walkLimit [] root).run.run []).1

/-! Keeping a chronicle makes no difference. -/

namespace Converting

variable {ε η α β α' β' : Type}

/-- Converting with a chronicle gives what converting without one gives, numbered, and leaves the
same state behind. -/
def Echoes (noting : Converting (Nat × η) (StateM (ε × Chronicle)) α)
    (plain : Converting η (StateM ε) β) (bare : α → β) : Prop :=
  ∀ built state chronicle, ∃ result later last further,
    (noting.run.run built).run (state, chronicle) = ((result, later), last, further) ∧
      (plain.run.run (bareBuilt built)).run state = ((result.map bare, bareBuilt later), last)

namespace Echoes

/-- To give a value notes nothing. -/
theorem pure {value : α} {plainValue : β} {bare : α → β} (same : bare value = plainValue) :
    Echoes (Pure.pure value : Converting (Nat × η) (StateM (ε × Chronicle)) α)
      (Pure.pure plainValue : Converting η (StateM ε) β) bare := by
  subst same
  intro built state chronicle
  exact ⟨.ok value, built, state, chronicle, rfl, rfl⟩

/-- To fail notes nothing. -/
theorem throw (stop : Stop) {bare : α → β} :
    Echoes (MonadExcept.throw stop : Converting (Nat × η) (StateM (ε × Chronicle)) α)
      (MonadExcept.throw stop : Converting η (StateM ε) β) bare := by
  intro built state chronicle
  exact ⟨.error stop, built, state, chronicle, rfl, rfl⟩

/-- Two conversions echo two plain ones if each echoes its own. -/
theorem bind {noting : Converting (Nat × η) (StateM (ε × Chronicle)) α}
    {plain : Converting η (StateM ε) β} {bare : α → β}
    {next : α → Converting (Nat × η) (StateM (ε × Chronicle)) α'}
    {nextPlain : β → Converting η (StateM ε) β'} {bareLast : α' → β'}
    (begun : Echoes noting plain bare)
    (continued : ∀ value, Echoes (next value) (nextPlain (bare value)) bareLast) :
    Echoes (noting >>= next) (plain >>= nextPlain) bareLast := by
  intro built state chronicle
  obtain ⟨result, middle, between, entered, ran, ranPlain⟩ := begun built state chronicle
  rw [run_bind, run_bind, ran, ranPlain]
  cases result with
  | error stop => exact ⟨.error stop, middle, between, entered, rfl, rfl⟩
  | ok value => exact continued value middle between entered

/-- What is made of the result of a conversion is made of the result of the plain one. -/
theorem map {noting : Converting (Nat × η) (StateM (ε × Chronicle)) α}
    {plain : Converting η (StateM ε) β} {bare : α → β} (begun : Echoes noting plain bare)
    (change : α → α') {changePlain : β → β'} {bareLast : α' → β'}
    (same : ∀ value, bareLast (change value) = changePlain (bare value)) :
    Echoes (do return change (← noting)) (do return changePlain (← plain)) bareLast :=
  begun.bind fun value => .pure (same value)

/-- What the engine does besides is the same with the chronicle and without. -/
theorem beside (action : StateM ε (Except Stop α)) :
    Echoes (outside (Chronicle.beside action)) (outside action : Converting η (StateM ε) α) id := by
  intro built state chronicle
  refine ⟨(action.run state).1, built, (action.run state).2, chronicle, rfl, ?_⟩
  rw [run_outside]
  cases (action.run state).1 <;> rfl

/-- To ask for a table is the same with the chronicle and without. -/
theorem asking (resolver : Resolver (StateM ε)) (node : NodeId) (table : LazyTable) :
    Echoes (outside ((resolver.noting node).lazyTable table))
      (outside (resolver.lazyTable table) : Converting η (StateM ε) Batch) id := by
  intro built state chronicle
  refine ⟨((resolver.lazyTable table).run state).1, built, _, _, rfl, ?_⟩
  rw [run_outside]
  cases ((resolver.lazyTable table).run state).1 <;> rfl

/-- To make a node is the same with the chronicle and without, and gives the same handle. -/
theorem making (engine : Engine ε η) (scope : Scope) (node : NodeId) (name : String)
    (output : OutputSchema) (arguments : List (EngineArgument (Nat × η))) :
    Echoes (outside (engine.noting scope node name output arguments))
      (outside (plainCreate engine name output (EngineArgument.bareAll arguments)) :
        Converting η (StateM ε) η) Prod.snd := by
  intro built state chronicle
  refine ⟨_, built, _, _, rfl, ?_⟩
  rw [run_outside]
  generalize (plainCreate engine name output (EngineArgument.bareAll arguments)).run state = ran
  obtain ⟨stop | handle, last⟩ := ran <;> rfl

/-- A conversion that starts anew echoes one that starts anew. -/
theorem onItsOwn {noting : Converting (Nat × η) (StateM (ε × Chronicle)) α}
    {plain : Converting η (StateM ε) β} {bare : α → β} (echoes : Echoes noting plain bare) :
    Echoes (Converting.onItsOwn noting) (Converting.onItsOwn plain) bare := by
  intro built state chronicle
  obtain ⟨result, later, last, further, ran, ranPlain⟩ := echoes [] state chronicle
  have none : bareBuilt ([] : Built (Nat × η)) = [] := rfl
  rw [none] at ranPlain
  refine ⟨result, built, last, further, ?_, ?_⟩
  · rw [run_onItsOwn, ran]
  · rw [run_onItsOwn, ranPlain]

end Echoes

section Operands

variable (resolver : Resolver (StateM ε)) (asking : NodeId) (combinesTwo : Bool)
  {convert : NodeId → Converting (Nat × η) (StateM (ε × Chronicle)) (Nat × η)}
  {convertPlain : NodeId → Converting η (StateM ε) η}

mutual

/-- To convert an operand echoes the plain conversion if that of nodes does. -/
theorem echoes_operand (each : ∀ id, Echoes (convert id) (convertPlain id) Prod.snd)
    (found : Operand) :
    Echoes (operand (resolver.noting asking) convert combinesTwo found)
      (operand resolver convertPlain combinesTwo found) EngineArgument.bare := by
  cases found with
  | input id =>
    rw [operand, operand]
    cases combinesTwo with
    | true => exact (each id).onItsOwn.map _ fun _ => rfl
    | false => exact (each id).map _ fun _ => rfl
  | source id | expression id =>
    rw [operand, operand]
    exact (each id).map _ fun _ => rfl
  | list items =>
    rw [operand, operand]
    exact (echoes_operands each items).map _ fun _ => rfl
  | table batch =>
    rw [operand, operand]
    exact (Echoes.beside _).map _ fun _ => rfl
  | lazyTable table =>
    rw [operand, operand]
    exact (Echoes.asking resolver asking table).map _ fun _ => rfl
  | scalar | text | index | indices | boolean | options | absent =>
    rw [operand, operand]
    exact .pure rfl

/-- To convert operands echoes the plain conversion if that of nodes does. -/
theorem echoes_operands (each : ∀ id, Echoes (convert id) (convertPlain id) Prod.snd)
    (items : List Operand) :
    Echoes (operands (resolver.noting asking) convert combinesTwo items)
      (operands resolver convertPlain combinesTwo items) EngineArgument.bareAll := by
  cases items with
  | nil => exact .pure rfl
  | cons first rest =>
    rw [operands, operands]
    exact (echoes_operands each rest).bind fun _ => (echoes_operand each first).map _ fun _ => rfl

end

/-- To convert operands in their scopes echoes the plain conversion if that of nodes does. -/
theorem echoes_operandsAt
    {convert : Scope → NodeId → Converting (Nat × η) (StateM (ε × Chronicle)) (Nat × η)}
    (each : ∀ scope id, Echoes (convert scope id) (convertPlain id) Prod.snd) (scope : Scope)
    (items : List Operand) :
    Echoes (operandsAt (resolver.noting asking) convert scope asking combinesTwo items)
      (operands resolver convertPlain combinesTwo items) EngineArgument.bareAll := by
  induction items with
  | nil => exact .pure rfl
  | cons first rest inductionHypothesis =>
    rw [operandsAt, operands]
    exact inductionHypothesis.bind fun _ =>
      (echoes_operand resolver asking combinesTwo (each _) first).map _ fun _ => rfl

end Operands

/-- To convert a node in any scope echoes the plain conversion. -/
theorem echoes_nodeAt (engine : Engine ε η) (resolver : Resolver (StateM ε)) (arena : Arena)
    (limit : Nat) (scope : Scope) (id : NodeId) :
    Echoes (notingNode engine resolver arena limit scope id)
      (nodeWithin arena resolver (plainCreate engine) limit id) Prod.snd := by
  induction limit generalizing scope id with
  | zero => exact .throw _
  | succ limit inductionHypothesis =>
    intro built state chronicle
    rw [notingNode, run_nodeAt, run_nodeWithin, lookup_bareBuilt]
    cases built.lookup id with
    | some handle => exact ⟨.ok handle, built, state, chronicle, rfl, rfl⟩
    | none =>
      rw [Option.map_none]
      dsimp only
      rw [constructAt, construct]
      cases found : arena.node id with
      | error failure => exact ⟨.error _, built, state, chronicle, rfl, rfl⟩
      | ok node =>
        rw [Except.mapError, build_node, build_node]
        refine Echoes.bind (echoes_operandsAt resolver id (combinesTwo node) inductionHypothesis
          scope node.operands) (fun arguments => ?_) built state chronicle
        refine (Echoes.making engine scope id node.name node.output arguments).bind fun handle => ?_
        cases node.isExpression with
        | true => exact .pure rfl
        | false => exact fun built state chronicle => ⟨.ok handle, _, state, chronicle, rfl, rfl⟩

end Converting

/-- Keeping a chronicle changes neither what the conversion gives nor the state that it leaves. -/
theorem Arena.run_chronicled {ε η : Type} (arena : Arena) (engine : Engine ε η)
    (resolver : Resolver (StateM ε)) (root : NodeId) (state : ε) :
    ∃ result last chronicle,
      (arena.chronicled engine resolver root).run (state, {}) = (result, last, chronicle) ∧
        (arena.convert engine resolver root).run state = (result.map Prod.snd, last) := by
  obtain ⟨result, later, last, chronicle, ran, ranPlain⟩ :=
    Converting.echoes_nodeAt engine resolver arena arena.walkLimit [] root [] state {}
  refine ⟨result, last, chronicle, ?_, ?_⟩
  · have outcome : (arena.chronicled engine resolver root).run (state, {}) =
        (((Converting.notingNode engine resolver arena arena.walkLimit [] root).run.run
            []).run (state, {})).map Prod.fst id := rfl
    rw [outcome, ran]
    rfl
  · have outcome : (arena.convert engine resolver root).run state =
        (((Converting.node arena resolver (Converting.plainCreate engine) root).run.run
            (Converting.bareBuilt [])).run state).map Prod.fst id := rfl
    have whole : Converting.node arena resolver (Converting.plainCreate engine) root =
      Converting.nodeWithin arena resolver (Converting.plainCreate engine) arena.walkLimit root := rfl
    rw [outcome, whole, ranPlain]
    rfl

end Rankwise
