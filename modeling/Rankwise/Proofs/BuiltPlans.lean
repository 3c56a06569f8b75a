import Mathlib.Data.List.Basic
import Rankwise.Plan.Retarget

/-!
# Plans that were built

A plan was built if every node was accepted by the plan before it. So references lead to earlier
nodes of the right sort (`Arena.IsBuilt.resolves`). All building comes down to adding nodes:
whatever is built, and also where building stops half way, the plan has only grown at its end and is
a plan that was built (`Building.Grows`).
-/

namespace Rankwise

/-! What operators refer to. -/

namespace Operand

/-- No operands refer to nothing. -/
@[simp] theorem referencesOf_nil : referencesOf [] = [] := rfl

/-- The references of the first operand come first. -/
@[simp] theorem referencesOf_cons (item : Operand) (rest : List Operand) :
    referencesOf (item :: rest) = item.references ++ referencesOf rest := rfl

/-- A list of expressions refers to each of them as an expression. -/
@[simp] theorem references_expressions (ids : List NodeId) :
    (expressions ids).references = ids.map (.expression, ·) := by
  rw [expressions, references]
  induction ids with
  | nil => rfl
  | cons id ids inductionHypothesis =>
    rw [List.map_cons, referencesOf_cons, inductionHypothesis]
    rfl

/-- Operands of which none refers to anything refer to nothing. -/
theorem referencesOf_eq_nil {items : List Operand}
    (none : ∀ item ∈ items, item.references = []) : referencesOf items = [] := by
  induction items with
  | nil => rfl
  | cons item rest inductionHypothesis =>
    rw [List.forall_mem_cons] at none
    rw [referencesOf_cons, none.1, inductionHypothesis none.2]
    rfl

end Operand

/-- An operator refers to its inputs and to its expressions. -/
theorem Operator.referencesOf_operands (operator : Operator) :
    Operand.referencesOf operator.operands =
      operator.inputs.map (.input, ·) ++ operator.expressions.map (.expression, ·) := by
  cases operator with
  | projection | distinct | aggregate =>
    simp [operands, Operand.references, inputs, Operator.expressions]
  | join left right kind conditions =>
    have none : Operand.referencesOf (conditions.map JoinCondition.operand) = [] :=
      Operand.referencesOf_eq_nil (by simp [JoinCondition.operand, Operand.references])
    simp [operands, none, Operand.references, inputs, Operator.expressions]
  | order source keys =>
    have none : Operand.referencesOf (keys.map SortKey.operand) = [] :=
      Operand.referencesOf_eq_nil (by simp [SortKey.operand, Operand.references])
    simp [operands, none, Operand.references, inputs, Operator.expressions]
  | catalogScan scan =>
    have filter : (Operand.optionalText scan.rowFilter).references = [] := by
      cases scan.rowFilter <;> rfl
    have snapshot : ((scan.snapshot.map Operand.index).getD .absent).references = [] := by
      cases scan.snapshot <;> rfl
    simp [operands, filter, snapshot, Operand.references, inputs, Operator.expressions]
  | vectorSink source bucket index region => cases region <;> rfl
  | filter | setOperation | limit | parquetScan | tableScan | partitionScan | parquetSink
  | catalogSink => rfl

/-- How operators are built: from tables, over one relation or from two. -/
theorem Operator.operands_cases (operator : Operator) :
    operator.inputs = [] ∧ Operand.referencesOf operator.operands = [] ∧
        operator.combinesTwo = false ∨
      (∃ source rest, operator.inputs = [source] ∧ operator.operands = .input source :: rest ∧
        Operand.referencesOf rest = operator.expressions.map (.expression, ·) ∧
        operator.combinesTwo = false) ∨
      ∃ left right rest, operator.inputs = [left, right] ∧
        operator.operands = .input left :: .input right :: rest ∧ Operand.referencesOf rest = [] ∧
        operator.combinesTwo = true := by
  have references := operator.referencesOf_operands
  cases operator with
  | parquetScan | tableScan | partitionScan | catalogScan => exact .inl ⟨rfl, references, rfl⟩
  | join left right | setOperation left right =>
    refine .inr (.inr ⟨left, right, _, rfl, rfl, ?_, rfl⟩)
    exact List.append_cancel_left (show [(Role.input, left), (Role.input, right)] ++ _ =
      [(Role.input, left), (Role.input, right)] ++ _ from references)
  | projection source | filter source | aggregate source | distinct source | limit source
  | order source | parquetSink source | catalogSink source | vectorSink source =>
    refine .inr (.inl ⟨source, _, rfl, rfl, ?_, rfl⟩)
    exact List.append_cancel_left
      (show [(Role.input, source)] ++ _ = [(Role.input, source)] ++ _ from references)

/-- How expressions are built: from expressions or over a relation. -/
theorem Expression.operands_cases (expression : Expression) :
    (∀ reference ∈ Operand.referencesOf expression.operands,
        reference.1 = .expression ∧ reference.2 ∈ expression.parts) ∨
      ∃ source rest, expression.source? = some source ∧
        expression.operands = .source source :: rest ∧ Operand.referencesOf rest = [] := by
  cases expression with
  | constant | null => exact .inl nofun
  | unary operand operator =>
    refine .inl fun reference member => ?_
    obtain rfl := List.mem_singleton.mp member
    exact ⟨rfl, List.mem_singleton_self operand⟩
  | binary left right operator =>
    refine .inl fun reference member => ?_
    cases left <;> cases right <;>
      simp [operands, parts, Side.expression?, Operand.ofSide, Operand.references] at member ⊢ <;>
      grind
  | column source | aggregate source => exact .inr ⟨source, _, rfl, rfl, rfl⟩
  | rowFunction call =>
    refine .inr ⟨call.source, _, rfl, rfl, ?_⟩
    have none : Operand.referencesOf (call.arguments.map Operand.scalar) = [] :=
      Operand.referencesOf_eq_nil (by simp [Operand.references])
    simp [Operand.references, none]

namespace Arena

/-- The plan with a node behind all others. -/
def adding (arena : Arena) (node : Node) : Arena := { nodes := arena.nodes ++ [node] }

/-- Every node was accepted by the plan before it. -/
inductive IsBuilt : Arena → Prop
  | empty : IsBuilt {}
  | adding (arena : Arena) (node : Node) (built : IsBuilt arena)
      (accepted : arena.check node = .ok ()) : IsBuilt (arena.adding node)

/-- The plan has grown out of another one. -/
def Extends (later arena : Arena) : Prop := arena.nodes <+: later.nodes

/-- A reference leads to a node of the sort that its role asks for. -/
def Resolves (arena : Arena) (reference : Role × NodeId) : Prop :=
  ∃ found, arena.nodes[reference.2.index]? = some found ∧
    (found.isExpression = true ↔ reference.1 = .expression)

variable {arena later last : Arena} {id : NodeId} {node : Node}

namespace Extends

/-- A plan extends itself. -/
theorem refl (arena : Arena) : arena.Extends arena := List.prefix_refl _

/-- What extends an extension extends the plan. -/
theorem trans (second : last.Extends later) (first : later.Extends arena) : last.Extends arena :=
  List.IsPrefix.trans first second

/-- A plan with one more node extends it. -/
theorem adding (arena : Arena) (node : Node) : (arena.adding node).Extends arena :=
  List.prefix_append _ _

/-- The nodes of a plan stay where they are when it grows. -/
theorem found (further : later.Extends arena) {index : Nat}
    (found : arena.nodes[index]? = some node) : later.nodes[index]? = some node := by
  obtain ⟨inside, rfl⟩ := List.getElem?_eq_some_iff.mp found
  exact (List.prefix_iff_getElem?.mp further) index inside

/-- What a plan refers to is there in every extension. -/
theorem resolves (further : later.Extends arena) {reference : Role × NodeId}
    (resolves : arena.Resolves reference) : later.Resolves reference := by
  obtain ⟨node, found, sort⟩ := resolves
  exact ⟨node, further.found found, sort⟩

end Extends

/-- A node of a plan to which a node was added is the added one or was there before. -/
theorem found_adding (added : Node) {index : Nat}
    (found : (arena.adding added).nodes[index]? = some node) :
    arena.nodes[index]? = some node ∨ index = arena.size ∧ node = added := by
  rw [adding, List.getElem?_append] at found
  split at found
  case isTrue => exact .inl found
  case isFalse beyond =>
    obtain ⟨inside, rfl⟩ := List.getElem?_eq_some_iff.mp found
    have least : index - arena.nodes.length = 0 := Nat.lt_one_iff.mp inside
    refine .inr ⟨by unfold size; omega, ?_⟩
    simp [least]

/-- An output is found exactly for a node that is there, and it is the output of this node. -/
theorem output_iff (output : OutputSchema) :
    arena.output id = .ok output ↔
      ∃ node, arena.nodes[id.index]? = some node ∧ node.output = output := by
  rw [Arena.output, Arena.node]
  cases arena.nodes[id.index]? with
  | none => simp [bind, Except.bind]
  | some found => simp [bind, Except.bind, pure, Except.pure]

/-- An expression is found exactly for a node that computes it. -/
theorem expression_iff (expression : Expression) :
    arena.expression id = .ok expression ↔
      ∃ node, arena.nodes[id.index]? = some node ∧ node.content = .expression expression := by
  rw [Arena.expression, Arena.node]
  cases arena.nodes[id.index]? with
  | none => simp [bind, Except.bind]
  | some found =>
    cases content : found.content with
    | operator operator => simp [bind, Except.bind, content, throw, throwThe, MonadExceptOf.throw]
    | expression other => simp [bind, Except.bind, content, pure, Except.pure]

/-- An operator is found exactly for a node that computes it. -/
theorem operator_iff (operator : Operator) :
    arena.operator id = .ok operator ↔
      ∃ node, arena.nodes[id.index]? = some node ∧ node.content = .operator operator := by
  rw [Arena.operator, Arena.node]
  cases arena.nodes[id.index]? with
  | none => simp [bind, Except.bind]
  | some found =>
    cases content : found.content with
    | operator other => simp [bind, Except.bind, content, pure, Except.pure]
    | expression other => simp [bind, Except.bind, content, throw, throwThe, MonadExceptOf.throw]

/-- A node is an operator or an expression. -/
theorem operator_or_expression (inside : id.index < arena.size) :
    (∃ operator, arena.operator id = .ok operator) ∨
      ∃ expression, arena.expression id = .ok expression := by
  have there := List.getElem?_eq_getElem inside
  cases content : arena.nodes[id.index].content with
  | operator operator => exact .inl ⟨operator, (operator_iff operator).mpr ⟨_, there, content⟩⟩
  | expression expression =>
    exact .inr ⟨expression, (expression_iff expression).mpr ⟨_, there, content⟩⟩

namespace Extends

/-- Outputs stay as they are when a plan grows. -/
theorem output (further : later.Extends arena) {output : OutputSchema}
    (found : arena.output id = .ok output) : later.output id = .ok output := by
  obtain ⟨node, there, same⟩ := (output_iff output).mp found
  exact (output_iff output).mpr ⟨node, further.found there, same⟩

/-- Expressions stay as they are when a plan grows. -/
theorem expression (further : later.Extends arena) {expression : Expression}
    (found : arena.expression id = .ok expression) : later.expression id = .ok expression := by
  obtain ⟨node, there, same⟩ := (expression_iff expression).mp found
  exact (expression_iff expression).mpr ⟨node, further.found there, same⟩

/-- Operators stay as they are when a plan grows. -/
theorem operator (further : later.Extends arena) {operator : Operator}
    (found : arena.operator id = .ok operator) : later.operator id = .ok operator := by
  obtain ⟨node, there, same⟩ := (operator_iff operator).mp found
  exact (operator_iff operator).mpr ⟨node, further.found there, same⟩

end Extends

/-! What the plan asks of a node before it accepts it. -/

/-- A reference passes the check exactly if it leads to a node of the right sort. -/
theorem checkReference_iff (role : Role) :
    arena.checkReference role id = .ok () ↔ arena.Resolves (role, id) := by
  rw [checkReference, Arena.node, Resolves]
  cases arena.nodes[id.index]? with
  | none => simp [bind, Except.bind]
  | some found =>
    cases role <;> cases sort : found.isExpression <;>
      simp [bind, Except.bind, sort, throw, throwThe, MonadExceptOf.throw, pure, Except.pure]

/-- Whether every reference of a list leads to a node of the right sort, the failure naming the node
that was to be added. -/
def checkReferences (arena : Arena) (name : String) : List (Role × NodeId) → Except Stop Unit
  | [] => .ok ()
  | reference :: rest =>
    match arena.checkReference reference.1 reference.2 with
    | .ok () => arena.checkReferences name rest
    | .error failure => .error (.failed (failure.withField "node" name))

/-- Whether the sides of a node can be evaluated together, if it has sides. -/
def checkContent (arena : Arena) : Node.Content → Except Stop Unit
  | .expression (.binary left right operator) => arena.checkSides left right operator
  | _ => .ok ()

/-- The check of a node looks at its references first and then at what it computes. -/
theorem check_eq (arena : Arena) (node : Node) :
    arena.check node =
      (arena.checkReferences node.name node.references).bind fun _ =>
        arena.checkContent node.content := by
  let step (reference : Role × NodeId) (_ : PUnit) : Except Stop (ForInStep PUnit) :=
    match arena.checkReference reference.1 reference.2 with
    | .ok () => pure (.yield ())
    | .error failure => do
      throw (.failed (failure.withField "node" node.name))
      pure (.yield ())
  have content : arena.check node =
      (forIn node.references PUnit.unit step).bind fun _ => arena.checkContent node.content := by
    rw [check]
    refine congrArg (Except.bind (forIn node.references PUnit.unit step)) (funext fun _ => ?_)
    cases node.content with
    | operator operator => rfl
    | expression expression => cases expression <;> rfl
  have loop (references : List (Role × NodeId)) :
      forIn references PUnit.unit step = arena.checkReferences node.name references := by
    induction references with
    | nil => rfl
    | cons reference rest inductionHypothesis =>
      rw [List.forIn_cons, checkReferences, ← inductionHypothesis]
      simp only [step]
      cases arena.checkReference reference.1 reference.2 with
      | ok _ => rfl
      | error failure => rfl
  rw [content, loop]

/-- References pass the check exactly if each leads to a node of the right sort. -/
theorem checkReferences_iff (name : String) (references : List (Role × NodeId)) :
    arena.checkReferences name references = .ok () ↔
      ∀ reference ∈ references, arena.Resolves reference := by
  induction references with
  | nil => simp [checkReferences]
  | cons reference rest inductionHypothesis =>
    rw [List.forall_mem_cons, ← inductionHypothesis, checkReferences,
      ← checkReference_iff reference.1]
    cases arena.checkReference reference.1 reference.2 with
    | ok _ => simp
    | error failure => simp

/-- A node passes the check exactly if its references lead somewhere and what it computes is in
order. -/
theorem check_iff :
    arena.check node = .ok () ↔
      (∀ reference ∈ node.references, arena.Resolves reference) ∧
        arena.checkContent node.content = .ok () := by
  rw [check_eq, ← checkReferences_iff node.name]
  cases arena.checkReferences node.name node.references with
  | ok _ => simp [Except.bind]
  | error stop => simp [Except.bind]

/-- In a plan that was built all references lead to earlier nodes of the right sort. -/
theorem IsBuilt.resolves (built : arena.IsBuilt) {place : NodeId}
    (found : arena.nodes[place.index]? = some node) (reference : Role × NodeId)
    (member : reference ∈ node.references) :
    reference.2.index < place.index ∧ arena.Resolves reference := by
  induction built with
  | empty => cases found
  | adding arena added built accepted inductionHypothesis =>
    rcases found_adding added found with before | ⟨here, rfl⟩
    · obtain ⟨earlier, resolves⟩ := inductionHypothesis before
      exact ⟨earlier, (Extends.adding arena added).resolves resolves⟩
    · have resolves := (check_iff.mp accepted).1 reference member
      obtain ⟨target, there, -⟩ := id resolves
      have inside := (List.getElem?_eq_some_iff.mp there).1
      exact ⟨here ▸ inside, (Extends.adding arena node).resolves resolves⟩

end Arena

namespace Building

variable {α β : Type} {arena later : Arena}

/-- The second of two steps starts from the plan that the first has left, unless the first has
failed. -/
theorem run_bind (first : Building α) (next : α → Building β) (arena : Arena) :
    (first >>= next).run.run arena =
      match first.run.run arena with
      | (.ok result, middle) => (next result).run.run middle
      | (.error stop, middle) => (.error stop, middle) := by
  rw [ExceptT.run_bind, StateT.run_bind]
  generalize first.run.run arena = ran
  obtain ⟨result | result, middle⟩ := ran <;> rfl

/-- Building comes to this value and this plan. -/
def Makes (building : Building α) (arena : Arena) (value : α) (later : Arena) : Prop :=
  building.run.run arena = (.ok value, later)

namespace Makes

/-- To give a value makes this value, from no other plan. -/
theorem pure_iff (value result : α) :
    Makes (pure value : Building α) arena result later ↔ value = result ∧ arena = later := by
  constructor
  · intro made
    obtain ⟨same, rfl⟩ := Prod.mk.inj made
    exact ⟨Except.ok.inj same, rfl⟩
  · rintro ⟨rfl, rfl⟩
    rfl

/-- What is composed is made exactly if both parts are. -/
theorem bind_iff (first : Building α) (next : α → Building β) (value : β) :
    Makes (first >>= next) arena value later ↔
      ∃ result middle, Makes first arena result middle ∧ Makes (next result) middle value later := by
  unfold Makes
  rw [run_bind]
  cases ran : first.run.run arena with
  | mk result middle =>
    cases result with
    | error stop =>
      constructor
      · intro made
        cases made
      · rintro ⟨result, middle, made, -⟩
        cases made
    | ok result =>
      constructor
      · intro made
        exact ⟨result, middle, rfl, made⟩
      · rintro ⟨_, _, same, made⟩
        cases same
        exact made

/-- Looking at the plan leaves it as it is. -/
theorem bindGet_iff (next : Arena → Building β) (value : β) :
    Makes (get >>= next) arena value later ↔ Makes (next arena) arena value later := Iff.rfl

/-- What is looked up in the plan must be there. -/
theorem bindLook_iff (found : Except Failure α) (next : α → Building β) (value : β) :
    Makes (liftM found >>= next) arena value later ↔
      ∃ result, found = .ok result ∧ Makes (next result) arena value later := by
  cases found with
  | error failure =>
    constructor
    · intro made
      cases made
    · rintro ⟨_, wrong, -⟩
      cases wrong
  | ok result =>
    refine ⟨fun made => ⟨result, rfl, made⟩, ?_⟩
    rintro ⟨_, same, made⟩
    cases same
    exact made

/-- A question to the plan must be answered. -/
theorem bindAsk_iff (found : Except Stop α) (next : α → Building β) (value : β) :
    Makes (liftM found >>= next) arena value later ↔
      ∃ result, found = .ok result ∧ Makes (next result) arena value later := by
  cases found with
  | error stop =>
    constructor
    · intro made
      cases made
    · rintro ⟨_, wrong, -⟩
      cases wrong
  | ok result =>
    refine ⟨fun made => ⟨result, rfl, made⟩, ?_⟩
    rintro ⟨_, same, made⟩
    cases same
    exact made

/-- A node can be added exactly if it passes the check; it is then the last one. -/
theorem push_iff (node : Node) (id : NodeId) :
    Makes (push node) arena id later ↔
      arena.check node = .ok () ∧ id = ⟨arena.size⟩ ∧ later = arena.adding node := by
  unfold push
  rw [bindGet_iff, bindAsk_iff]
  constructor
  · rintro ⟨_, accepted, made⟩
    cases made
    exact ⟨accepted, rfl, rfl⟩
  · rintro ⟨accepted, rfl, rfl⟩
    exact ⟨(), accepted, rfl⟩

end Makes

/-- To add a node either adds it at the end or leaves the plan as it is. -/
theorem run_push (arena : Arena) (node : Node) :
    (push node).run.run arena =
      match arena.check node with
      | .ok () => (.ok ⟨arena.size⟩, arena.adding node)
      | .error stop => (.error stop, arena) := by
  show ((do
    let _ ← (liftM (arena.check node) : Building Unit)
    set (arena.adding node)
    return ⟨arena.size⟩ : Building NodeId).run.run arena) = _
  cases arena.check node <;> rfl

/-- Whether it comes to its end or stops half way, building lets a plan grow at its end, and what
was built before is a plan that was built afterwards. -/
def Grows (building : Building α) : Prop :=
  ∀ arena, (building.run.run arena).2.Extends arena ∧
    (arena.IsBuilt → (building.run.run arena).2.IsBuilt)

namespace Grows

/-- Building that adds nothing. -/
theorem still {building : Building α}
    (same : ∀ arena, (building.run.run arena).2 = arena) : Grows building := by
  intro arena
  rw [same arena]
  exact ⟨.refl arena, fun built => built⟩

/-- To give a value adds nothing. -/
theorem pure (value : α) : Grows (pure value : Building α) := still fun _ => rfl

/-- To look at the plan adds nothing. -/
theorem get : Grows (get : Building Arena) := still fun _ => rfl

/-- To fail adds nothing. -/
theorem throw (stop : Stop) : Grows (throw stop : Building α) := still fun _ => rfl

/-- To take over what was found adds nothing. -/
theorem look (found : Except Failure α) : Grows (liftM found : Building α) :=
  still fun _ => by cases found <;> rfl

/-- To take over what was found, or why it never will be, adds nothing. -/
theorem ask (found : Except Stop α) : Grows (liftM found : Building α) :=
  still fun _ => by cases found <;> rfl

/-- If both of two steps only add nodes, so do they together. -/
theorem bind {first : Building α} {next : α → Building β} (begun : Grows first)
    (continued : ∀ value, Grows (next value)) : Grows (first >>= next) := by
  intro arena
  rw [run_bind]
  obtain ⟨further, kept⟩ := begun arena
  generalize first.run.run arena = ran at further kept
  obtain ⟨result | result, middle⟩ := ran
  · exact ⟨further, kept⟩
  · obtain ⟨furtherThen, keptThen⟩ := continued result middle
    exact ⟨furtherThen.trans further, fun built => keptThen (kept built)⟩

/-- To add a node is to add a node. -/
theorem push (node : Node) : Grows (push node) := by
  intro arena
  rw [run_push]
  cases accepted : arena.check node with
  | ok _ => exact ⟨.adding arena node, fun built => .adding arena node built accepted⟩
  | error stop => exact ⟨.refl arena, fun built => built⟩

end Grows

end Building

end Rankwise
