import Rankwise.Plan.Execution
import Rankwise.Proofs.CountPlans
import Rankwise.Proofs.KnownRows
import Rankwise.Proofs.Transcripts

/-!
# Plans that grow

Whatever clients do with a plan, its nodes stay as they are and further nodes come behind them, also
when what they do fails half way (`Handled.grows`). Nodes of a plan that was built refer to earlier
nodes only, so whatever follows references from a node meets the same nodes afterwards
(`Extends.agrees`). The limits on references depend on the number of nodes, but they are wide enough
before and afterwards. So nobody who asks about a node can tell that the plan has grown
(`growth_unseen`).
-/

namespace Rankwise

namespace Arena

variable {arena later : Arena} {id : NodeId} {ε η : Type}

/-- What clients do with a plan that may make it grow, whether it goes well or not: a call for
further nodes, or counting the rows of a node, with any answers from the outside. -/
inductive Handled : Arena → Arena → Prop
  | call (call : PlanCall) (arena : Arena) : Handled arena (call.run arena).2
  | count {ε η : Type} (engine : Engine ε η) (root : NodeId) (arena grown : Arena)
      (executor after : Executor ε) (world last : World) (transcript : Transcript)
      (answer : Except Stop Nat)
      (conducted : (((Executing.count engine root arena).run executor).run world).Conducted transcript
        (((answer, grown), after), last)) : Handled arena grown

/-- Whoever asks about a node is told the same in both plans. -/
structure ToldAlike (later arena : Arena) (id : NodeId) : Prop where
  /-- The relation that an expression is over. -/
  sourceOf : later.sourceOf id = arena.sourceOf id
  /-- The number of rows that follows from the plan. -/
  staticRows : later.staticRows id = arena.staticRows id
  /-- Whether tables on the workers are scanned. -/
  hasScan : later.hasScan id = arena.hasScan id
  /-- What an engine makes of the node, and the state in which that leaves the engine. -/
  convert {ε η : Type} (engine : Engine ε η) (resolver : Resolver (StateM ε)) :
    later.convert engine resolver id = arena.convert engine resolver id
  /-- The same where the coordinator hands out the tables, asking workers for them. -/
  convertHere {ε η : Type} (engine : Engine ε η)
    (resolver : Resolver (StateT (Executor ε) (StateT World Dialogue))) :
    Executing.convert engine later resolver id = Executing.convert engine arena resolver id

/-! What makes a plan grow. -/

/-- Counting leaves the plan as it is or adds the plan that counts, as far as that is accepted. -/
theorem count_leaves {engine : Engine ε η} {root : NodeId} {grown : Arena}
    {executor after : Executor ε} {world last : World} {transcript : Transcript}
    {answer : Except Stop Nat}
    (conducted : (((Executing.count engine root arena).run executor).run world).Conducted transcript
      (((answer, grown), after), last)) : grown = arena ∨ grown = arena.counting root := by
  rw [Executing.count, StateT.run_bind, StateT.run_bind] at conducted
  obtain ⟨_, ⟨⟨known, halfway⟩, between⟩, _, -, -, continued⟩ :=
    (Dialogue.conducted_bind _ _ _ _).mp conducted
  rcases known with stop | (_ | rows)
  · obtain ⟨-, same⟩ := (Dialogue.conducted_done _ _ _).mp continued
    exact .inl (congrArg (fun ended => ended.1.1.2) same)
  · right
    unfold counting
    dsimp only at continued
    cases counts : (Building.countPlan root).run.run arena with
    | mk made further =>
      rw [counts] at continued
      cases made with
      | error stop =>
        obtain ⟨-, same⟩ := (Dialogue.conducted_done _ _ _).mp continued
        exact congrArg (fun ended => ended.1.1.2) same
      | ok total =>
        dsimp only at continued
        rw [StateT.run_bind, StateT.run_bind] at continued
        obtain ⟨_, _, _, -, -, returned⟩ := (Dialogue.conducted_bind _ _ _ _).mp continued
        obtain ⟨-, same⟩ := (Dialogue.conducted_done _ _ _).mp returned
        exact congrArg (fun ended => ended.1.1.2) same
  · obtain ⟨-, same⟩ := (Dialogue.conducted_done _ _ _).mp continued
    exact .inl (congrArg (fun ended => ended.1.1.2) same)

/-- Whatever is done with a plan, it only grows, and stays one that was built. -/
theorem Handled.grows (handled : Handled arena later) (built : arena.IsBuilt) :
    later.Extends arena ∧ later.IsBuilt := by
  cases handled with
  | call call => exact PlanCall.run_built built call
  | count engine root _ _ _ _ _ _ _ _ conducted =>
    rcases count_leaves conducted with rfl | rfl
    · exact ⟨.refl _, built⟩
    · obtain ⟨further, keeps⟩ := counting_grows arena root
      exact ⟨further, keeps built⟩

/-- The same for anything that is done one after the other. -/
theorem handled_grows (handled : Relation.ReflTransGen Handled arena later) (built : arena.IsBuilt) :
    later.Extends arena ∧ later.IsBuilt := by
  induction handled with
  | refl => exact ⟨.refl arena, built⟩
  | tail _ next inductionHypothesis =>
    obtain ⟨further, builtThen⟩ := inductionHypothesis
    obtain ⟨more, builtLast⟩ := next.grows builtThen
    exact ⟨more.trans further, builtLast⟩

/-! What does not change when a plan grows. -/

/-- A grounded node is a node of the plan. -/
theorem Grounded.inside (grounded : arena.Grounded id) : id.index < arena.size := by
  cases grounded with
  | intro _ node found => exact (List.getElem?_eq_some_iff.mp found).1

/-- What can be reached from a grounded node is grounded. -/
theorem Grounded.of_reaches {root : NodeId} (grounded : arena.Grounded root)
    (reaches : arena.Reaches root id) : arena.Grounded id := by
  induction reaches with
  | refl => exact grounded
  | tail _ refers inductionHypothesis => exact inductionHypothesis.of_refers refers

/-- Whatever a node leads to is the same in a plan that has grown. -/
theorem Extends.agrees (further : later.Extends arena) (grounded : arena.Grounded id) :
    arena.Agrees later id := by
  intro other reaches
  have inside := (grounded.of_reaches reaches).inside
  rw [List.getElem?_eq_getElem inside]
  exact further.found (List.getElem?_eq_getElem inside)

/-- An operator is over no relation as an expression is. -/
theorem sourceOf_operator {operator : Operator} (found : arena.operator id = .ok operator) :
    arena.sourceOf id = .error (.failed (notExpression id operator.name)) := by
  obtain ⟨node, there, content⟩ := (operator_iff operator).mp found
  have refused : arena.expression id = .error (notExpression id operator.name) := by
    simp only [expression, Arena.node, there, Bind.bind, Except.bind, content]
    rfl
  rw [sourceOf, walkLimit, sourceWithin, refused]
  rfl

/-- The source of an expression stays the same when the plan grows. -/
theorem Extends.sourceOf (further : later.Extends arena) (built : arena.IsBuilt)
    (builtLater : later.IsBuilt) (inside : id.index < arena.size) :
    later.sourceOf id = arena.sourceOf id := by
  rcases operator_or_expression inside with ⟨operator, found⟩ | ⟨expression, found⟩
  · rw [sourceOf_operator found, sourceOf_operator (further.operator found)]
  · obtain ⟨source, formula, spells⟩ := built.spells found
    rw [spells.sourceOf built, (spells.grown further).sourceOf builtLater]

/-- No number of rows follows for an expression. -/
theorem staticRows_expression {expression : Expression}
    (found : arena.expression id = .ok expression) : arena.staticRows id = .ok none := by
  obtain ⟨node, there, content⟩ := (expression_iff expression).mp found
  have isExpression : arena.isExpression id = true := by
    rw [isExpression, there, Option.any_some, Node.isExpression, content]
  rw [staticRows, walkLimit, staticRowsWithin, if_pos isExpression]
  rfl

/-- Whether there are aggregates among expressions stays the same when the plan grows. -/
theorem Extends.anyAggregate (further : later.Extends arena) {expressions : List NodeId}
    (found : ∀ part ∈ expressions, ∃ expression, arena.expression part = .ok expression) :
    later.anyAggregate expressions = arena.anyAggregate expressions := by
  induction expressions with
  | nil => rfl
  | cons part rest inductionHypothesis =>
    obtain ⟨⟨expression, here⟩, others⟩ := List.forall_mem_cons.mp found
    rw [Arena.anyAggregate, Arena.anyAggregate, here, further.expression here,
      inductionHypothesis others]

/-- The number for an operator is found in the same way once the plan has grown. -/
theorem Extends.staticRowsOf (further : later.Extends arena) (built : arena.IsBuilt)
    {operator : Operator} (found : arena.operator id = .ok operator)
    (below : NodeId → Except Stop (Option Nat)) :
    later.staticRowsOf below operator = arena.staticRowsOf below operator := by
  cases operator with
  | projection source expressions =>
    rw [Arena.staticRowsOf, Arena.staticRowsOf, further.anyAggregate fun part member => ?_]
    obtain ⟨source, formula, spells⟩ := (built.operator found).2 part member
    exact spells.expression
  | _ => rfl

/-- The number of rows stays the same, by induction on the place of the node. -/
theorem Extends.staticRows (further : later.Extends arena) (built : arena.IsBuilt)
    (builtLater : later.IsBuilt) (inside : id.index < arena.size) :
    later.staticRows id = arena.staticRows id := by
  induction place : id.index using Nat.strongRecOn generalizing id with
  | ind place inductionHypothesis =>
    rcases operator_or_expression inside with ⟨operator, found⟩ | ⟨expression, found⟩
    · rw [built.staticRows_operator found, builtLater.staticRows_operator (further.operator found),
        further.staticRowsOf built found]
      refine staticRowsOf_congr fun input member => ?_
      have earlier := (built.operator found).1 input member
      exact inductionHypothesis _ (place ▸ earlier) (earlier.trans inside) rfl
    · rw [staticRows_expression found, staticRows_expression (further.expression found)]

/-- A grounded node is converted in the same way when the plan has grown. -/
theorem Extends.convertHere (further : later.Extends arena) (grounded : arena.Grounded id)
    (engine : Engine ε η) (resolver : Resolver (StateT (Executor ε) (StateT World Dialogue))) :
    Executing.convert engine later resolver id = Executing.convert engine arena resolver id := by
  let create name output arguments :=
    (Executing.engine (engine.create name output arguments).stopping).run
  have same := Converting.node_agree resolver create grounded (further.agrees grounded)
  exact congrArg (fun converting : Converting η (StateT (Executor ε) (StateT World Dialogue)) η =>
    ExceptT.mk do return (← converting.run.run []).1) same

/-- Whatever is done with a plan that was built, and whether it goes well or not: all nodes stay
where they are, and whoever asks about one of them is told the same as before, failures included. -/
theorem growth_unseen (built : arena.IsBuilt) (handled : Relation.ReflTransGen Handled arena later) :
    arena.nodes <+: later.nodes ∧ ∀ id, NodeId.index id < arena.size → ToldAlike later arena id := by
  obtain ⟨further, builtLater⟩ := handled_grows handled built
  refine ⟨further, fun id inside => ?_⟩
  have grounded := built.grounded inside
  exact {
    sourceOf := further.sourceOf built builtLater inside
    staticRows := further.staticRows built builtLater inside
    hasScan := by
      unfold hasScan
      rw [scans_agree (further.agrees grounded) grounded]
    convert := fun engine resolver =>
      convert_agree engine resolver grounded (further.agrees grounded)
    convertHere := further.convertHere grounded }

/-- A scan of a table with one column. -/
def singleScan : Arena :=
  PlanCall.grown [.tableScan (.empty { fields := [⟨"n", .int64, true⟩] })]

/-- The columns 0 and 7 of the only node of `singleScan`. There is no column 7. -/
def halfway : PlanCall := .select ⟨0⟩ [0, 7]

/-- The call fails when it has added a reference to the first column, and the scan does not notice.
-/
theorem halfway_unseen :
    (halfway.run singleScan).1 = .error (.failed (Schema.noField 7 1)) ∧
      (halfway.run singleScan).2.size = singleScan.size + 1 ∧
      ToldAlike (halfway.run singleScan).2 singleScan ⟨0⟩ := by
  have built : singleScan.IsBuilt := PlanCall.grown_built _
  have unseen := growth_unseen built (.single (.call halfway singleScan))
  exact ⟨by decide, by decide, unseen.2 ⟨0⟩ (by decide)⟩

end Arena

end Rankwise
