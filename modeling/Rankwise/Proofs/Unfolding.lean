import Rankwise.Proofs.Lines
import Rankwise.Proofs.Tracking

/-!
# Conversion without sharing

Conversion builds an operator once and uses its handle again, but not across the two sides of a join
or of a set operation, so what is built already is put aside and taken up again at any depth. For an
engine and for tables whose answers depend on nothing but the question (`FixedAnswers`), none of
this can be told from the answer: it is that of unfolding the plan, where every reference is
followed and nothing is kept (`convert_eq_unfold`), whether this is a handle or the first failure.
What is built already is right if every handle is the answer for its node (`FixedAnswers.IsRight`).
That is true of nothing, and each step of the conversion keeps it and gives the answer of the same
step of the unfolding (`Converting.Tells`).
-/

namespace Rankwise

/-- The answers of an engine and of those who give it tables, if they depend on the question alone.
Those who give tables are only read, while an engine may well keep a state of its own. -/
structure FixedAnswers (η : Type) where
  /-- The answer for a table that the plan itself holds. -/
  table : Batch → Except Stop Batch
  /-- The answer for a table on the workers. -/
  lazyTable : LazyTable → Except Stop Batch
  /-- The answer for a node that is built from these arguments. -/
  create : String → OutputSchema → List (EngineArgument η) → Except Stop η

namespace FixedAnswers

variable {ε η : Type}

/-- These are the answers of the engine and of the resolver, whatever the state. -/
structure Holds (answers : FixedAnswers η) (engine : Engine ε η) (resolver : Resolver (StateM ε)) :
    Prop where
  table : ∀ batch state, ((resolver.table batch).run state).1 = answers.table batch
  lazyTable : ∀ table state, ((resolver.lazyTable table).run state).1 = answers.lazyTable table
  create : ∀ name output arguments state,
    ((engine.create name output arguments).stopping.run state).1 =
      answers.create name output arguments

variable (answers : FixedAnswers η)

mutual

/-- Unfolds an operand, given how nodes are unfolded. -/
def operand (unfold : NodeId → Except Stop η) : Operand → Except Stop (EngineArgument η)
  | .input id | .expression id => do return .owned (← unfold id)
  | .source id => do return .borrowed (← unfold id)
  | .list items => do return .list (← operands unfold items)
  | .scalar value => return .scalar value
  | .text content => return .text content
  | .index value => return .index value
  | .indices values => return .indices values
  | .boolean value => return .boolean value
  | .options entries => return .options entries
  | .table batch => do return .table (← answers.table batch)
  | .lazyTable table => do return .table (← answers.lazyTable table)
  | .absent => return .absent

/-- Unfolds several operands, the last one first. -/
def operands (unfold : NodeId → Except Stop η) :
    List Operand → Except Stop (List (EngineArgument η))
  | [] => return []
  | first :: rest => do
    let rest ← operands unfold rest
    return (← operand unfold first) :: rest

end

/-- Builds a node and anew everything that it refers to, following references no deeper than the
limit. -/
def unfoldWithin (arena : Arena) : Nat → NodeId → Except Stop η
  | 0, _ => .error .unending
  | limit + 1, id => do
    let node ← (arena.node id).mapError Stop.failed
    let arguments ← answers.operands (unfoldWithin arena limit) node.operands
    answers.create node.name node.output arguments

/-- Builds a plan without keeping anything that was built. -/
def unfold (arena : Arena) (root : NodeId) : Except Stop η :=
  answers.unfoldWithin arena arena.walkLimit root

mutual

/-- Of the unfolding of nodes an operand needs only that of the nodes it refers to. -/
theorem operand_congr {unfold another : NodeId → Except Stop η} (found : Operand)
    (same : ∀ reference ∈ found.references, unfold reference.2 = another reference.2) :
    answers.operand unfold found = answers.operand another found := by
  cases found with
  | input id | source id | expression id =>
    have equal := same _ List.mem_cons_self
    rw [operand, operand, equal]
  | list items => rw [operand, operand, operands_congr items same]
  | _ => rfl

/-- So it is with several operands. -/
theorem operands_congr {unfold another : NodeId → Except Stop η} (items : List Operand)
    (same : ∀ reference ∈ Operand.referencesOf items, unfold reference.2 = another reference.2) :
    answers.operands unfold items = answers.operands another items := by
  cases items with
  | nil => rfl
  | cons first rest =>
    rw [operands, operands,
      operand_congr first fun reference member => same reference (List.mem_append_left _ member),
      operands_congr rest fun reference member => same reference (List.mem_append_right _ member)]

end

/-- Where references lead to earlier nodes, any limit beyond the place of a node is as good as
another.
-/
theorem unfoldWithin_eq {arena : Arena} (forward : arena.IsForward) {limit other : Nat} {id : NodeId}
    (enough : id.index < limit) (enoughToo : id.index < other) :
    answers.unfoldWithin arena limit id = answers.unfoldWithin arena other id := by
  induction limit generalizing other id with
  | zero => exact absurd enough (Nat.not_lt_zero _)
  | succ limit inductionHypothesis =>
    obtain ⟨other, rfl⟩ := Nat.exists_eq_succ_of_ne_zero (Nat.ne_of_gt (Nat.zero_lt_of_lt enoughToo))
    rw [unfoldWithin, unfoldWithin, Arena.node]
    cases found : arena.nodes[id.index]? with
    | none => rfl
    | some node =>
      have same : answers.operands (answers.unfoldWithin arena limit) node.operands =
          answers.operands (answers.unfoldWithin arena other) node.operands := by
        refine answers.operands_congr _ fun reference member => ?_
        have earlier := forward id reference.2 ⟨node, found, reference, member, rfl⟩
        exact inductionHypothesis (by omega) (by omega)
      simp only [Except.mapError, bind, Except.bind, same]

/-- Every handle that is built already is the answer for its node. -/
def IsRight (arena : Arena) (built : Built η) : Prop :=
  ∀ entry ∈ built, ∀ limit, entry.1.index < limit →
    answers.unfoldWithin arena limit entry.1 = .ok entry.2

end FixedAnswers

namespace Converting

variable {ε η α β : Type} {right : Built η → Prop}

/-- If what is built already is right, then converting gives this answer, whatever the state, and
what is built then is right. -/
def Tells (right : Built η → Prop) (converting : Converting η (StateM ε) α)
    (answer : Except Stop α) : Prop :=
  ∀ built state, right built →
    ((converting.run.run built).run state).1.1 = answer ∧
      right ((converting.run.run built).run state).1.2

namespace Tells

/-- To give a value gives this value. -/
theorem pure (value : α) : Tells right (Pure.pure value : Converting η (StateM ε) α) (.ok value) :=
  fun _ _ held => ⟨rfl, held⟩

/-- Two conversions give their answers one after the other. -/
theorem bind {first : Converting η (StateM ε) α} {next : α → Converting η (StateM ε) β}
    {answer : Except Stop α} {further : α → Except Stop β} (begun : Tells right first answer)
    (continued : ∀ value, answer = .ok value → Tells right (next value) (further value)) :
    Tells right (first >>= next) (answer >>= further) := by
  intro built state held
  obtain ⟨here, heldThen⟩ := begun built state held
  rw [run_bind]
  generalize (first.run.run built).run state = ran at here heldThen
  obtain ⟨⟨result, later⟩, last⟩ := ran
  cases here
  cases result with
  | error stop => exact ⟨rfl, heldThen⟩
  | ok value => exact continued value rfl later last heldThen

/-- What is made of an answer is given if the answer is. -/
theorem map {converting : Converting η (StateM ε) α} {answer : Except Stop α}
    (begun : Tells right converting answer) (change : α → β) :
    Tells right (do return change (← converting)) (do return change (← answer)) :=
  begun.bind fun value _ => .pure (change value)

/-- A step outside gives what the outside always answers. -/
theorem outside {action : StateM ε (Except Stop α)} {answer : Except Stop α}
    (same : ∀ state, (action.run state).1 = answer) :
    Tells right (Converting.outside action : Converting η (StateM ε) α) answer :=
  fun _ state held => ⟨same state, held⟩

/-- A conversion on its own gives the same answer, if it is right to start from nothing. -/
theorem onItsOwn {converting : Converting η (StateM ε) α} {answer : Except Stop α}
    (tells : Tells right converting answer) (nothing : right []) :
    Tells right (Converting.onItsOwn converting) answer :=
  fun _ state held => ⟨(tells [] state nothing).1, held⟩

end Tells

section Unfolding

variable {answers : FixedAnswers η} {engine : Engine ε η} {resolver : Resolver (StateM ε)}
  {arena : Arena}

mutual

/-- An operand is converted as it is unfolded, if the nodes that it refers to are. -/
theorem tells_operand (holds : answers.Holds engine resolver) (nothing : right [])
    {convert : NodeId → Converting η (StateM ε) η} {unfold : NodeId → Except Stop η}
    (combinesTwo : Bool) (found : Operand)
    (each : ∀ reference ∈ found.references,
      Tells right (convert reference.2) (unfold reference.2)) :
    Tells right (operand resolver convert combinesTwo found) (answers.operand unfold found) := by
  cases found with
  | input id =>
    have tells := each _ List.mem_cons_self
    rw [operand, FixedAnswers.operand]
    split
    case isTrue => exact (tells.onItsOwn nothing).map _
    case isFalse => exact tells.map _
  | source id | expression id =>
    rw [operand, FixedAnswers.operand]
    exact (each _ List.mem_cons_self).map _
  | list items =>
    rw [operand, FixedAnswers.operand]
    exact (tells_operands holds nothing combinesTwo items each).map _
  | table batch =>
    rw [operand, FixedAnswers.operand]
    exact (Tells.outside (holds.table batch)).map _
  | lazyTable table =>
    rw [operand, FixedAnswers.operand]
    exact (Tells.outside (holds.lazyTable table)).map _
  | scalar | text | index | indices | boolean | options | absent =>
    rw [operand, FixedAnswers.operand]
    exact .pure _

/-- Several operands give their answers if the nodes they name do. -/
theorem tells_operands (holds : answers.Holds engine resolver) (nothing : right [])
    {convert : NodeId → Converting η (StateM ε) η} {unfold : NodeId → Except Stop η}
    (combinesTwo : Bool) (items : List Operand)
    (each : ∀ reference ∈ Operand.referencesOf items,
      Tells right (convert reference.2) (unfold reference.2)) :
    Tells right (operands resolver convert combinesTwo items) (answers.operands unfold items) := by
  cases items with
  | nil => exact .pure []
  | cons first rest =>
    rw [operands, FixedAnswers.operands]
    refine (tells_operands holds nothing combinesTwo rest fun reference member =>
      each reference (List.mem_append_right _ member)).bind fun arguments _ => ?_
    exact (tells_operand holds nothing combinesTwo first fun reference member =>
      each reference (List.mem_append_left _ member)).map _

end

/-- A node is built as it is unfolded, if its operands are, and then it may be kept. -/
theorem tells_construct (holds : answers.Holds engine resolver) (forward : arena.IsForward)
    {limit : Nat} {id : NodeId} (enough : ∀ node, arena.nodes[id.index]? = some node →
      id.index < limit + 1)
    (each : ∀ child, arena.Refers id child → Tells (answers.IsRight arena)
      (nodeWithin arena resolver (plainCreate engine) limit child)
      (answers.unfoldWithin arena limit child)) :
    Tells (answers.IsRight arena)
      (construct arena resolver (plainCreate engine)
        (nodeWithin arena resolver (plainCreate engine) limit) id)
      (answers.unfoldWithin arena (limit + 1) id) := by
  have nothing : answers.IsRight arena [] := List.forall_mem_nil _
  cases found : arena.nodes[id.index]? with
  | none =>
    have missing : arena.node id = .error (Arena.unknownNode id arena.size) := by rw [Arena.node, found]
    rw [construct, FixedAnswers.unfoldWithin, missing]
    exact fun built _ held => ⟨rfl, held⟩
  | some node =>
    have here : arena.node id = .ok node := by rw [Arena.node, found]
    have unfolds : answers.unfoldWithin arena (limit + 1) id =
        answers.operands (answers.unfoldWithin arena limit) node.operands >>=
          answers.create node.name node.output := by
      rw [FixedAnswers.unfoldWithin, here]
      rfl
    rw [unfolds, construct, here, Except.mapError, build_node]
    refine Tells.bind (tells_operands holds nothing (combinesTwo node) node.operands
      fun reference member => each _ ⟨node, found, reference, member, rfl⟩) fun arguments given => ?_
    have made : answers.create node.name node.output arguments =
        (answers.create node.name node.output arguments >>= Except.ok) := by
      cases answers.create node.name node.output arguments <;> rfl
    rw [made]
    refine Tells.bind (Tells.outside (holds.create node.name node.output arguments))
      fun handle created => ?_
    have answer (further : Nat) (beyond : id.index < further) :
        answers.unfoldWithin arena further id = .ok handle := by
      rw [answers.unfoldWithin_eq forward beyond (enough node found), unfolds, given]
      exact created
    cases node.isExpression with
    | true => exact .pure handle
    | false => exact fun built state held => ⟨rfl, List.forall_mem_cons.mpr ⟨answer, held⟩⟩

/-- A node is converted as it is unfolded: one that is built already has the right handle, and all
others are built from earlier nodes. -/
theorem tells_nodeWithin (holds : answers.Holds engine resolver) (forward : arena.IsForward)
    (limit : Nat) (id : NodeId) (positive : 0 < limit)
    (enough : ∀ node, arena.nodes[id.index]? = some node → id.index < limit) :
    Tells (answers.IsRight arena) (nodeWithin arena resolver (plainCreate engine) limit id)
      (answers.unfoldWithin arena limit id) := by
  induction limit generalizing id with
  | zero => exact absurd positive (Nat.lt_irrefl 0)
  | succ limit inductionHypothesis =>
    intro built state held
    rw [run_nodeWithin]
    cases known : built.lookup id with
    | some handle =>
      obtain ⟨before, after, listed, -⟩ := List.lookup_eq_some_iff.mp known
      have member : (id, handle) ∈ built := listed ▸ List.mem_append_right before List.mem_cons_self
      refine ⟨?_, held⟩
      cases found : arena.nodes[id.index]? with
      | some node => exact (held _ member (limit + 1) (enough node found)).symm
      | none =>
        have answer := held _ member (id.index + 1) (Nat.lt_succ_self _)
        rw [FixedAnswers.unfoldWithin, Arena.node, found] at answer
        cases answer
    | none =>
      refine tells_construct holds forward enough (fun child refers => ?_) built state held
      have earlier := forward id child refers
      obtain ⟨node, found, -⟩ := refers
      have inside := enough node found
      exact inductionHypothesis child (by omega) fun _ _ => by omega

end Unfolding

end Converting

/-- The answer of a conversion is that of unfolding the plan, the first failure included. -/
theorem Arena.convert_eq_unfold {ε η : Type} {arena : Arena} {answers : FixedAnswers η}
    {engine : Engine ε η} {resolver : Resolver (StateM ε)} (holds : answers.Holds engine resolver)
    (forward : arena.IsForward) (root : NodeId) (state : ε) :
    ((arena.convert engine resolver root).run state).1 = answers.unfold arena root := by
  refine (Converting.tells_nodeWithin holds forward arena.walkLimit root (Nat.succ_pos _)
    (fun node found => ?_) [] state (List.forall_mem_nil _)).1
  have inside : root.index < arena.size := (List.getElem?_eq_some_iff.mp found).1
  unfold walkLimit
  omega

end Rankwise
