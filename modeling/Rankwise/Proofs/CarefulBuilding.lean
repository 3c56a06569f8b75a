import Rankwise.Proofs.Retargeting
import Rankwise.Proofs.Traversals

/-!
# Careful building

A node names other nodes: an operator its inputs and expressions, an expression its source or its
parts (`Node.mentions`). A plan is sound if all that its nodes name are earlier nodes of the right
sort (`Arena.IsSound`). Before a plan accepts a node it looks at what the node is built from. That
is all that the node names, apart from the source of a constant or of a null (`Node.mentions_iff`).

Building is careful if it keeps a plan sound and if it stops for certain reasons only (`Careful`).
What is composed of careful parts is careful, and the rewrites of expressions are: they never stop
but for failures of the plan, and only where they were asked about an expression they come to an
end.
-/

namespace Rankwise

/-- All the nodes that a node names, each in the role in which it is meant. -/
def Node.Content.mentions : Node.Content → List (Role × NodeId)
  | .operator named => named.inputs.map (.input, ·) ++ named.expressions.map (.expression, ·)
  | .expression named => named.source?.toList.map (.source, ·) ++ named.parts.map (.expression, ·)

/-- All the nodes that a node names. -/
def Node.mentions (node : Node) : List (Role × NodeId) := node.content.mentions

/-- The source of an expression that is not built from its source. -/
def Expression.recorded? : Expression → Option NodeId
  | constant source _ | null source _ => some source
  | _ => none

/-- The source that a node names although it is not built from it. -/
def Node.Content.recorded? : Node.Content → Option NodeId
  | .operator _ => none
  | .expression named => named.recorded?

/-- An expression mentions what it is built from and the source that it records. -/
theorem Expression.mentions_iff (expression : Expression) (reference : Role × NodeId) :
    reference ∈ (Node.Content.expression expression).mentions ↔
      reference ∈ Operand.referencesOf expression.operands ∨
        ∃ source, expression.recorded? = some source ∧ reference = (.source, source) := by
  cases expression with
  | column | constant | null | unary | aggregate =>
    simp [Node.Content.mentions, source?, parts, operands, recorded?, Operand.references]
  | binary left right operator =>
    cases left <;> cases right <;>
      simp [Node.Content.mentions, source?, parts, operands, recorded?, Operand.references,
        Operand.ofSide, Side.expression?, eq_comm]
  | rowFunction call =>
    have none : Operand.referencesOf (call.arguments.map Operand.scalar) = [] :=
      Operand.referencesOf_eq_nil (by simp [Operand.references])
    simp [Node.Content.mentions, source?, parts, operands, recorded?, Operand.references, none]

/-- What a node names is what it is built from and, if it is a constant or a null, its source. -/
theorem Node.mentions_iff (node : Node) (reference : Role × NodeId) :
    reference ∈ node.mentions ↔ reference ∈ node.references ∨
      ∃ source, node.content.recorded? = some source ∧ reference = (.source, source) := by
  rw [mentions, references, operands]
  cases node.content with
  | operator operator => simp [Content.mentions, Content.recorded?, operator.referencesOf_operands]
  | expression expression => exact expression.mentions_iff reference

/-- The left side is a part of the expression. -/
theorem Expression.left_part {left right : Side} {operator : BinaryOperator} {part : NodeId}
    (same : left.expression? = some part) : part ∈ (binary left right operator).parts :=
  List.mem_filterMap.mpr ⟨left, List.mem_cons_self, same⟩

/-- The right side is a part of the expression. -/
theorem Expression.right_part {left right : Side} {operator : BinaryOperator} {part : NodeId}
    (same : right.expression? = some part) : part ∈ (binary left right operator).parts :=
  List.mem_filterMap.mpr ⟨right, List.mem_cons_of_mem left List.mem_cons_self, same⟩

namespace Arena

variable {arena later : Arena} {id source : NodeId} {node : Node} {reference : Role × NodeId}

/-- Everything that a node of the plan names is an earlier node of the right sort. -/
def IsSound (arena : Arena) : Prop :=
  ∀ place node, arena.nodes[NodeId.index place]? = some node →
    ∀ reference ∈ node.mentions, reference.2.index < place.index ∧ arena.Resolves reference

/-- In the plan without nodes nothing is missing. -/
theorem IsSound.empty : IsSound {} := fun _ _ found => by cases found

/-- What a reference leads to is a node of the plan. -/
theorem Resolves.inside (resolves : arena.Resolves reference) : reference.2.index < arena.size := by
  obtain ⟨_, found, -⟩ := resolves
  exact (List.getElem?_eq_some_iff.mp found).1

/-- What can be a source can be an input, and the other way around. -/
theorem resolves_input_iff : arena.Resolves (.input, id) ↔ arena.Resolves (.source, id) := by
  simp [Resolves]

/-- What a reference to a place leads to is the same in a plan that has grown. -/
theorem Extends.resolves_iff (further : later.Extends arena)
    (inside : reference.2.index < arena.size) :
    later.Resolves reference ↔ arena.Resolves reference := by
  refine ⟨fun ⟨node, found, sort⟩ => ?_, further.resolves⟩
  have there : arena.nodes[reference.2.index]? = some arena.nodes[reference.2.index] :=
    List.getElem?_eq_getElem inside
  obtain rfl := Option.some.inj ((further.found there).symm.trans found)
  exact ⟨_, there, sort⟩

/-- An expression that was there already is the same in a plan that has grown. -/
theorem Extends.expression_of_inside (further : later.Extends arena) {expression : Expression}
    (found : later.expression id = .ok expression) (inside : id.index < arena.size) :
    arena.expression id = .ok expression := by
  obtain ⟨node, there, content⟩ := (expression_iff expression).mp found
  have here := List.getElem?_eq_getElem inside
  obtain rfl := Option.some.inj ((further.found here).symm.trans there)
  exact (expression_iff expression).mpr ⟨_, here, content⟩

/-- What an expression that was there already is made of was there as well. -/
theorem Extends.reached (further : later.Extends arena) (built : later.IsBuilt) {part : NodeId}
    (reaches : Relation.ReflTransGen later.HasPart id part) (inside : id.index < arena.size) :
    Relation.ReflTransGen arena.HasPart id part ∧ part.index < arena.size := by
  induction reaches with
  | refl => exact ⟨.refl, inside⟩
  | tail _ made inductionHypothesis =>
    obtain ⟨before, within⟩ := inductionHypothesis
    obtain ⟨expression, found, member⟩ := made
    exact ⟨before.tail ⟨expression, further.expression_of_inside found within, member⟩,
      Nat.lt_trans (built.part_lt found member) within⟩

/-- Within the expression there is a call to a function of which some column, shifted by the offset,
is no machine word. -/
def Overflows (arena : Arena) (offset : Nat) (id : NodeId) : Prop :=
  ∃ part call column, Relation.ReflTransGen arena.HasPart id part ∧
    arena.expression part = .ok (.rowFunction call) ∧ column ∈ call.columns ∧
    ¬ column + offset < 0x10000000000000000

/-- A reference to an expression leads to one that was found. -/
theorem resolves_expression {expression : Expression} (found : arena.expression id = .ok expression) :
    arena.Resolves (.expression, id) := by
  obtain ⟨node, there, content⟩ := (expression_iff expression).mp found
  exact ⟨node, there, by simp [Node.isExpression, content]⟩

/-- Only what is an expression overflows. -/
theorem Overflows.resolves {offset : Nat} (overflows : arena.Overflows offset id) :
    arena.Resolves (.expression, id) := by
  obtain ⟨part, call, column, reaches, found, -⟩ := overflows
  rcases reaches.cases_head with rfl | ⟨_, ⟨expression, here, -⟩, -⟩
  · exact resolves_expression found
  · exact resolves_expression here

/-- An expression overflows if one of its parts does, in whatever plan this is noticed. -/
theorem Overflows.of_part {offset : Nat} {expression : Expression} {part : NodeId}
    (overflows : later.Overflows offset part) (further : later.Extends arena) (built : later.IsBuilt)
    (found : arena.expression id = .ok expression) (member : part ∈ expression.parts) :
    arena.Overflows offset id := by
  obtain ⟨leaf, call, column, reaches, foundLeaf, listed, large⟩ := overflows
  have inside := (resolves_expression found).inside
  have earlier := built.part_lt (further.expression found) member
  obtain ⟨before, within⟩ := further.reached built reaches (Nat.lt_trans earlier inside)
  exact ⟨leaf, call, column, before.head ⟨expression, found, member⟩,
    further.expression_of_inside foundLeaf within, listed, large⟩

/-- A reference to a source leads to an operator that was found. -/
theorem resolves_source {operator : Operator} (found : arena.operator id = .ok operator) :
    arena.Resolves (.source, id) := by
  obtain ⟨node, there, content⟩ := (operator_iff operator).mp found
  exact ⟨node, there, by simp [Node.isExpression, content]⟩

/-- A constant or a null is accepted, whatever source it records. -/
theorem check_recorded (arena : Arena) (output : OutputSchema) {expression : Expression}
    (recorded : expression.recorded? = some source) :
    arena.check ⟨output, .expression expression⟩ = .ok () := by
  refine check_iff.mpr ⟨?_, ?_⟩ <;> cases expression <;> cases recorded
  · exact nofun
  · exact nofun
  · rfl
  · rfl

/-- What was sound when it had grown was sound before. -/
theorem Extends.sound (further : later.Extends arena) (sound : later.IsSound) : arena.IsSound := by
  intro place node found reference member
  obtain ⟨earlier, resolves⟩ := sound place node (further.found found) reference member
  have inside : place.index < arena.size := (List.getElem?_eq_some_iff.mp found).1
  exact ⟨earlier, (further.resolves_iff (Nat.lt_trans earlier inside)).mp resolves⟩

/-- A plan stays sound if a node is accepted of which the recorded source is a relation. -/
theorem IsSound.adding (sound : arena.IsSound) (accepted : arena.check node = .ok ())
    (recorded : ∀ source, node.content.recorded? = some source → arena.Resolves (.source, source)) :
    (arena.adding node).IsSound := by
  intro place other found reference member
  have further := Extends.adding arena node
  rcases found_adding node found with before | ⟨here, rfl⟩
  · obtain ⟨earlier, resolves⟩ := sound place other before reference member
    exact ⟨earlier, further.resolves resolves⟩
  · have resolves : arena.Resolves reference := by
      rcases (other.mentions_iff reference).mp member with referred | ⟨source, named, rfl⟩
      · exact (check_iff.mp accepted).1 reference referred
      · exact recorded source named
    exact ⟨here ▸ resolves.inside, further.resolves resolves⟩

end Arena

/-! Why a plan stops its building. -/

/-- It stopped with a failure of the plan. -/
def Stop.IsOfPlan (stop : Stop) : Prop := ∃ failure, stop = .failed failure ∧ failure.kind = .plan

/-- What holds of the errors of two steps holds of the errors of the one behind the other. -/
theorem holds_of_bind {ε α β : Type} {motive : ε → Prop} {first : Except ε α} {next : α → Except ε β}
    {error : ε} (failed : first >>= next = .error error)
    (before : ∀ error, first = .error error → motive error)
    (behind : ∀ value, first = .ok value → next value = .error error → motive error) :
    motive error := by
  cases found : first with
  | error other =>
    rw [found] at failed
    cases failed
    exact before _ found
  | ok value =>
    rw [found] at failed
    exact behind value found failed

namespace Arena

variable {arena : Arena} {id target source : NodeId} {node : Node} {failure : Failure} {stop : Stop}

/-- The node that was found stands in its place. -/
theorem found_of_node (found : arena.node id = .ok node) : arena.nodes[id.index]? = some node := by
  rw [Arena.node] at found
  split at found
  · rename_i there
    rw [there, Except.ok.inj found]
  · cases found

/-- Two steps fail for the plan if both of them do so. -/
theorem kind_of_bind {α β : Type} {first : Except Failure α} {next : α → Except Failure β}
    (failed : first >>= next = .error failure)
    (before : ∀ failure, first = .error failure → failure.kind = .plan)
    (behind : ∀ value, first = .ok value → next value = .error failure → failure.kind = .plan) :
    failure.kind = .plan :=
  holds_of_bind (motive := fun failure => failure.kind = .plan) failed before behind

/-- If a node is missing, this is a failure of the plan. -/
theorem kind_of_node (failed : arena.node id = .error failure) : failure.kind = .plan := by
  rw [Arena.node] at failed
  split at failed <;> cases failed
  rfl

/-- If there is no output since the node is missing, this is a failure of the plan. -/
theorem kind_of_output (failed : arena.output id = .error failure) : failure.kind = .plan :=
  kind_of_bind failed (fun _ => kind_of_node) fun _ _ => nofun

/-- If there is no such expression, this is a failure of the plan. -/
theorem kind_of_expression (failed : arena.expression id = .error failure) :
    failure.kind = .plan := by
  refine kind_of_bind failed (fun _ => kind_of_node) fun node _ stopped => ?_
  split at stopped <;> cases stopped
  rfl

/-- If there is no such operator, this is a failure of the plan. -/
theorem kind_of_operator (failed : arena.operator id = .error failure) : failure.kind = .plan := by
  refine kind_of_bind failed (fun _ => kind_of_node) fun node _ stopped => ?_
  split at stopped <;> cases stopped
  rfl

/-- If the target is missing, this is a failure of the plan. -/
theorem kind_of_projectionOver? (failed : arena.projectionOver? id source = .error failure) :
    failure.kind = .plan := by
  rw [projectionOver?] at failed
  split at failed
  · cases failed
  · cases failed
  · rename_i other found
    split at failed
    · cases failed
    · cases failed
      exact kind_of_operator found

/-- If what a projection passes on is no expression, this is a failure of the plan. -/
theorem kind_of_passedOn? {index : Nat} {ids : List NodeId}
    (failed : arena.passedOn? source index ids = .error failure) : failure.kind = .plan := by
  induction ids generalizing failure with
  | nil => cases failed
  | cons id rest inductionHypothesis =>
    refine kind_of_bind failed (fun _ => kind_of_expression) fun expression _ stopped => ?_
    split at stopped
    · cases stopped
    · exact kind_of_bind stopped (fun _ => inductionHypothesis) fun _ _ => nofun

/-- A reference that leads nowhere is a failure of the plan. -/
theorem kind_of_checkReference {role : Role}
    (failed : arena.checkReference role id = .error failure) :
    failure.kind = .plan := by
  refine kind_of_bind failed (fun _ => kind_of_node) fun node _ stopped => ?_
  split at stopped <;> cases stopped <;> rfl

/-- In a plan that was built the walk to the source of an expression comes to its end, and there is
none for what is no expression. -/
theorem IsBuilt.isOfPlan_sourceOf (built : arena.IsBuilt)
    (stopped : arena.sourceOf id = .error stop) :
    stop.IsOfPlan := by
  cases found : arena.expression id with
  | ok expression =>
    obtain ⟨source, formula, spells⟩ := built.spells found
    cases (spells.sourceOf built).symm.trans stopped
  | error failure =>
    rw [sourceOf, walkLimit, sourceWithin, found] at stopped
    cases stopped
    exact ⟨failure, rfl, kind_of_expression found⟩

/-- If one of the references leads nowhere, the plan says so. -/
theorem isOfPlan_checkReferences {name : String} {references : List (Role × NodeId)}
    (stopped : arena.checkReferences name references = .error stop) : stop.IsOfPlan := by
  induction references with
  | nil => cases stopped
  | cons reference rest inductionHypothesis =>
    rw [checkReferences] at stopped
    cases checked : arena.checkReference reference.1 reference.2 with
    | ok _ =>
      rw [checked] at stopped
      exact inductionHypothesis stopped
    | error failure =>
      rw [checked] at stopped
      cases stopped
      exact ⟨_, rfl, show failure.kind = .plan from kind_of_checkReference checked⟩

/-- If the sides of an expression cannot be combined, the plan says so. -/
theorem IsBuilt.isOfPlan_checkSides (built : arena.IsBuilt) {left right : Side}
    {operator : BinaryOperator} (stopped : arena.checkSides left right operator = .error stop) :
    stop.IsOfPlan := by
  refine holds_of_bind stopped (fun other failed => ?_) fun sources _ refused => ?_
  · obtain ⟨part, -, walked⟩ := mapM_error failed
    exact built.isOfPlan_sourceOf walked
  · split at refused
    · cases refused
      exact ⟨_, rfl, rfl⟩
    · split at refused
      · cases refused
        exact ⟨_, rfl, rfl⟩
      · cases refused
    · cases refused

/-- A node that is not accepted is refused with a failure of the plan. -/
theorem IsBuilt.isOfPlan_check (built : arena.IsBuilt) (stopped : arena.check node = .error stop) :
    stop.IsOfPlan := by
  rw [check_eq] at stopped
  refine holds_of_bind stopped (fun _ => isOfPlan_checkReferences) fun _ _ refused => ?_
  unfold checkContent at refused
  split at refused
  · exact built.isOfPlan_checkSides refused
  · cases refused

end Arena

namespace Building

variable {α β : Type} {arena : Arena} {stops : Stop → Prop} {id target : NodeId}

/-- Where building has ended: the plan has only grown, as a plan that was built and as a sound one.
It stopped for such a reason, or the value that it came to is such a one. -/
structure Ended (arena : Arena) (stops : Stop → Prop) (gives : α → Prop)
    (last : Except Stop α × Arena) : Prop where
  further : last.2.Extends arena
  built : last.2.IsBuilt
  sound : arena.IsSound → last.2.IsSound
  stopped : ∀ stop, last.1 = .error stop → stops stop
  given : ∀ value, last.1 = .ok value → gives value

/-- Building on this plan comes to such an end. -/
def Careful (building : Building α) (arena : Arena) (stops : Stop → Prop) (gives : α → Prop) : Prop :=
  Ended arena stops gives (building.run.run arena)

namespace Careful

variable {gives : α → Prop} {givesThen : β → Prop} {building : Building α}

/-- Less may be said of a careful step. -/
theorem weaken {stopsToo : Stop → Prop} {givesToo : α → Prop}
    (careful : Careful building arena stops gives) (stop : ∀ reason, stops reason → stopsToo reason)
    (give : ∀ value, gives value → givesToo value) : Careful building arena stopsToo givesToo :=
  ⟨careful.further, careful.built, careful.sound, fun _ same => stop _ (careful.stopped _ same),
    fun _ same => give _ (careful.given _ same)⟩

/-- To give a value is careful. -/
theorem pure (built : arena.IsBuilt) {value : α} (given : gives value) :
    Careful (pure value) arena stops gives :=
  ⟨.refl arena, built, fun sound => sound, nofun, fun _ same => Except.ok.inj same ▸ given⟩

/-- To fail for one of the reasons that are allowed is careful. -/
theorem throw (built : arena.IsBuilt) {stop : Stop} (stopped : stops stop) :
    Careful (throw stop) arena stops gives :=
  ⟨.refl arena, built, fun sound => sound, fun _ same => Except.error.inj same ▸ stopped, nofun⟩

/-- A careful step and careful steps behind it are careful together. -/
theorem bind {first : Building α} {next : α → Building β} (begun : Careful first arena stops gives)
    (continued : ∀ value middle, middle.Extends arena → middle.IsBuilt → gives value →
      Careful (next value) middle stops givesThen) :
    Careful (first >>= next) arena stops givesThen := by
  rw [Careful, run_bind]
  rw [Careful] at begun
  generalize first.run.run arena = ran at begun
  obtain ⟨stop | value, middle⟩ := ran
  · refine ⟨begun.further, begun.built, begun.sound, fun other same => ?_, nofun⟩
    exact begun.stopped other (congrArg Except.error (Except.error.inj same))
  · have after := continued value middle begun.further begun.built (begun.given value rfl)
    exact ⟨after.further.trans begun.further, after.built,
      fun sound => after.sound (begun.sound sound),
      after.stopped, after.given⟩

/-- To look at the plan first is careful. -/
theorem bindGet {next : Arena → Building β} (continued : Careful (next arena) arena stops givesThen) :
    Careful (get >>= next) arena stops givesThen := continued

/-- To look something up first is careful if it is missing for a reason that is allowed only. -/
theorem bindLook (built : arena.IsBuilt) {found : Except Failure α} {next : α → Building β}
    (stopped : ∀ failure, found = .error failure → stops (.failed failure))
    (continued : ∀ value, found = .ok value → Careful (next value) arena stops givesThen) :
    Careful (liftM found >>= next) arena stops givesThen := by
  cases found with
  | ok value => exact continued value rfl
  | error failure => exact throw built (stopped failure rfl)

/-- To look something up first, however deep, is careful if this stops for a reason that is allowed.
-/
theorem bindAsk (built : arena.IsBuilt) {found : Except Stop α} {next : α → Building β}
    (stopped : ∀ stop, found = .error stop → stops stop)
    (continued : ∀ value, found = .ok value → Careful (next value) arena stops givesThen) :
    Careful (liftM found >>= next) arena stops givesThen := by
  cases found with
  | ok value => exact continued value rfl
  | error stop => exact throw built (stopped stop rfl)

/-- Adding a node is careful unless the node records a source that is no relation. -/
theorem push (built : arena.IsBuilt) {node : Node}
    (recorded : arena.IsSound → ∀ source, node.content.recorded? = some source →
      arena.Resolves (.source, source)) :
    Careful (push node) arena Stop.IsOfPlan fun _ =>
      ∀ reference ∈ node.references, arena.Resolves reference := by
  rw [Careful, run_push]
  cases accepted : arena.check node with
  | ok _ =>
    exact ⟨.adding arena node, .adding arena node built accepted,
      fun sound => sound.adding accepted (recorded sound), nofun,
      fun _ _ => (Arena.check_iff.mp accepted).1⟩
  | error stop =>
    exact ⟨.refl arena, built, fun sound => sound,
      fun _ same => Except.error.inj same ▸ built.isOfPlan_check accepted, nofun⟩

/-- To add an expression whose recorded source is there is careful. -/
theorem expression (built : arena.IsBuilt) {output : OutputSchema} {expression : Expression}
    (recorded : ∀ source, expression.recorded? = some source → arena.Resolves (.source, source)) :
    Careful (Building.expression output expression) arena Stop.IsOfPlan fun _ =>
      ∀ reference ∈ Operand.referencesOf expression.operands, arena.Resolves reference :=
  push built fun _ => recorded

variable {limit : Nat} {source : NodeId}

/-- To move a side is careful if it is careful to move the expression that it is. -/
theorem moveSide (built : arena.IsBuilt) {move : NodeId → Building (Option NodeId)} {side : Side}
    (careful : ∀ part, side.expression? = some part →
      Careful (move part) arena Stop.IsOfPlan fun _ => True) :
    Careful (moveSide move side) arena Stop.IsOfPlan fun _ => True := by
  cases side with
  | expression part => exact (careful part rfl).bind fun _ _ _ builtThen _ => .pure builtThen trivial
  | scalar value => exact .pure built trivial

/-- A walk over the parts of an expression has steps left for each part, which is an earlier node.
-/
theorem ofPart {walk : NodeId → Building α} {reasons : Arena → NodeId → Stop → Prop}
    (careful : ∀ {arena : Arena} {id : NodeId}, arena.IsBuilt → 0 < limit →
      (∀ expression, arena.expression id = .ok expression → id.index < limit) →
      Careful (walk id) arena (reasons arena id) fun _ => arena.Resolves (.expression, id))
    (built : arena.IsBuilt)
    (enough : ∀ expression, arena.expression id = .ok expression → id.index < limit + 1)
    {later : Arena} {expression : Expression} {part : NodeId}
    (found : arena.expression id = .ok expression) (member : part ∈ expression.parts)
    (builtLater : later.IsBuilt) : Careful (walk part) later (reasons later part) fun _ => True := by
  have earlier := built.part_lt found member
  have inside := enough expression found
  exact (careful builtLater (by omega) fun _ _ => by omega).weaken (fun _ stopped => stopped)
    fun _ _ => trivial

/-- Moving an expression is careful: it asks for the expression, follows its parts, which are
earlier ones, and adds nothing over the target unless the target is a projection. -/
theorem retargetWithin (built : arena.IsBuilt) (positive : 0 < limit)
    (enough : ∀ expression, arena.expression id = .ok expression → id.index < limit) :
    Careful (retargetWithin target limit id) arena Stop.IsOfPlan fun _ =>
      arena.Resolves (.expression, id) := by
  induction limit generalizing arena id with
  | zero => exact absurd positive (Nat.lt_irrefl 0)
  | succ limit inductionHypothesis =>
    have upon {source : NodeId} {expressions : List NodeId}
        (found : arena.projectionOver? target source = .ok (some expressions)) (named : NodeId)
        (same : some target = some named) : arena.Resolves (.source, named) := by
      obtain rfl := Option.some.inj same
      exact Arena.resolves_source (Arena.projectionOver?_some found)
    -- The source of the expression is asked for first, so the expression is there whatever comes
    -- then.
    rw [Building.retargetWithin]
    refine bindGet (bindAsk built (fun _ => built.isOfPlan_sourceOf) fun source asked => ?_)
    obtain ⟨expression, found⟩ := Arena.sourceOf_expression asked
    have resolves := Arena.resolves_expression found
    split
    case isTrue => exact .pure built resolves
    case isFalse =>
      refine bindLook built (fun _ failed => ⟨_, rfl, Arena.kind_of_output failed⟩) fun output _ => ?_
      refine bindLook built (fun _ failed => ⟨_, rfl, Arena.kind_of_expression failed⟩)
        fun expression found => ?_
      have added {later : Arena} (builtLater : later.IsBuilt) (turned : Expression)
          (recorded : ∀ source, turned.recorded? = some source → later.Resolves (.source, source)) :
          Careful (do return some (← Building.expression output turned)) later Stop.IsOfPlan
            fun _ => arena.Resolves (.expression, id) :=
        (Careful.expression builtLater recorded).bind fun _ _ _ builtThen _ =>
          .pure builtThen resolves
      cases expression with
      | column source index =>
        refine bindLook built (fun _ failed => ⟨_, rfl, Arena.kind_of_projectionOver? failed⟩)
          fun expressions _ => ?_
        cases expressions with
        | none => exact .pure built resolves
        | some expressions =>
          refine bindLook built (fun _ failed => ⟨_, rfl, Arena.kind_of_passedOn? failed⟩)
            fun place _ => ?_
          cases place with
          | none => exact .pure built resolves
          | some place => exact added built _ fun _ none => by cases none
      | constant | null =>
        refine bindLook built (fun _ failed => ⟨_, rfl, Arena.kind_of_projectionOver? failed⟩)
          fun expressions found => ?_
        cases expressions with
        | none => exact .pure built resolves
        | some expressions => exact added built _ (upon found)
      | unary operand operator =>
        refine (ofPart inductionHypothesis built enough found (List.mem_singleton_self operand)
          built).bind fun operand _ _ builtThen _ => ?_
        cases operand with
        | none => exact .pure builtThen resolves
        | some operand => exact added builtThen _ fun _ none => by cases none
      | binary left right operator =>
        refine (moveSide built fun _ same => ofPart inductionHypothesis built enough found
          (Expression.left_part same) built).bind fun left middle _ builtMiddle _ => ?_
        cases left with
        | none => exact .pure builtMiddle resolves
        | some left =>
          refine (moveSide builtMiddle fun _ same => ofPart inductionHypothesis built enough found
            (Expression.right_part same) builtMiddle).bind fun right _ _ builtThen _ => ?_
          cases right with
          | none => exact .pure builtThen resolves
          | some right => exact added builtThen _ fun _ none => by cases none
      | aggregate | rowFunction => exact .pure built resolves

/-- The walk that a plan allows for goes on long enough for each of its expressions. -/
theorem enough_walkLimit {expression : Expression} (found : arena.expression id = .ok expression) :
    id.index < arena.walkLimit := by
  have inside : id.index < arena.size := (Arena.resolves_expression found).inside
  unfold Arena.walkLimit
  omega

/-- To move an expression onto another source is careful. -/
theorem retarget (built : arena.IsBuilt) :
    Careful (retarget id target) arena Stop.IsOfPlan fun _ => arena.Resolves (.expression, id) :=
  bindGet (retargetWithin built (Nat.succ_pos _) fun _ => enough_walkLimit)

/-- Bringing two expressions over one source is careful: it asks for both. -/
theorem matchSources (built : arena.IsBuilt) {left right : NodeId} :
    Careful (matchSources (.expression left) (.expression right)) arena Stop.IsOfPlan fun _ =>
      arena.Resolves (.expression, left) ∧ arena.Resolves (.expression, right) := by
  have source {later : Arena} (builtLater : later.IsBuilt) (part : NodeId) (stop : Stop)
      (stopped : later.sourceOf part = .error stop) : stop.IsOfPlan :=
    builtLater.isOfPlan_sourceOf stopped
  refine bindGet (bindAsk built (source built right) fun target asked => ?_)
  obtain ⟨expression, found⟩ := Arena.sourceOf_expression asked
  have resolvesRight := Arena.resolves_expression found
  refine (retarget built).bind fun moved middle further builtMiddle resolvesLeft => ?_
  cases moved with
  | some moved => exact .pure builtMiddle ⟨resolvesLeft, resolvesRight⟩
  | none =>
    refine bindGet (bindAsk builtMiddle (source builtMiddle left) fun target _ => ?_)
    refine (retarget builtMiddle).bind fun moved _ _ builtThen _ => ?_
    cases moved with
    | some moved => exact .pure builtThen ⟨resolvesLeft, resolvesRight⟩
    | none => exact .pure builtThen ⟨resolvesLeft, resolvesRight⟩

variable {overflow : Overflow} {offset : Nat}

/-- Why shifting functions stops: for a failure of the plan, or at a sum within the expression that
is too large, where sums are checked. -/
def IsOfShift (overflow : Overflow) (offset : Nat) (arena : Arena) (id : NodeId) (stop : Stop) : Prop :=
  stop.IsOfPlan ∨ stop = .overflow ∧ overflow = .stops ∧ arena.Overflows offset id

/-- To shift a side is careful if it is careful to shift the expression that it is. -/
theorem shiftSide (built : arena.IsBuilt) {move : NodeId → Building NodeId} {side : Side}
    (careful : ∀ part, side.expression? = some part → Careful (move part) arena stops fun _ => True) :
    Careful (shiftSide move side) arena stops fun _ => True := by
  cases side with
  | expression part => exact (careful part rfl).bind fun _ _ _ builtThen _ => .pure builtThen trivial
  | scalar value => exact .pure built trivial

/-- Shifting functions is careful: it asks for the expression and follows its parts, which are
earlier ones. It may break off at a sum. -/
theorem shiftFunctionsWithin (built : arena.IsBuilt) (positive : 0 < limit)
    (enough : ∀ expression, arena.expression id = .ok expression → id.index < limit) :
    Careful (shiftFunctionsWithin overflow target offset limit id) arena
      (IsOfShift overflow offset arena id) fun _ => arena.Resolves (.expression, id) := by
  induction limit generalizing arena id with
  | zero => exact absurd positive (Nat.lt_irrefl 0)
  | succ limit inductionHypothesis =>
    rw [Building.shiftFunctionsWithin]
    refine bindGet (bindLook built (fun _ failed => .inl ⟨_, rfl, Arena.kind_of_output failed⟩)
      fun output _ => ?_)
    refine bindLook built (fun _ failed => .inl ⟨_, rfl, Arena.kind_of_expression failed⟩)
      fun expression found => ?_
    have resolves := Arena.resolves_expression found
    have added {later : Arena} (builtLater : later.IsBuilt) (turned : Expression)
        (recorded : ∀ source, turned.recorded? = some source → later.Resolves (.source, source)) :
        Careful (Building.expression output turned) later (IsOfShift overflow offset arena id)
          fun _ => arena.Resolves (.expression, id) :=
      (Careful.expression builtLater recorded).weaken (fun _ => .inl) fun _ _ => resolves
    have part {later : Arena} (further : later.Extends arena) (builtLater : later.IsBuilt)
        {child : NodeId} (member : child ∈ expression.parts) :
        Careful (Building.shiftFunctionsWithin overflow target offset limit child) later
          (IsOfShift overflow offset arena id) fun _ => True :=
      (ofPart inductionHypothesis built enough found member builtLater).weaken
        (fun _ => .imp_right <| .imp_right <| .imp_right fun overflows =>
          overflows.of_part further builtLater found member) fun _ _ => trivial
    -- A sum is met at the calls alone. Elsewhere the building stops where one of the parts does.
    cases expression with
    | rowFunction call =>
      dsimp only
      split
      case isTrue => exact .pure built resolves
      case isFalse =>
        split
        case h_1 column single =>
          refine bindAsk built (fun _ failed => ?_) fun _ _ => added built _ nofun
          obtain ⟨rfl, rfl, large⟩ := Overflow.add_eq_error failed
          exact .inr ⟨rfl, rfl, id, call, column, .refl, found, by simp [single], large⟩
        case h_2 => exact .throw built (.inl ⟨_, rfl, rfl⟩)
    | unary operand operator =>
      refine (part (.refl arena) built (List.mem_singleton_self operand)).bind
        fun moved _ _ builtThen _ => ?_
      split
      case isTrue => exact .pure builtThen resolves
      case isFalse => exact added builtThen _ nofun
    | binary left right operator =>
      refine (shiftSide built fun _ same => part (.refl arena) built (Expression.left_part same)).bind
        fun movedLeft middle further builtMiddle _ => ?_
      refine (shiftSide builtMiddle fun _ same =>
        part further builtMiddle (Expression.right_part same)).bind fun movedRight _ _ builtThen _ => ?_
      split
      case isTrue => exact .pure builtThen resolves
      case isFalse => exact added builtThen _ nofun
    | column | constant | null | aggregate => exact .pure built resolves

/-- To shift the functions within an expression is careful. -/
theorem shiftFunctions (built : arena.IsBuilt) :
    Careful (shiftFunctions overflow id target offset) arena (IsOfShift overflow offset arena id)
      fun _ => arena.Resolves (.expression, id) :=
  bindGet (shiftFunctionsWithin built (Nat.succ_pos _) fun _ => enough_walkLimit)

end Careful

end Building

end Rankwise
