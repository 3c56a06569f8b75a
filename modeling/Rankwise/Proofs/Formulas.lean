import Mathlib.Logic.Relation
import Rankwise.Proofs.BuiltPlans

/-!
# What expressions compute

The parts of an expression lie scattered over a plan. A `Formula` is an expression in one piece, and
`Arena.Spells` says which formula an expression spells out and over which source, the same for all
of its leaves. In a plan that was built every expression spells out exactly one formula, over the
source that the plan finds for it (`IsBuilt.spells`, `IsBuilt.sourceOf`, `Spells.unique`).

A formula has a value on every row of its source, given what operators and functions mean. Values
can be of any sort, so operators that fail on some of them are covered.
-/

namespace Rankwise

/-- An expression in one piece. -/
inductive Formula where
  | column (index : Nat)
  | constant (value : Scalar)
  | null (field : Nat)
  | aggregate (function : String) (columns : List Nat) (skipNulls : Bool)
  | rowFunction (call : RowFunction)
  /-- A side of a binary expression that is no expression. -/
  | scalar (value : Scalar)
  | unary (operand : Formula) (operator : UnaryOperator)
  | binary (left right : Formula) (operator : BinaryOperator)

/-- The calls to functions in a formula. -/
def Formula.calls : Formula → List RowFunction
  | rowFunction call => [call]
  | unary operand _ => operand.calls
  | binary left right _ => left.calls ++ right.calls
  | column _ | constant _ | null _ | aggregate _ _ _ | scalar _ => []

/-- The formula of a leaf with the source that it names. -/
def Expression.leaf? : Expression → Option (NodeId × Formula)
  | column source index => some (source, .column index)
  | constant source value => some (source, .constant value)
  | null source field => some (source, .null field)
  | aggregate source function columns skipNulls =>
    some (source, .aggregate function columns skipNulls)
  | rowFunction call => some (call.source, .rowFunction call)
  | unary _ _ | binary _ _ _ => none

/-- A leaf of a formula names the source over which it is taken. -/
theorem Expression.source?_of_leaf {expression : Expression} {source : NodeId} {formula : Formula}
    (leaf : expression.leaf? = some (source, formula)) : expression.source? = some source := by
  cases expression <;> cases leaf <;> rfl

/-- An expression refers to the expressions that it is made of. -/
theorem Expression.part_referred (expression : Expression) {part : NodeId}
    (member : part ∈ expression.parts) :
    (.expression, part) ∈ Operand.referencesOf expression.operands := by
  cases expression with
  | unary operand operator =>
    obtain rfl := List.mem_singleton.mp member
    exact List.mem_singleton_self _
  | binary left right operator =>
    cases left <;> cases right <;>
      simp [Expression.parts, Expression.operands, Side.expression?, Operand.ofSide,
        Operand.referencesOf, Operand.references] at member ⊢ <;> grind
  | column | constant | null | aggregate | rowFunction => cases member

/-- What operators and functions mean. -/
structure Meaning (ν : Type) where
  /-- The value that a scalar stands for. -/
  scalar : Scalar → ν
  unary : UnaryOperator → ν → ν
  binary : BinaryOperator → ν → ν → ν
  /-- The value of a call on the values of the columns that it reads. -/
  rowFunction : RowFunction → List ν → ν
  /-- The value of an aggregate on the values of its columns in every row. -/
  aggregate : String → Bool → List (List ν) → ν

namespace Formula

variable {ν : Type}

/-- The value in a column of a row. -/
def entry (meaning : Meaning ν) (row : List ν) (index : Nat) : ν :=
  row[index]?.getD (meaning.scalar .null)

/-- The value of a formula on a row of its source, of which all rows are given for aggregates. -/
def value (meaning : Meaning ν) (rows : List (List ν)) (row : List ν) : Formula → ν
  | column index => entry meaning row index
  | constant found | scalar found => meaning.scalar found
  | null _ => meaning.scalar .null
  | aggregate function columns skipNulls =>
    meaning.aggregate function skipNulls (rows.map fun row => columns.map (entry meaning row))
  | rowFunction call => meaning.rowFunction call (call.columns.map (entry meaning row))
  | unary operand operator => meaning.unary operator (operand.value meaning rows row)
  | binary left right operator =>
    meaning.binary operator (left.value meaning rows row) (right.value meaning rows row)

end Formula

namespace Arena

/-- An expression is made of another one. -/
def HasPart (arena : Arena) (whole part : NodeId) : Prop :=
  ∃ expression, arena.expression whole = .ok expression ∧ part ∈ expression.parts

/-- An expression spells out a formula, and all of its leaves name this source. -/
inductive Spells (arena : Arena) (source : NodeId) : NodeId → Formula → Prop
  | leaf (id : NodeId) (expression : Expression) (formula : Formula)
      (found : arena.expression id = .ok expression)
      (names : expression.leaf? = some (source, formula)) : arena.Spells source id formula
  | unary (id operand : NodeId) (operator : UnaryOperator) (formula : Formula)
      (found : arena.expression id = .ok (.unary operand operator))
      (below : arena.Spells source operand formula) :
      arena.Spells source id (.unary formula operator)
  | binary (id : NodeId) (left right : Side) (operator : BinaryOperator) (first second : Formula)
      (found : arena.expression id = .ok (.binary left right operator))
      (sides : left.expression?.isSome ∨ right.expression?.isSome)
      (belowLeft : ∀ part, left = .expression part → arena.Spells source part first)
      (plainLeft : ∀ value, left = .scalar value → first = .scalar value)
      (belowRight : ∀ part, right = .expression part → arena.Spells source part second)
      (plainRight : ∀ value, right = .scalar value → second = .scalar value) :
      arena.Spells source id (.binary first second operator)

variable {arena later : Arena} {source other id : NodeId} {formula : Formula}

namespace Spells

/-- What was spelled out is so in a plan that has grown. -/
theorem grown (spells : arena.Spells source id formula) (further : later.Extends arena) :
    later.Spells source id formula := by
  induction spells with
  | leaf id expression formula found names =>
    exact .leaf id expression formula (further.expression found) names
  | unary id operand operator formula found _ below =>
    exact .unary id operand operator formula (further.expression found) below
  | binary id left right operator first second found sides _ plainLeft _ plainRight belowLeft
      belowRight =>
    exact .binary id left right operator first second (further.expression found) sides belowLeft
      plainLeft belowRight plainRight

/-- What spells out a formula is an expression. -/
theorem expression (spells : arena.Spells source id formula) :
    ∃ expression, arena.expression id = .ok expression := by
  cases spells <;> exact ⟨_, by assumption⟩

/-- A leaf spells out nothing but what it is. -/
theorem of_leaf (spells : arena.Spells source id formula) {expression : Expression}
    (found : arena.expression id = .ok expression) {named : NodeId × Formula}
    (names : expression.leaf? = some named) : named = (source, formula) := by
  cases spells with
  | leaf _ expressionToo _ foundToo namesToo =>
    obtain rfl := Except.ok.inj (found.symm.trans foundToo)
    exact Option.some.inj (names.symm.trans namesToo)
  | unary _ _ _ _ foundToo =>
    obtain rfl := Except.ok.inj (found.symm.trans foundToo)
    cases names
  | binary _ _ _ _ _ _ foundToo =>
    obtain rfl := Except.ok.inj (found.symm.trans foundToo)
    cases names

/-- What a unary expression spells out is an operation on what its operand spells out. -/
theorem of_unary (spells : arena.Spells source id formula) {operand : NodeId}
    {operator : UnaryOperator} (found : arena.expression id = .ok (.unary operand operator)) :
    ∃ below, arena.Spells source operand below ∧ formula = .unary below operator := by
  cases spells with
  | leaf _ _ _ foundToo names =>
    obtain rfl := Except.ok.inj (found.symm.trans foundToo)
    cases names
  | unary _ _ _ below foundToo spellsBelow =>
    cases Except.ok.inj (found.symm.trans foundToo)
    exact ⟨below, spellsBelow, rfl⟩
  | binary _ _ _ _ _ _ foundToo => cases Except.ok.inj (found.symm.trans foundToo)

end Spells

/-- What a side of a binary expression spells out. A scalar is over any source. -/
def SpellsSide (arena : Arena) (source : NodeId) : Side → Formula → Prop
  | .expression part, formula => arena.Spells source part formula
  | .scalar value, formula => formula = .scalar value

/-- A side spells a formula if it is an expression that does, or a scalar that is the formula. -/
theorem spellsSide_iff (side : Side) :
    arena.SpellsSide source side formula ↔
      (∀ part, side = .expression part → arena.Spells source part formula) ∧
        ∀ value, side = .scalar value → formula = .scalar value := by
  cases side <;> simp [SpellsSide]

/-- What a side spells it spells in every extension of the plan. -/
theorem SpellsSide.grown {side : Side} (spells : arena.SpellsSide source side formula)
    (further : later.Extends arena) : later.SpellsSide source side formula := by
  cases side with
  | expression part => exact Spells.grown spells further
  | scalar value => exact spells

namespace Spells

/-- A binary expression spells out an operation on what its sides spell out. -/
theorem ofSides {left right : Side} {operator : BinaryOperator} {first second : Formula}
    (found : arena.expression id = .ok (.binary left right operator))
    (sides : left.expression?.isSome ∨ right.expression?.isSome)
    (onLeft : arena.SpellsSide source left first)
    (onRight : arena.SpellsSide source right second) :
    arena.Spells source id (.binary first second operator) := by
  obtain ⟨belowLeft, plainLeft⟩ := (spellsSide_iff left).mp onLeft
  obtain ⟨belowRight, plainRight⟩ := (spellsSide_iff right).mp onRight
  exact .binary id left right operator first second found sides belowLeft plainLeft belowRight
    plainRight

/-- What a binary expression spells out is an operation on what its sides spell out. -/
theorem of_binary (spells : arena.Spells source id formula) {left right : Side}
    {operator : BinaryOperator}
    (found : arena.expression id = .ok (.binary left right operator)) :
    (left.expression?.isSome ∨ right.expression?.isSome) ∧
      ∃ first second, arena.SpellsSide source left first ∧ arena.SpellsSide source right second ∧
        formula = .binary first second operator := by
  cases spells with
  | leaf _ _ _ foundToo names =>
    obtain rfl := Except.ok.inj (found.symm.trans foundToo)
    cases names
  | unary _ _ _ _ foundToo => cases Except.ok.inj (found.symm.trans foundToo)
  | binary _ _ _ _ first second foundToo sides belowLeft plainLeft belowRight plainRight =>
    cases Except.ok.inj (found.symm.trans foundToo)
    exact ⟨sides, first, second, (spellsSide_iff left).mpr ⟨belowLeft, plainLeft⟩,
      (spellsSide_iff right).mpr ⟨belowRight, plainRight⟩, rfl⟩

/-- The parts of an expression are over its source, and it makes the calls that they make. -/
theorem part (spells : arena.Spells source id formula) {expression : Expression}
    (found : arena.expression id = .ok expression) {part : NodeId} (member : part ∈ expression.parts) :
    ∃ below, arena.Spells source part below ∧ below.calls ⊆ formula.calls := by
  cases expression with
  | unary operand operator =>
    obtain rfl := List.mem_singleton.mp member
    obtain ⟨below, spellsBelow, rfl⟩ := spells.of_unary found
    exact ⟨below, spellsBelow, fun _ called => called⟩
  | binary left right operator =>
    obtain ⟨-, first, second, onLeft, onRight, rfl⟩ := spells.of_binary found
    obtain ⟨side, either, same⟩ := List.mem_filterMap.mp member
    cases side with
    | scalar value => cases same
    | expression other =>
      cases same
      rcases List.mem_cons.mp either with rfl | last
      · exact ⟨first, onLeft, List.subset_append_left _ _⟩
      · obtain rfl := List.mem_singleton.mp last
        exact ⟨second, onRight, List.subset_append_right _ _⟩
  | column | constant | null | aggregate | rowFunction => cases member

/-- The same of what an expression is made of, directly or not. -/
theorem reached (spells : arena.Spells source id formula) {part : NodeId}
    (reaches : Relation.ReflTransGen arena.HasPart id part) :
    ∃ below, arena.Spells source part below ∧ below.calls ⊆ formula.calls := by
  induction reaches with
  | refl => exact ⟨formula, spells, fun _ called => called⟩
  | tail _ made inductionHypothesis =>
    obtain ⟨whole, spellsWhole, within⟩ := inductionHypothesis
    obtain ⟨expression, found, member⟩ := made
    obtain ⟨below, spellsBelow, further⟩ := spellsWhole.part found member
    exact ⟨below, spellsBelow, fun _ called => within (further called)⟩

/-- An expression that spells a formula over a source names no other source. -/
theorem source?_eq (spells : arena.Spells source id formula) {expression : Expression}
    (found : arena.expression id = .ok expression) {other : NodeId}
    (names : expression.source? = some other) : other = source := by
  cases expression with
  | unary | binary => cases names
  | column | constant | null | aggregate | rowFunction =>
    cases names
    exact (Prod.mk.inj (spells.of_leaf found rfl)).1

/-- An expression spells out one formula, over one source. -/
theorem unique (spells : arena.Spells source id formula) {another : Formula}
    (spellsToo : arena.Spells other id another) : source = other ∧ formula = another := by
  induction spells generalizing another with
  | leaf id expression formula found names => exact Prod.mk.inj (spellsToo.of_leaf found names)
  | unary id operand operator formula found _ inductionHypothesis =>
    obtain ⟨below, spellsBelow, rfl⟩ := spellsToo.of_unary found
    obtain ⟨same, rfl⟩ := inductionHypothesis spellsBelow
    exact ⟨same, rfl⟩
  | binary id left right operator first second found sides _ plainLeft _ plainRight onLeft onRight =>
    obtain ⟨-, firstToo, secondToo, leftToo, rightToo, rfl⟩ := spellsToo.of_binary found
    have sameLeft : (∀ part, left = .expression part → source = other) ∧ first = firstToo := by
      cases left with
      | expression part =>
        obtain ⟨same, sameFormula⟩ := onLeft part rfl leftToo
        exact ⟨fun _ _ => same, sameFormula⟩
      | scalar value => exact ⟨nofun, (plainLeft value rfl).trans leftToo.symm⟩
    have sameRight : (∀ part, right = .expression part → source = other) ∧ second = secondToo := by
      cases right with
      | expression part =>
        obtain ⟨same, sameFormula⟩ := onRight part rfl rightToo
        exact ⟨fun _ _ => same, sameFormula⟩
      | scalar value =>
        exact ⟨nofun, (plainRight value rfl).trans rightToo.symm⟩
    refine ⟨?_, by rw [sameLeft.2, sameRight.2]⟩
    cases left with
    | expression part => exact sameLeft.1 part rfl
    | scalar _ =>
      cases right with
      | expression part => exact sameRight.1 part rfl
      | scalar _ => exact sides.elim nofun nofun

end Spells

/-! The source that a plan finds for an expression. -/

/-- The source of an expression that names one is found at once. -/
theorem sourceWithin_leaf (limit : Nat) {expression : Expression}
    (found : arena.expression id = .ok expression) (names : expression.source? = some source) :
    arena.sourceWithin (limit + 1) id = .ok source := by
  rw [sourceWithin, found]
  simp only [liftM, monadLift, MonadLift.monadLift, Bind.bind, Except.bind, names]
  rfl

/-- The source of an expression that names none is that of its first part. -/
theorem sourceWithin_part (limit : Nat) {expression : Expression} {first : NodeId}
    {others : List NodeId} (found : arena.expression id = .ok expression)
    (composite : expression.source? = none) (parts : expression.parts = first :: others) :
    arena.sourceWithin (limit + 1) id = arena.sourceWithin limit first := by
  rw [sourceWithin, found]
  simp only [liftM, monadLift, MonadLift.monadLift, Bind.bind, Except.bind, composite, parts]

/-- The expressions that an expression is made of are earlier ones. -/
theorem IsBuilt.part_lt (built : arena.IsBuilt) {expression : Expression}
    (found : arena.expression id = .ok expression) {part : NodeId}
    (member : part ∈ expression.parts) : part.index < id.index := by
  obtain ⟨node, there, content⟩ := (expression_iff expression).mp found
  refine (built.resolves there (.expression, part) ?_).1
  rw [Node.references, Node.operands, content]
  exact expression.part_referred member

/-- The source that is found for an expression is the one that its leaves name. The walk to it goes
from an expression to an earlier one each time. -/
theorem Spells.sourceWithin (spells : arena.Spells source id formula) (built : arena.IsBuilt)
    (limit : Nat) (enough : id.index < limit) : arena.sourceWithin limit id = .ok source := by
  induction spells generalizing limit with
  | leaf id expression formula found names =>
    obtain ⟨limit, rfl⟩ := Nat.exists_eq_add_of_lt enough
    exact sourceWithin_leaf _ found (Expression.source?_of_leaf names)
  | unary id operand operator formula found _ inductionHypothesis =>
    obtain ⟨further, rfl⟩ := Nat.exists_eq_add_of_lt enough
    have earlier := built.part_lt found (List.mem_singleton_self operand)
    rw [sourceWithin_part _ found rfl rfl]
    exact inductionHypothesis _ (by omega)
  | binary id left right operator first second found sides _ _ _ _ onLeft onRight =>
    obtain ⟨further, rfl⟩ := Nat.exists_eq_add_of_lt enough
    cases left with
    | expression part =>
      have earlier : part.index < _ := built.part_lt found List.mem_cons_self
      rw [sourceWithin_part _ found rfl rfl]
      exact onLeft part rfl _ (by omega)
    | scalar value =>
      cases right with
      | expression part =>
        have earlier := built.part_lt found (List.mem_singleton_self part)
        rw [sourceWithin_part _ found rfl rfl]
        exact onRight part rfl _ (by omega)
      | scalar _ => exact sides.elim nofun nofun

/-- What spells a formula is a node of the plan. -/
theorem Spells.inside (spells : arena.Spells source id formula) : id.index < arena.size := by
  obtain ⟨expression, found⟩ := spells.expression
  obtain ⟨node, there, -⟩ := (expression_iff expression).mp found
  exact (List.getElem?_eq_some_iff.mp there).1

/-- The source of an expression is that over which it spells its formula. -/
theorem Spells.sourceOf (spells : arena.Spells source id formula) (built : arena.IsBuilt) :
    arena.sourceOf id = .ok source := by
  have inside := spells.inside
  exact spells.sourceWithin built _ (by unfold walkLimit; omega)

/-- Where a reference to an expression leads, there is one. -/
theorem Resolves.expression (resolves : arena.Resolves (.expression, id)) :
    ∃ expression, arena.expression id = .ok expression := by
  obtain ⟨node, there, sort⟩ := resolves
  have isExpression := sort.mpr rfl
  cases content : node.content with
  | expression expression => exact ⟨expression, (expression_iff _).mpr ⟨node, there, content⟩⟩
  | operator operator =>
    rw [Node.isExpression, content] at isExpression
    cases isExpression

/-- Where a reference to a relation leads, there is an operator. -/
theorem Resolves.operator {role : Role} (resolves : arena.Resolves (role, id))
    (relation : role ≠ .expression) : ∃ operator, arena.operator id = .ok operator := by
  obtain ⟨node, there, sort⟩ := resolves
  cases content : node.content with
  | operator operator => exact ⟨operator, (operator_iff _).mpr ⟨node, there, content⟩⟩
  | expression expression =>
    have isExpression : node.isExpression = true := by rw [Node.isExpression, content]
    exact absurd (sort.mp isExpression) relation

/-- Sides that the plan accepts are over one source, if the plan finds what they spell out. -/
theorem checkSides_spells {left right : Side} {operator : BinaryOperator}
    (accepted : arena.checkSides left right operator = .ok ())
    (spells : ∀ part ∈ [left, right].filterMap Side.expression?,
      ∃ source formula, arena.Spells source part formula ∧ arena.sourceOf part = .ok source) :
    (left.expression?.isSome ∨ right.expression?.isSome) ∧
      ∃ source first second, arena.SpellsSide source left first ∧
        arena.SpellsSide source right second := by
  cases left with
  | scalar value =>
    cases right with
    | scalar _ => cases accepted
    | expression part =>
      obtain ⟨source, formula, spelled, -⟩ := spells part (List.mem_singleton_self part)
      exact ⟨.inr rfl, source, .scalar value, formula, rfl, spelled⟩
  | expression leftPart =>
    obtain ⟨source, formula, spelled, sourceLeft⟩ := spells leftPart List.mem_cons_self
    cases right with
    | scalar value => exact ⟨.inl rfl, source, formula, .scalar value, spelled, rfl⟩
    | expression rightPart =>
      obtain ⟨sourceToo, formulaToo, spelledToo, sourceRight⟩ :=
        spells rightPart (List.mem_cons_of_mem _ (List.mem_singleton_self rightPart))
      have same : source = sourceToo := by
        by_contra different
        simp [checkSides, Side.expression?, sourceLeft, sourceRight, different, bind, Except.bind,
          throw, throwThe, MonadExceptOf.throw, pure, Except.pure] at accepted
      subst same
      exact ⟨.inl rfl, source, formula, formulaToo, spelled, spelledToo⟩

/-- Every expression of a plan that was built spells out a formula. -/
theorem IsBuilt.spells (built : arena.IsBuilt) {expression : Expression}
    (found : arena.expression id = .ok expression) :
    ∃ source formula, arena.Spells source id formula := by
  induction built generalizing id expression with
  | empty =>
    obtain ⟨node, there, -⟩ := (expression_iff expression).mp found
    cases there
  | adding arena added built accepted inductionHypothesis =>
    have further := Extends.adding arena added
    obtain ⟨node, there, content⟩ := (expression_iff expression).mp found
    rcases found_adding added there with before | ⟨here, rfl⟩
    · obtain ⟨source, formula, spells⟩ :=
        inductionHypothesis ((expression_iff expression).mpr ⟨node, before, content⟩)
      exact ⟨source, formula, spells.grown further⟩
    -- The added node is a leaf or is made of expressions of the plan before it.
    obtain ⟨references, acceptedContent⟩ := check_iff.mp accepted
    rw [Node.references, Node.operands, content] at references
    rw [content] at acceptedContent
    cases expression with
    | column | constant | null | aggregate | rowFunction => exact ⟨_, _, .leaf id _ _ found rfl⟩
    | unary operand operator =>
      obtain ⟨below, foundBelow⟩ :=
        (references (.expression, operand) (List.mem_singleton_self _)).expression
      obtain ⟨source, formula, spells⟩ := inductionHypothesis foundBelow
      exact ⟨source, _, .unary id operand operator formula found (spells.grown further)⟩
    | binary left right operator =>
      obtain ⟨sides, source, first, second, onLeft, onRight⟩ :=
        checkSides_spells acceptedContent fun part member => by
          obtain ⟨below, foundBelow⟩ :=
            (references _ (Expression.part_referred (.binary left right operator) member)).expression
          obtain ⟨source, formula, spells⟩ := inductionHypothesis foundBelow
          exact ⟨source, formula, spells, spells.sourceOf built⟩
      exact ⟨source, _, .ofSides found sides (onLeft.grown further) (onRight.grown further)⟩

/-- The relation below an operator is an earlier node, and its expressions spell out formulas. -/
theorem IsBuilt.operator (built : arena.IsBuilt) {operator : Operator}
    (found : arena.operator id = .ok operator) :
    (∀ input ∈ operator.inputs, input.index < id.index) ∧
      ∀ part ∈ operator.expressions, ∃ source formula, arena.Spells source part formula := by
  obtain ⟨node, there, content⟩ := (operator_iff _).mp found
  have references : node.references =
      operator.inputs.map (.input, ·) ++ operator.expressions.map (.expression, ·) := by
    rw [Node.references, Node.operands, content]
    exact operator.referencesOf_operands
  constructor
  · intro input member
    refine (built.resolves there (.input, input) ?_).1
    rw [references]
    exact List.mem_append_left _ (List.mem_map_of_mem member)
  · intro part member
    obtain ⟨expression, foundPart⟩ := (built.resolves there (.expression, part) (by
      rw [references]
      exact List.mem_append_right _ (List.mem_map_of_mem member))).2.expression
    exact built.spells foundPart

/-- The relations below an operator are earlier operators. -/
theorem IsBuilt.input (built : arena.IsBuilt) {operator : Operator}
    (found : arena.operator id = .ok operator) {input : NodeId} (member : input ∈ operator.inputs) :
    input.index < id.index ∧ ∃ below, arena.operator input = .ok below := by
  obtain ⟨node, there, content⟩ := (operator_iff _).mp found
  have referred : (Role.input, input) ∈ node.references := by
    rw [Node.references, Node.operands, content]
    show _ ∈ Operand.referencesOf operator.operands
    rw [operator.referencesOf_operands]
    exact List.mem_append_left _ (List.mem_map_of_mem member)
  obtain ⟨earlier, resolves⟩ := built.resolves there _ referred
  exact ⟨earlier, resolves.operator (by decide)⟩

/-- Only expressions have a source. -/
theorem sourceOf_expression (answer : arena.sourceOf id = .ok source) :
    ∃ expression, arena.expression id = .ok expression := by
  rw [sourceOf, walkLimit, sourceWithin] at answer
  cases found : arena.expression id with
  | ok expression => exact ⟨expression, rfl⟩
  | error failure =>
    rw [found] at answer
    cases answer

/-- The source that is found for an expression is the one that its leaves name. -/
theorem IsBuilt.spells_sourceOf (built : arena.IsBuilt) (answer : arena.sourceOf id = .ok source) :
    ∃ formula, arena.Spells source id formula := by
  obtain ⟨expression, found⟩ := sourceOf_expression answer
  obtain ⟨sourceToo, formula, spells⟩ := built.spells found
  obtain rfl := Except.ok.inj (answer.symm.trans (spells.sourceOf built))
  exact ⟨formula, spells⟩

/-- What spells a formula has an output. -/
theorem Spells.output (spells : arena.Spells source id formula) :
    ∃ output, arena.output id = .ok output := by
  obtain ⟨expression, found⟩ := spells.expression
  obtain ⟨node, there, -⟩ := (expression_iff _).mp found
  exact ⟨_, (output_iff _).mpr ⟨node, there, rfl⟩⟩

end Arena

end Rankwise
