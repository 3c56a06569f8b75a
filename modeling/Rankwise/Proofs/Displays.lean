import Rankwise.Plan.Explain
import Rankwise.Proofs.Formulas
import Rankwise.Proofs.Traversals

/-!
# Plans that can be shown

In a plan that was built the parts of expressions and the inputs of operators are earlier nodes, so
the short form of every expression can be written (`IsBuilt.text`), and the tree below every
operator (`IsBuilt.displays_operator`). An expression is shown above its source, which need not be
an earlier node; it can be shown if its source is a relation of the plan (`Spells.displays`).
-/

namespace Rankwise

namespace Arena

variable {arena : Arena} {names : LazyNames} {id root source : NodeId} {formula : Formula}

/-- The short form of an expression is made of those of its parts. -/
theorem expressionText_of_parts {expression : Expression} (limit : Nat)
    (found : arena.expression id = .ok expression)
    (parts : ∀ part ∈ expression.parts, ∃ text, arena.expressionTextWithin limit part = .ok text) :
    ∃ text, arena.expressionTextWithin (limit + 1) id = .ok text := by
  rw [expressionTextWithin, found]
  have sides (side : Side) (listed : ∀ part, side = .expression part → part ∈ expression.parts) :
      ∃ text, sideText (arena.expressionTextWithin limit) side = .ok text := by
    cases side with
    | expression part => exact parts part (listed part rfl)
    | scalar value => exact ⟨_, rfl⟩
  cases expression with
  | column | constant | null | aggregate | rowFunction => exact ⟨_, rfl⟩
  | unary operand operator =>
    obtain ⟨text, written⟩ := parts operand (List.mem_singleton_self operand)
    exact ⟨operator.text text, by
      simp only [liftM, monadLift, MonadLift.monadLift, Bind.bind, Except.bind, written]; rfl⟩
  | binary left right operator =>
    obtain ⟨first, writtenLeft⟩ := sides left fun part same => by
      subst same
      exact List.mem_cons_self
    obtain ⟨second, writtenRight⟩ := sides right fun part same => by
      subst same
      exact List.mem_filterMap.mpr
        ⟨.expression part, List.mem_cons_of_mem _ (List.mem_singleton_self _), rfl⟩
    exact ⟨"(" ++ first ++ " " ++ operator.sign ++ " " ++ second ++ ")", by
      simp only [liftM, monadLift, MonadLift.monadLift, Bind.bind, Except.bind, writtenLeft,
        writtenRight]
      rfl⟩

/-- The short form of an expression can be written. The walk goes from an expression to earlier ones
each time. -/
theorem IsBuilt.texts (built : arena.IsBuilt) {expression : Expression}
    (found : arena.expression id = .ok expression) (limit : Nat) (enough : id.index < limit) :
    ∃ text, arena.expressionTextWithin limit id = .ok text := by
  obtain ⟨source, formula, spells⟩ := built.spells found
  induction limit generalizing id expression formula with
  | zero => exact absurd enough (Nat.not_lt_zero _)
  | succ limit inductionHypothesis =>
    refine expressionText_of_parts limit found fun part member => ?_
    obtain ⟨below, spellsPart, -⟩ := spells.part found member
    obtain ⟨expressionPart, foundPart⟩ := spellsPart.expression
    have earlier := built.part_lt found member
    exact inductionHypothesis foundPart (by omega) below spellsPart

/-- Every expression of a plan that was built can be written. -/
theorem IsBuilt.text (built : arena.IsBuilt) {expression : Expression}
    (found : arena.expression id = .ok expression) :
    ∃ text, arena.expressionText id = .ok text := by
  obtain ⟨source, formula, spells⟩ := built.spells found
  have inside := spells.inside
  exact built.texts found _ (by unfold walkLimit; omega)

/-- The line about an operator can be written if its expressions can. -/
theorem operatorEntry_of_texts {operator : Operator}
    (texts : ∀ part ∈ operator.expressions, ∃ text, arena.expressionText part = .ok text) :
    ∃ entry, arena.operatorEntry names operator = .ok entry := by
  cases operator with
  | filter _ predicate =>
    obtain ⟨text, written⟩ := texts predicate (List.mem_singleton_self predicate)
    exact ⟨_, by simp only [operatorEntry, Bind.bind, Except.bind, written]; rfl⟩
  | projection _ expressions | distinct _ expressions | aggregate _ _ expressions =>
    obtain ⟨listed, written⟩ := mapM_isOk texts
    exact ⟨_, by
      simp only [Operator.expressions] at written
      simp only [operatorEntry, Bind.bind, Except.bind, written]
      rfl⟩
  | _ => exact ⟨_, rfl⟩

/-- The lines about a node are the line about itself and those about what stands below it. -/
theorem linesWithin_of_line {entry : Entry} {below : List NodeId} (limit indent : Nat)
    (line : arena.line names id = .ok (entry, below))
    (each : ∀ input ∈ below,
      ∃ lines, arena.linesWithin names limit (indent + 1) input = .ok lines) :
    ∃ lines, arena.linesWithin names (limit + 1) indent id = .ok lines := by
  obtain ⟨lines, further⟩ := mapM_isOk each
  rw [linesWithin, line]
  simp only [Bind.bind, Except.bind, further]
  exact ⟨_, rfl⟩

/-- The line of an operator is its description, above its inputs. -/
theorem line_operator {operator : Operator} {entry : Entry}
    (found : arena.operator id = .ok operator)
    (described : arena.operatorEntry names operator = .ok entry) :
    arena.line names id = .ok (entry, operator.inputs) := by
  obtain ⟨node, there, content⟩ := (operator_iff operator).mp found
  have isExpression : arena.isExpression id = false := by
    rw [isExpression, there, Option.any_some, Node.isExpression, content]
  rw [Arena.line, isExpression, found]
  simp only [Bool.false_eq_true, if_false, liftM, monadLift, MonadLift.monadLift, Bind.bind,
    Except.bind, described]
  rfl

/-- The line of an expression is its text, above its source. -/
theorem line_expression {expression : Expression} {text : String}
    (found : arena.expression id = .ok expression) (written : arena.expressionText id = .ok text)
    (sourced : arena.sourceOf id = .ok source) :
    arena.line names id =
      .ok (({ name := expression.name } : Entry).withValue "expr" text, [source]) := by
  obtain ⟨node, there, content⟩ := (expression_iff expression).mp found
  have isExpression : arena.isExpression id = true := by
    rw [isExpression, there, Option.any_some, Node.isExpression, content]
  rw [Arena.line, isExpression, found]
  simp only [if_true, liftM, monadLift, MonadLift.monadLift, Bind.bind, Except.bind, written, sourced]
  rfl

/-- A plan is shown once the lines about its root are written. -/
theorem display_of_lines
    (lines : ∃ lines, arena.linesWithin names arena.walkLimit 0 root = .ok lines) :
    ∃ text, arena.display names root = .ok text := by
  obtain ⟨lines, written⟩ := lines
  exact ⟨String.join lines, by rw [display, written]; rfl⟩

/-- The tree below an operator can be written. The walk goes from an operator to earlier ones each
time. -/
theorem IsBuilt.lines (built : arena.IsBuilt) {operator : Operator}
    (found : arena.operator id = .ok operator) (limit indent : Nat) (enough : id.index < limit) :
    ∃ lines, arena.linesWithin names limit indent id = .ok lines := by
  induction limit generalizing id operator indent with
  | zero => exact absurd enough (Nat.not_lt_zero _)
  | succ limit inductionHypothesis =>
    obtain ⟨entry, described⟩ := operatorEntry_of_texts fun part member => by
      obtain ⟨source, formula, spells⟩ := (built.operator found).2 part member
      obtain ⟨expression, foundPart⟩ := spells.expression
      exact built.text foundPart
    refine linesWithin_of_line limit indent (line_operator found described) fun input member => ?_
    obtain ⟨earlier, below, foundBelow⟩ := built.input found member
    exact inductionHypothesis foundBelow (indent + 1) (by omega)

/-- An operator can be shown. -/
theorem IsBuilt.displays_operator (built : arena.IsBuilt) (names : LazyNames) {operator : Operator}
    (found : arena.operator root = .ok operator) :
    ∃ text, arena.display names root = .ok text := by
  obtain ⟨node, there, -⟩ := (operator_iff operator).mp found
  have inside : root.index < arena.size := (List.getElem?_eq_some_iff.mp there).1
  exact display_of_lines (built.lines found arena.walkLimit 0 (by unfold walkLimit; omega))

/-- An expression can be shown if its source is a relation of the plan. One step leads to the
source, and from there on the walk goes to earlier nodes. -/
theorem Spells.displays (spells : arena.Spells source root formula) (built : arena.IsBuilt)
    (resolves : arena.Resolves (.source, source)) (names : LazyNames) :
    ∃ text, arena.display names root = .ok text := by
  obtain ⟨expression, found⟩ := spells.expression
  obtain ⟨text, written⟩ := built.text found
  obtain ⟨operator, foundSource⟩ := resolves.operator (by decide)
  have inside : source.index < arena.size := by
    obtain ⟨node, there, -⟩ := resolves
    exact (List.getElem?_eq_some_iff.mp there).1
  refine display_of_lines (linesWithin_of_line (2 * arena.size + 1) 0
    (line_expression found written (spells.sourceOf built)) fun input member => ?_)
  obtain rfl := List.mem_singleton.mp member
  exact built.lines foundSource _ 1 (by omega)

/-- A node that is not there cannot be shown. -/
theorem display_missing (beyond : arena.nodes[root.index]? = none) (names : LazyNames) :
    arena.display names root = .error (.failed (unknownNode root arena.size)) := by
  have isExpression : arena.isExpression root = false := by
    rw [isExpression, beyond, Option.any_none]
  have unknown : arena.operator root = .error (unknownNode root arena.size) := by
    rw [operator, Arena.node, beyond]
    rfl
  rw [display, walkLimit, linesWithin, Arena.line, isExpression, unknown]
  rfl

end Arena

end Rankwise
