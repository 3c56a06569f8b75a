import Mathlib.Logic.Relation
import Rankwise.Proofs.WellFormedPlans

/-!
# One source

The source of an expression is found by following its first parts, so it is the source that one of
its leaves names. In a plan that was built it is the source of all of its parts and of all of their
leaves (`Spells.reached`), because a binary expression is accepted exactly if an expression stands
on one of its sides at least and all that stand there are over one source
(`IsBuilt.check_binary_iff`). Clients come to such plans only (`one_source`).
-/

namespace Rankwise

namespace Arena

variable {arena later : Arena} {source id part : NodeId} {formula : Formula} {left right : Side}
  {operator : BinaryOperator}

/-- The plan finds this source for the expression on a side. A scalar is over any source. -/
def HasSource (arena : Arena) (source : NodeId) : Side → Prop
  | .expression part => arena.sourceOf part = .ok source
  | .scalar _ => True

/-- An expression that is made of no others names the source of the expression. -/
theorem Spells.leaf_source (spells : arena.Spells source id formula) {expression : Expression}
    (found : arena.expression id = .ok expression) (none : expression.parts = []) :
    expression.source? = some source := by
  cases expression with
  | unary => cases none
  | binary left right operator =>
    have sides := (spells.of_binary found).1
    cases left <;> cases right <;> simp [Expression.parts, Side.expression?] at none sides
  | column | constant | null | aggregate | rowFunction =>
    exact congrArg some (spells.source?_eq found rfl)

/-- The source of a side lasts when the plan grows. -/
theorem HasSource.grown {side : Side} (held : arena.HasSource source side) (built : arena.IsBuilt)
    (builtLater : later.IsBuilt) (further : later.Extends arena) : later.HasSource source side := by
  cases side with
  | scalar value => trivial
  | expression part =>
    obtain ⟨formula, spells⟩ := built.spells_sourceOf held
    exact (spells.grown further).sourceOf builtLater

/-- A side over a source has this source. -/
theorem SpellsSide.hasSource {side : Side} (spells : arena.SpellsSide source side formula)
    (built : arena.IsBuilt) : arena.HasSource source side := by
  cases side with
  | scalar value => trivial
  | expression part => exact Spells.sourceOf spells built

/-- Sides over one source are accepted, if an expression stands on one of them. -/
theorem checkSides_over (sides : left.expression?.isSome ∨ right.expression?.isSome)
    (heldLeft : arena.HasSource source left) (heldRight : arena.HasSource source right) :
    arena.checkSides left right operator = .ok () := by
  have each : ∀ part ∈ [left, right].filterMap Side.expression?, arena.sourceOf part = .ok source := by
    intro part member
    obtain ⟨side, either, same⟩ := List.mem_filterMap.mp member
    have held : arena.HasSource source side := by
      rcases List.mem_pair.mp either with rfl | rfl
      · exact heldLeft
      · exact heldRight
    cases side with
    | expression other => exact Option.some.inj same ▸ held
    | scalar value => cases same
  have found : ([left, right].filterMap Side.expression?).mapM arena.sourceOf =
      .ok (([left, right].filterMap Side.expression?).map fun _ => source) := mapM_eq_ok each
  rw [checkSides, found]
  cases left with
  | expression leftPart => cases right <;> simp [Side.expression?, bind, Except.bind] <;> rfl
  | scalar value =>
    cases right with
    | expression rightPart => rfl
    | scalar _ => rcases sides with none | none <;> cases none

/-- A binary expression refers to the expressions on its sides. -/
theorem references_binary (output : OutputSchema) {reference : Role × NodeId}
    (member : reference ∈ Node.references ⟨output, .expression (.binary left right operator)⟩) :
    reference.1 = .expression ∧
      (left = .expression reference.2 ∨ right = .expression reference.2) := by
  rcases (Expression.binary left right operator).operands_cases with composed | ⟨_, _, named, _⟩
  · obtain ⟨role, part⟩ := composed reference member
    obtain ⟨side, either, same⟩ := List.mem_filterMap.mp part
    cases side with
    | scalar value => cases same
    | expression named =>
      cases same
      simpa [role, eq_comm] using either
  · cases named

/-- A binary expression is accepted exactly if there is an expression on one of its sides, and the
plan finds one source for all that is there. -/
theorem IsBuilt.check_binary_iff (built : arena.IsBuilt) (output : OutputSchema) :
    arena.check ⟨output, .expression (.binary left right operator)⟩ = .ok () ↔
      (left.expression?.isSome ∨ right.expression?.isSome) ∧
        ∃ source, arena.HasSource source left ∧ arena.HasSource source right := by
  rw [check_iff]
  constructor
  · rintro ⟨references, accepted⟩
    obtain ⟨sides, source, first, second, onLeft, onRight⟩ :=
      checkSides_spells accepted fun part member => by
        obtain ⟨expression, found⟩ := (references _
          (Expression.part_referred (.binary left right operator) member)).expression
        obtain ⟨source, formula, spells⟩ := built.spells found
        exact ⟨source, formula, spells, spells.sourceOf built⟩
    exact ⟨sides, source, onLeft.hasSource built, onRight.hasSource built⟩
  · rintro ⟨sides, source, heldLeft, heldRight⟩
    refine ⟨fun reference member => ?_, checkSides_over sides heldLeft heldRight⟩
    obtain ⟨role, referred⟩ := references_binary output member
    have answer : arena.sourceOf reference.2 = .ok source := by
      rcases referred with rfl | rfl
      · exact heldLeft
      · exact heldRight
    obtain ⟨expression, found⟩ := sourceOf_expression answer
    have resolves := resolves_expression found
    rwa [← role] at resolves

end Arena

/-- What the plan accepts is made. -/
theorem Building.makes_binary_iff {arena : Arena} (output : OutputSchema) (left right : Side)
    (operator : BinaryOperator) :
    (∃ id later, Makes (binary output left right operator) arena id later) ↔
      arena.check ⟨output, .expression (.binary left right operator)⟩ = .ok () := by
  simp [binary, expression, Makes.push_iff]

namespace PlanCall

open Building (Makes)

/-- Over every list of calls: the plan finds a source for each of its expressions, the same for
everything that the expression is made of, and all leaves name it. And a binary expression can be
made exactly if an expression stands on one side at least, and the plan finds one source for all
that stand there. -/
theorem one_source (calls : List PlanCall) :
    (∀ id expression, (grown calls).expression id = .ok expression →
      ∃ source, (grown calls).sourceOf id = .ok source ∧
        ∀ part, Relation.ReflTransGen (grown calls).HasPart id part →
          (grown calls).sourceOf part = .ok source ∧
            ∃ found, (grown calls).expression part = .ok found ∧
              (found.parts = [] → found.source? = some source)) ∧
      ∀ output left right operator,
        (∃ id later, Makes (Building.binary output left right operator) (grown calls) id later) ↔
          (left.expression?.isSome ∨ right.expression?.isSome) ∧
            ∃ source, (grown calls).HasSource source left ∧ (grown calls).HasSource source right := by
  have built := grown_built calls
  refine ⟨fun id expression found => ?_, fun output left right operator =>
    (Building.makes_binary_iff output left right operator).trans (built.check_binary_iff output)⟩
  obtain ⟨source, formula, spells⟩ := built.spells found
  refine ⟨source, spells.sourceOf built, fun part reaches => ?_⟩
  obtain ⟨below, spellsBelow, -⟩ := spells.reached reaches
  obtain ⟨expression, foundBelow⟩ := spellsBelow.expression
  exact ⟨spellsBelow.sourceOf built, expression, foundBelow, spellsBelow.leaf_source foundBelow⟩

end PlanCall

end Rankwise
