import Mathlib.Data.List.Forall2
import Rankwise.Proofs.Formulas

/-!
# Carrying values over

A projection computes each of its rows from one row of the relation below it (`Arena.Computes`), and
does so in one way only (`Computes.unique`). A formula over the projection carries a formula over
the relation below if it has the same value on the computed row (`Arena.Carries`). That is what
makes an expression of the plan the moved form of another one (`Arena.Moves`), and what is asked of
the two sides of a binary expression that were brought together (`Arena.Matches`).
-/

namespace Rankwise

namespace Arena

/-- On a row of its source an expression has this value. The rows of every relation are given, for
aggregates. -/
def Evaluates {ν : Type} (arena : Arena) (meaning : Meaning ν) (tables : NodeId → List (List ν))
    (row : List ν) (id : NodeId) (value : ν) : Prop :=
  ∃ source formula, arena.Spells source id formula ∧
    formula.value meaning (tables source) row = value

/-- From a row of the source a relation computes this row. The source itself passes on its rows, and
a projection of it evaluates its expressions. -/
inductive Computes {ν : Type} (arena : Arena) (meaning : Meaning ν)
    (tables : NodeId → List (List ν)) (source : NodeId) (row : List ν) : NodeId → List ν → Prop
  | same : arena.Computes meaning tables source row source row
  | projection (target : NodeId) (expressions : List NodeId) (computed : List ν)
      (found : arena.operator target = .ok (.projection source expressions))
      (values : List.Forall₂ (arena.Evaluates meaning tables row) expressions computed) :
      arena.Computes meaning tables source row target computed

/-- A relation that passes on rows of the source: the source itself or a projection of it. -/
def PassesOn (arena : Arena) (source target : NodeId) : Prop :=
  source = target ∨ ∃ expressions, arena.operator target = .ok (.projection source expressions)

variable {ν : Type} {arena later last : Arena} {source target id : NodeId} {formula : Formula}
  {meaning : Meaning ν} {tables : NodeId → List (List ν)} {row computed : List ν} {value : ν}

/-- A node that spells a formula evaluates to the value of the formula. -/
theorem Spells.evaluates (spells : arena.Spells source id formula) :
    arena.Evaluates meaning tables row id (formula.value meaning (tables source) row) :=
  ⟨source, formula, spells, rfl⟩

/-- An expression has one value on a row. -/
theorem Evaluates.value_eq (evaluates : arena.Evaluates meaning tables row id value)
    (spells : arena.Spells source id formula) :
    value = formula.value meaning (tables source) row := by
  obtain ⟨sourceToo, formulaToo, spellsToo, rfl⟩ := evaluates
  obtain ⟨rfl, rfl⟩ := spells.unique spellsToo
  rfl

/-- A node evaluates to one value at most. -/
theorem Evaluates.unique {other : ν} (evaluates : arena.Evaluates meaning tables row id value)
    (evaluatesToo : arena.Evaluates meaning tables row id other) : value = other := by
  obtain ⟨source, formula, spells, rfl⟩ := evaluatesToo
  exact evaluates.value_eq spells

/-- No relation is a projection of itself. -/
theorem IsBuilt.not_projection (built : arena.IsBuilt) (expressions : List NodeId) :
    arena.operator source ≠ .ok (.projection source expressions) := by
  intro found
  exact Nat.lt_irrefl _ ((built.operator found).1 source (List.mem_singleton_self source))

/-- A projection computes one row at most for each row. -/
theorem Computes.unique (built : arena.IsBuilt) {other : List ν}
    (computes : arena.Computes meaning tables source row target computed)
    (computesToo : arena.Computes meaning tables source row target other) : computed = other := by
  cases computes with
  | same =>
    cases computesToo with
    | same => rfl
    | projection _ expressions _ found => exact absurd found (built.not_projection expressions)
  | projection _ expressions _ found values =>
    cases computesToo with
    | same => exact absurd found (built.not_projection expressions)
    | projection _ expressionsToo _ foundToo valuesToo =>
      cases Except.ok.inj (found.symm.trans foundToo)
      have unique : Relator.RightUnique (arena.Evaluates meaning tables row) :=
        fun _ _ _ => Evaluates.unique
      exact unique.forall₂ values valuesToo

/-- A relation that passes on rows computes one from every row. -/
theorem PassesOn.computes (passes : arena.PassesOn source target) (built : arena.IsBuilt) :
    ∃ computed, arena.Computes meaning tables source row target computed := by
  obtain rfl | ⟨expressions, found⟩ := passes
  · exact ⟨row, .same⟩
  have values : ∃ computed, List.Forall₂ (arena.Evaluates meaning tables row) expressions computed := by
    have spells := (built.operator found).2
    change ∀ part ∈ expressions, _ at spells
    clear found
    induction expressions with
    | nil => exact ⟨[], .nil⟩
    | cons part rest inductionHypothesis =>
      obtain ⟨⟨source, formula, spelled⟩, others⟩ := List.forall_mem_cons.mp spells
      obtain ⟨computed, values⟩ := inductionHypothesis others
      exact ⟨_, .cons spelled.evaluates values⟩
  obtain ⟨computed, values⟩ := values
  exact ⟨computed, .projection target expressions computed found values⟩

/-- What is passed on is passed on in every extension of the plan. -/
theorem PassesOn.grown (passes : arena.PassesOn source target) (further : later.Extends arena) :
    later.PassesOn source target :=
  passes.imp_right fun ⟨expressions, found⟩ => ⟨expressions, further.operator found⟩

/-- A formula over the target has on every row that the target computes the value that the other
formula has on the row of the source, and so it is however the plan grows. -/
def Carries (arena : Arena) (source target : NodeId) (formula carried : Formula) : Prop :=
  ∀ ⦃later : Arena⦄, later.IsBuilt → later.Extends arena →
    ∀ ⦃ν : Type⦄ ⦃meaning : Meaning ν⦄ ⦃tables : NodeId → List (List ν)⦄ ⦃row computed : List ν⦄,
      later.Computes meaning tables source row target computed →
        carried.value meaning (tables target) computed =
          formula.value meaning (tables source) row

/-- A formula that is carried over is so in every extension of the plan. -/
theorem Carries.grown {carried : Formula} (carriesOver : arena.Carries source target formula carried)
    (further : later.Extends arena) : later.Carries source target formula carried :=
  fun _ built furtherStill => carriesOver built (furtherStill.trans further)

/-- A relation passes on its own rows as they are. -/
theorem carries_same (arena : Arena) (source : NodeId) (formula : Formula) :
    arena.Carries source source formula formula := by
  intro later built _ ν meaning tables row computed computes
  rw [computes.unique built .same]

/-- What was found to be a projection over the source is one. -/
theorem projectionOver?_some {expressions : List NodeId}
    (upon : arena.projectionOver? target source = .ok (some expressions)) :
    arena.operator target = .ok (.projection source expressions) := by
  rw [projectionOver?] at upon
  split at upon
  case h_1 below listed found =>
    split at upon
    case isTrue same =>
      cases upon
      rw [found, same]
    case isFalse => cases upon
  case h_2 => cases upon
  case h_3 =>
    split at upon
    case isTrue => cases upon
    case isFalse => cases upon

/-- The place at which a column is found holds a reference to it. -/
theorem passedOn?_some {index place : Nat} {expressions : List NodeId}
    (passed : arena.passedOn? source index expressions = .ok (some place)) :
    ∃ part, expressions[place]? = some part ∧
      arena.expression part = .ok (.column source index) := by
  induction expressions generalizing place with
  | nil => cases passed
  | cons first rest inductionHypothesis =>
    rw [passedOn?] at passed
    cases found : arena.expression first with
    | error failure =>
      rw [found] at passed
      cases passed
    | ok expression =>
      simp only [found, bind, Except.bind] at passed
      split at passed
      case isTrue same =>
        cases passed
        exact ⟨first, rfl, same ▸ found⟩
      case isFalse =>
        cases further : arena.passedOn? source index rest with
        | error failure =>
          rw [further] at passed
          cases passed
        | ok result =>
          cases result with
          | none =>
            rw [further] at passed
            cases passed
          | some behind =>
            rw [further] at passed
            cases passed
            exact inductionHypothesis further

/-- A column that a projection passes on stands in the rows that it computes. -/
theorem carries_column {index place : Nat} {expressions : List NodeId} (different : source ≠ target)
    (upon : arena.operator target = .ok (.projection source expressions))
    (passed : arena.passedOn? source index expressions = .ok (some place)) :
    arena.Carries source target (.column index) (.column place) := by
  intro later built further ν meaning tables row computed computes
  obtain ⟨part, listed, found⟩ := passedOn?_some passed
  cases computes with
  | same => exact absurd rfl different
  | projection _ expressionsToo _ foundToo values =>
    cases Except.ok.inj ((further.operator upon).symm.trans foundToo)
    have spells : later.Spells source part (.column index) :=
      .leaf part _ _ (further.expression found) rfl
    obtain ⟨inside, same⟩ := List.getElem?_eq_some_iff.mp listed
    have insideToo : place < computed.length := values.length_eq ▸ inside
    have value := values.get inside insideToo
    rw [List.get_eq_getElem, List.get_eq_getElem, same] at value
    have entry := value.value_eq spells
    rw [Formula.value, Formula.entry, List.getElem?_eq_getElem insideToo]
    exact entry

/-- An expression was moved to a target in a plan that has grown: the moved expression is over the
target and has the same output, and on the row that the target computes from a row of the source it
has the value that the expression has there. -/
structure Moves (arena later : Arena) (target id moved : NodeId) : Prop where
  further : later.Extends arena
  source : later.sourceOf moved = .ok target
  output : ∃ output, arena.output id = .ok output ∧ later.output moved = .ok output
  value : ∃ source, arena.sourceOf id = .ok source ∧
    ∀ (ν : Type) (meaning : Meaning ν) (tables : NodeId → List (List ν)) (row : List ν),
      (∃ computed, later.Computes meaning tables source row target computed) ∧
        ∀ computed, later.Computes meaning tables source row target computed →
          ∃ value, arena.Evaluates meaning tables row id value ∧
            later.Evaluates meaning tables computed moved value

/-- The sides of a binary expression were brought over one source: both are expressions that were
moved there, or one of them is no expression and nothing was done. -/
def Matches (arena later : Arena) (left right movedLeft movedRight : Side) : Prop :=
  (∃ target first second movedFirst movedSecond,
    left = .expression first ∧ right = .expression second ∧
      movedLeft = .expression movedFirst ∧ movedRight = .expression movedSecond ∧
      arena.Moves later target first movedFirst ∧ arena.Moves later target second movedSecond) ∨
    (left.expression? = none ∨ right.expression? = none) ∧ movedLeft = left ∧
      movedRight = right ∧ later = arena

/-- An expression whose formula is carried over has been moved, with what it means. -/
theorem Moves.of_carries {moved : NodeId} {carried : Formula} (built : arena.IsBuilt)
    (builtLater : later.IsBuilt) (further : later.Extends arena)
    (spells : arena.Spells source id formula)
    (output : ∃ output, arena.output id = .ok output ∧ later.output moved = .ok output)
    (spellsMoved : later.Spells target moved carried) (passes : later.PassesOn source target)
    (carries : later.Carries source target formula carried) :
    arena.Moves later target id moved := by
  refine ⟨further, spellsMoved.sourceOf builtLater, output, source, spells.sourceOf built, ?_⟩
  intro ν meaning tables row
  refine ⟨passes.computes builtLater, fun computed computes => ?_⟩
  refine ⟨_, spells.evaluates, target, carried, spellsMoved, ?_⟩
  exact carries builtLater (.refl later) computes

/-- An expression that stays where it is was moved to its own source. -/
theorem Moves.stays (built : arena.IsBuilt) (builtLater : later.IsBuilt)
    (further : later.Extends arena) (answer : arena.sourceOf id = .ok source) :
    arena.Moves later source id id := by
  obtain ⟨formula, spells⟩ := built.spells_sourceOf answer
  obtain ⟨output, found⟩ := spells.output
  exact .of_carries built builtLater further spells ⟨output, found, further.output found⟩
    (spells.grown further) (.inl rfl) (later.carries_same source formula)

/-- What was moved out of a plan that had grown was moved out of the plan before, if it was there.
-/
theorem Moves.earlier {middle : Arena} {moved : NodeId} (built : arena.IsBuilt)
    (builtMiddle : middle.IsBuilt) (further : middle.Extends arena)
    (answer : arena.sourceOf id = .ok source) (moves : middle.Moves later target id moved) :
    arena.Moves later target id moved := by
  obtain ⟨formula, spells⟩ := built.spells_sourceOf answer
  obtain ⟨output, found⟩ := spells.output
  obtain ⟨outputToo, foundToo, outputMoved⟩ := moves.output
  obtain rfl := Except.ok.inj ((further.output found).symm.trans foundToo)
  obtain ⟨sourceToo, answerToo, values⟩ := moves.value
  have spellsMiddle := spells.grown further
  obtain rfl := Except.ok.inj ((spellsMiddle.sourceOf builtMiddle).symm.trans answerToo)
  refine ⟨moves.further.trans further, moves.source, ⟨output, found, outputMoved⟩, source, answer, ?_⟩
  intro ν meaning tables row
  obtain ⟨computes, same⟩ := values ν meaning tables row
  refine ⟨computes, fun computed computesThis => ?_⟩
  obtain ⟨value, evaluates, evaluatesMoved⟩ := same computed computesThis
  rw [evaluates.value_eq spellsMiddle] at evaluatesMoved
  exact ⟨_, spells.evaluates, evaluatesMoved⟩

end Arena

end Rankwise
