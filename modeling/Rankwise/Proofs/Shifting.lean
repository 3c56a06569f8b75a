import Mathlib.Algebra.GroupWithZero.Nat
import Rankwise.Proofs.Movability

/-!
# Which functions can be shifted

The calls to functions within an expression are moved to another relation, all else stays where it
is. So an expression without such calls is over its source as before, and one of which every leaf is
a call to a function of one column is over the new source (`Formula.EndsOver`). Where one part of an
expression is moved and another part stays, no binary expression can hold both, and the plan refuses
it (`makes_shiftFunctionsWithin`). What is moved has the outputs of the given expression, part by
part (`Arena.Mirrors`), and its formula differs in the calls only (`Formula.shifted`).

A binary expression is built again if one of its sides has become another one. The sides are
compared as values, so a side that holds a NaN counts as changed. Hence an expression with such a
side is built again even if nothing in it was moved, and every other one without moved parts is the
answer itself (`Formula.IsFixed`). All of this is said of one step, with what has come of the parts,
and of a whole expression by induction on the limit of the walk (`comes_shiftFunctionsWithin`).

The place of a shifted column is a sum of machine words, and the offset is whatever the caller says.
If all these sums are machine words (`Formula.Fits`), it does not matter how the program was built.
If not, the places start again at zero (`wrapped`), or the walk breaks off at the first sum that is
too large (`breaks_shiftFunctionsWithin`).
-/

namespace Rankwise

/-- A value differs from itself exactly if it is no number. -/
theorem Scalar.equalAsValue_self_iff (value : Scalar) :
    value.equalAsValue value = true ↔ ∀ number, value = .float64 number → number.isNaN = false := by
  cases value with
  | float64 number => simp [equalAsValue, Double.numericallyEqual]
  | null | boolean | int32 | int64 | uint64 | utf8 | timestamp => simp [equalAsValue]

/-- Where a column lies that is shifted without a check: behind the last machine word the places are
counted from zero again. -/
def wrapped (offset column : Nat) : Nat := (column + offset) % 2 ^ 64

/-- The call moved to another relation, with its columns in other places. -/
def RowFunction.shifted (target : NodeId) (place : Nat → Nat) (call : RowFunction) : RowFunction :=
  { call with source := target, columns := call.columns.map place }

namespace Formula

/-- Every leaf is a call to a function of one column. -/
def IsShiftable : Formula → Prop
  | rowFunction call => call.columns.length = 1
  | unary operand _ => operand.IsShiftable
  | binary left right _ => left.IsShiftable ∧ right.IsShiftable
  | scalar _ => True
  | column _ | constant _ | null _ | aggregate _ _ _ => False

/-- Every scalar on a side of a binary expression is equal to itself, as all but a NaN are
(`Scalar.equalAsValue_self_iff`). -/
def IsReflexive : Formula → Prop
  | scalar value => value.equalAsValue value = true
  | unary operand _ => operand.IsReflexive
  | binary left right _ => left.IsReflexive ∧ right.IsReflexive
  | column _ | constant _ | null _ | aggregate _ _ _ | rowFunction _ => True

/-- Every column of a call, shifted by the offset, is a machine word. -/
def Fits (offset : Nat) (formula : Formula) : Prop :=
  ∀ call ∈ formula.calls, ∀ column ∈ call.columns, column + offset < 2 ^ 64

/-- No check of a sum keeps the columns from being shifted. -/
def Adds (overflow : Overflow) (offset : Nat) (formula : Formula) : Prop :=
  overflow = .wraps ∨ formula.Fits offset

/-- The formula with its calls moved to another relation and their columns in other places. -/
def shifted (target : NodeId) (place : Nat → Nat) : Formula → Formula
  | rowFunction call => rowFunction (call.shifted target place)
  | unary operand operator => unary (operand.shifted target place) operator
  | binary left right operator =>
    binary (left.shifted target place) (right.shifted target place) operator
  | column index => column index
  | constant value => constant value
  | null field => null field
  | aggregate function columns skipNulls => aggregate function columns skipNulls
  | scalar value => scalar value

variable {source target last : NodeId} {overflow : Overflow} {offset : Nat} {place : Nat → Nat}
  {formula left right : Formula} {operator : BinaryOperator}

/-- A formula over a source in which nothing is moved to the target. -/
def Stays (source target : NodeId) (formula : Formula) : Prop := source = target ∨ formula.calls = []

/-- Over which relation a formula is when its calls have been moved to the target. Where some of it
is moved and some of it stays, and where a check of a sum forbids the move, there is none. -/
def EndsOver (overflow : Overflow) (offset : Nat) (source target last : NodeId)
    (formula : Formula) : Prop :=
  last = source ∧ formula.Stays source target ∨
    last = target ∧ source ≠ target ∧ formula.IsShiftable ∧ formula.Adds overflow offset

/-- A formula over a source that counts as unchanged when its calls have been moved to the target.
-/
def IsFixed (source target : NodeId) (formula : Formula) : Prop :=
  formula.IsReflexive ∧ formula.Stays source target

/-- What a formula over a source has become when its calls have been moved to the target. -/
def shiftedFrom (source target : NodeId) (offset : Nat) (formula : Formula) : Formula :=
  if source = target then formula else formula.shifted target (wrapped offset)

/-- A call can be shifted exactly if no check of a sum keeps it from being so. -/
theorem adds_call {call : RowFunction} {column : Nat} (single : call.columns = [column]) :
    (rowFunction call).Adds overflow offset ↔
      overflow.add column offset = .ok (wrapped offset column) := by
  have fits_iff : (rowFunction call).Fits offset ↔ column + offset < 2 ^ 64 := by
    simp [Fits, calls, single]
  rw [Adds, fits_iff]
  constructor
  · rintro (rfl | fits)
    · exact Overflow.wraps_add column offset
    · rw [wrapped, Nat.mod_eq_of_lt fits, overflow.add_of_fits fits]
  · intro added
    cases overflow with
    | wraps => exact .inl rfl
    | stops =>
      refine .inr (not_not.mp fun large => ?_)
      cases (Overflow.stops_add large).symm.trans added

/-- The columns of a binary formula fit if those on both sides do. -/
theorem fits_binary :
    (binary left right operator).Fits offset ↔ left.Fits offset ∧ right.Fits offset :=
  List.forall_mem_append

/-- A binary formula passes the check if both sides do. -/
theorem adds_binary :
    (binary left right operator).Adds overflow offset ↔
      left.Adds overflow offset ∧ right.Adds overflow offset := by
  simp only [Adds, fits_binary]
  exact or_and_left

/-- A binary formula stays if both sides do. -/
theorem stays_binary :
    (binary left right operator).Stays source target ↔
      left.Stays source target ∧ right.Stays source target := by
  simp only [Stays, calls, List.append_eq_nil_iff]
  exact or_and_left

/-- A binary formula is unchanged if both sides are. -/
theorem isFixed_binary :
    (binary left right operator).IsFixed source target ↔
      left.IsFixed source target ∧ right.IsFixed source target := by
  simp only [IsFixed, IsReflexive, stays_binary]
  exact and_and_and_comm

/-- A binary formula ends over a relation if both sides end over it. -/
theorem endsOver_binary :
    (binary left right operator).EndsOver overflow offset source target last ↔
      left.EndsOver overflow offset source target last ∧
        right.EndsOver overflow offset source target last := by
  simp only [EndsOver, stays_binary, IsShiftable, adds_binary]
  constructor
  · rintro (⟨same, onLeft, onRight⟩ | ⟨same, different, ⟨onLeft, onRight⟩, addsLeft, addsRight⟩)
    · exact ⟨.inl ⟨same, onLeft⟩, .inl ⟨same, onRight⟩⟩
    · exact ⟨.inr ⟨same, different, onLeft, addsLeft⟩, .inr ⟨same, different, onRight, addsRight⟩⟩
  · rintro ⟨⟨same, onLeft⟩ | ⟨same, different, onLeft, addsLeft⟩,
      ⟨sameToo, onRight⟩ | ⟨sameToo, differentToo, onRight, addsRight⟩⟩
    · exact .inl ⟨same, onLeft, onRight⟩
    · exact absurd (same.symm.trans sameToo) differentToo
    · exact absurd (sameToo.symm.trans same) different
    · exact .inr ⟨same, different, ⟨onLeft, onRight⟩, addsLeft, addsRight⟩

/-- What a unary formula becomes is made of what its operand becomes. -/
@[simp] theorem shiftedFrom_unary (operand : Formula) (operator : UnaryOperator) :
    (unary operand operator).shiftedFrom source target offset =
      unary (operand.shiftedFrom source target offset) operator := by
  unfold shiftedFrom
  split <;> rfl

/-- What a binary formula becomes is made of what its sides become. -/
@[simp] theorem shiftedFrom_binary :
    (binary left right operator).shiftedFrom source target offset =
      binary (left.shiftedFrom source target offset) (right.shiftedFrom source target offset)
        operator := by
  unfold shiftedFrom
  split <;> rfl

/-- Without calls there is nothing to move. -/
theorem shifted_of_no_calls (none : formula.calls = []) :
    formula.shifted target place = formula := by
  induction formula with
  | rowFunction call => cases none
  | unary operand operator inductionHypothesis => rw [shifted, inductionHypothesis none]
  | binary left right operator onLeft onRight =>
    obtain ⟨noneLeft, noneRight⟩ := List.append_eq_nil_iff.mp none
    rw [shifted, onLeft noneLeft, onRight noneRight]
  | column | constant | null | aggregate | scalar => rfl

/-- Where every sum is a machine word, each column lies further on by the offset. -/
theorem shifted_of_fits (fits : formula.Fits offset) :
    formula.shifted target (wrapped offset) = formula.shifted target (· + offset) := by
  induction formula with
  | rowFunction call =>
    have places : call.columns.map (wrapped offset) = call.columns.map (· + offset) :=
      List.map_congr_left fun column listed =>
        Nat.mod_eq_of_lt (fits call List.mem_cons_self column listed)
    rw [shifted, shifted, RowFunction.shifted, RowFunction.shifted, places]
  | unary operand operator inductionHypothesis => rw [shifted, shifted, inductionHypothesis fits]
  | binary left right operator onLeft onRight =>
    obtain ⟨fitsLeft, fitsRight⟩ := fits_binary.mp fits
    rw [shifted, shifted, onLeft fitsLeft, onRight fitsRight]
  | column | constant | null | aggregate | scalar => rfl

/-- A scalar can be over any relation over which something else ends. -/
theorem EndsOver.scalar (ends : formula.EndsOver overflow offset source target last)
    (value : Scalar) : (scalar value).EndsOver overflow offset source target last := by
  rcases ends with ⟨same, -⟩ | ⟨same, different, -⟩
  · exact .inl ⟨same, .inr rfl⟩
  · exact .inr ⟨same, different, trivial, .inr fun _ => nofun⟩

/-- A formula that stays becomes itself. -/
theorem shiftedFrom_of_stays (stays : formula.Stays source target) :
    formula.shiftedFrom source target offset = formula := by
  unfold shiftedFrom
  split
  case isTrue => rfl
  case isFalse different => exact shifted_of_no_calls (stays.resolve_left different)

end Formula

namespace Arena

/-- Two expressions have the same output, and so do the expressions that they are made of, one by
one.
-/
inductive Mirrors (arena : Arena) : NodeId → NodeId → Prop
  | itself (id : NodeId) : arena.Mirrors id id
  | rebuilt (id other : NodeId) (output : OutputSchema) (expression rebuilt : Expression)
      (produces : arena.output id = .ok output) (producesToo : arena.output other = .ok output)
      (found : arena.expression id = .ok expression)
      (foundToo : arena.expression other = .ok rebuilt)
      (parts : expression.parts.length = rebuilt.parts.length)
      (each : ∀ pair ∈ expression.parts.zip rebuilt.parts, arena.Mirrors pair.1 pair.2) :
      arena.Mirrors id other

/-- The same of what stands on the sides of binary expressions. -/
def MirrorsSide (arena : Arena) : Side → Side → Prop
  | .expression part, .expression other => arena.Mirrors part other
  | .scalar value, .scalar other => value = other
  | _, _ => False

variable {arena later : Arena} {source target id other : NodeId} {side : Side} {formula : Formula}

/-- An image is one still when the plan has grown. -/
theorem Mirrors.grown (mirrors : arena.Mirrors id other) (further : later.Extends arena) :
    later.Mirrors id other := by
  induction mirrors with
  | itself id => exact .itself id
  | rebuilt id other output expression rebuilt produces producesToo found foundToo parts _ each =>
    exact .rebuilt id other output expression rebuilt (further.output produces)
      (further.output producesToo) (further.expression found) (further.expression foundToo) parts each

/-- Wherever an expression produces something, its mirror image produces the same. -/
theorem Mirrors.output (mirrors : arena.Mirrors id other) {output : OutputSchema}
    (produces : arena.output id = .ok output) : arena.output other = .ok output := by
  cases mirrors with
  | itself => exact produces
  | rebuilt _ _ outputToo _ _ producesId producesOther =>
    obtain rfl := Except.ok.inj (produces.symm.trans producesId)
    exact producesOther

namespace MirrorsSide

/-- The image of a side is one still when the plan has grown. -/
theorem grown {moved : Side} (mirrors : arena.MirrorsSide side moved)
    (further : later.Extends arena) : later.MirrorsSide side moved := by
  cases side <;> cases moved
  case expression.expression => exact Mirrors.grown mirrors further
  case scalar.scalar => exact mirrors
  all_goals exact mirrors

/-- The image of a scalar is a scalar, and that of an expression an expression. -/
theorem isSome {moved : Side} (mirrors : arena.MirrorsSide side moved) :
    moved.expression?.isSome = side.expression?.isSome := by
  cases side <;> cases moved <;> first | rfl | exact mirrors.elim

/-- A mirror image that is equal as a value is the same side. -/
theorem eq_of_equal {moved : Side} (mirrors : arena.MirrorsSide side moved)
    (equal : moved.equalAsValue side = true) : moved = side := by
  cases side <;> cases moved
  case expression.expression => rw [of_decide_eq_true equal]
  case scalar.scalar => exact congrArg Side.scalar (Eq.symm mirrors)
  all_goals exact mirrors.elim

/-- The parts on mirrored sides are mirrored one by one. -/
theorem parts {left right movedLeft movedRight : Side} (operator : BinaryOperator)
    (onLeft : arena.MirrorsSide left movedLeft) (onRight : arena.MirrorsSide right movedRight) :
    (Expression.binary left right operator).parts.length =
        (Expression.binary movedLeft movedRight operator).parts.length ∧
      ∀ pair ∈ (Expression.binary left right operator).parts.zip
        (Expression.binary movedLeft movedRight operator).parts, arena.Mirrors pair.1 pair.2 := by
  cases left <;> cases movedLeft <;> cases right <;> cases movedRight <;>
    simp_all [MirrorsSide, Expression.parts, Side.expression?, List.filterMap_cons]

end MirrorsSide

/-- A call over the target may be added to a plan that has this relation. -/
theorem check_rowFunction (output : OutputSchema) {call : RowFunction}
    (relation : arena.Resolves (.source, call.source)) :
    arena.check ⟨output, .expression (.rowFunction call)⟩ = .ok () := by
  refine check_iff.mpr ⟨fun reference member => ?_, rfl⟩
  have none : Operand.referencesOf (call.arguments.map Operand.scalar) = [] :=
    Operand.referencesOf_eq_nil (by simp [Operand.references])
  have only : reference = (.source, call.source) := by
    simpa [Node.references, Node.operands, Expression.operands, Operand.references, none] using member
  exact only ▸ relation

end Arena

namespace Building

variable {arena later middle : Arena} {source target last id : NodeId} {overflow : Overflow}
  {offset : Nat} {formula : Formula} {fixed : Prop}

/-- What has come of an expression: its image in the plan that has grown. The expression itself is
the answer, and nothing was added, if it counts as unchanged. Otherwise the answer is a new node. -/
structure Imaged (arena : Arena) (id last : NodeId) (formula : Formula) (fixed : Prop)
    (moved : NodeId) (later : Arena) : Prop where
  further : later.Extends arena
  built : later.IsBuilt
  spells : later.Spells last moved formula
  mirrors : later.Mirrors id moved
  same : fixed → moved = id ∧ later = arena
  fresh : ¬ fixed → arena.size ≤ moved.index

/-- What has come of a side of a binary expression. -/
structure SideImaged (arena : Arena) (side : Side) (last : NodeId) (formula : Formula) (fixed : Prop)
    (moved : Side) (later : Arena) : Prop where
  further : later.Extends arena
  built : later.IsBuilt
  spells : later.SpellsSide last moved formula
  mirrors : later.MirrorsSide side moved
  equal : moved.equalAsValue side = true ↔ fixed
  same : fixed → later = arena

/-- An expression that stays is its own image. -/
theorem Imaged.itself (built : arena.IsBuilt) (spells : arena.Spells last id formula)
    (unchanged : fixed) : Imaged arena id last formula fixed id arena where
  further := .refl arena
  built
  spells
  mirrors := .itself id
  same _ := ⟨rfl, rfl⟩
  fresh changed := absurd unchanged changed

/-- An expression that the plan accepts becomes the image of another one. -/
theorem comes_image {output : OutputSchema} {expression turned : Expression}
    (built : middle.IsBuilt) (further : middle.Extends arena)
    (produces : arena.output id = .ok output) (found : arena.expression id = .ok expression)
    (accepted : middle.check ⟨output, .expression turned⟩ = .ok ())
    (spells : ∀ (later : Arena) (moved : NodeId), later.Extends middle →
      later.expression moved = .ok turned → later.Spells last moved formula)
    (parts : expression.parts.length = turned.parts.length)
    (each : ∀ pair ∈ expression.parts.zip turned.parts, middle.Mirrors pair.1 pair.2)
    (changed : ¬ fixed) :
    Comes (Building.expression output turned) middle (Imaged arena id last formula fixed) := by
  have made : Makes (Building.expression output turned) middle ⟨middle.size⟩
      (middle.adding ⟨output, .expression turned⟩) := (Makes.push_iff _ _).mpr ⟨accepted, rfl, rfl⟩
  obtain ⟨grown, added, producesToo⟩ := makes_expression made
  have all := grown.trans further
  exact ⟨_, _, made, {
    further := all
    built := .adding middle _ built accepted
    spells := spells _ _ grown added
    mirrors := .rebuilt id _ output expression turned (all.output produces) producesToo
      (all.expression found) added parts fun pair member => (each pair member).grown grown
    same := fun unchanged => absurd unchanged changed
    fresh := fun _ => further.length_le }⟩

/-- A side comes to its image if the expression does that stands there. -/
theorem comes_shiftSide {move : NodeId → Building NodeId} {side : Side} (built : arena.IsBuilt)
    (spells : arena.SpellsSide source side formula)
    (each : ∀ part, side = .expression part → arena.Spells source part formula →
      Comes (move part) arena (Imaged arena part last (formula.shiftedFrom source target offset)
        (formula.IsFixed source target))) :
    Comes (shiftSide move side) arena (SideImaged arena side last
      (formula.shiftedFrom source target offset) (formula.IsFixed source target)) := by
  cases side with
  | expression part =>
    obtain ⟨moved, later, made, image⟩ := each part rfl spells
    refine .bind made (.pure ⟨image.further, image.built, image.spells, image.mirrors, ?_,
      fun unchanged => (image.same unchanged).2⟩)
    have inside : part.index < arena.size := Arena.Spells.inside spells
    rw [Side.equalAsValue, decide_eq_true_iff]
    constructor
    · rintro rfl
      by_contra changed
      exact absurd (image.fresh changed) (Nat.not_le.mpr inside)
    · exact fun unchanged => (image.same unchanged).1
  | scalar value =>
    obtain rfl : formula = .scalar value := spells
    refine .pure ⟨.refl arena, built, ?_, rfl, ?_, fun _ => rfl⟩
    · exact Formula.shiftedFrom_of_stays (.inr rfl)
    · exact ⟨fun equal => ⟨equal, .inr rfl⟩, fun unchanged => unchanged.1⟩

/-- An operation is built again exactly if its operand was. -/
theorem comes_shifted_unary {operand : NodeId} {operator : UnaryOperator} {output : OutputSchema}
    {move : Building NodeId} (produces : arena.output id = .ok output)
    (found : arena.expression id = .ok (.unary operand operator))
    (inside : operand.index < arena.size)
    (moves : Comes move arena (Imaged arena operand last formula fixed)) :
    Comes (do
      let moved ← move
      if moved = operand then return id
      unary output moved operator) arena (Imaged arena id last (.unary formula operator) fixed) := by
  obtain ⟨moved, later, made, image⟩ := moves
  refine .bind made ?_
  by_cases unchanged : fixed
  · obtain ⟨rfl, rfl⟩ := image.same unchanged
    rw [if_pos rfl]
    exact .pure (.itself image.built (.unary id moved operator formula found image.spells) unchanged)
  · have different : moved ≠ operand := by
      rintro rfl
      exact absurd (image.fresh unchanged) (Nat.not_le.mpr inside)
    obtain ⟨expression, there⟩ := image.spells.expression
    rw [if_neg different]
    refine comes_image image.built image.further produces found
      (Arena.check_iff.mpr ⟨fun reference member => ?_, rfl⟩)
      (fun _ other grown added => .unary other moved operator formula added (image.spells.grown grown))
      rfl (fun pair member => ?_) unchanged
    · exact List.mem_singleton.mp member ▸ Arena.resolves_expression there
    · exact List.mem_singleton.mp member ▸ image.mirrors

/-- An operation is built again exactly if one of its sides was, or holds what differs from itself.
The right side is moved in the plan that the left one left behind. -/
theorem comes_shifted_binary {left right : Side} {operator : BinaryOperator} {output : OutputSchema}
    {first second : Formula} {fixedLeft fixedRight : Prop} {onLeft onRight : Building Side}
    (produces : arena.output id = .ok output)
    (found : arena.expression id = .ok (.binary left right operator))
    (sides : left.expression?.isSome ∨ right.expression?.isSome)
    (moves : Comes onLeft arena fun movedLeft middle =>
      SideImaged arena left last first fixedLeft movedLeft middle ∧
        Comes onRight middle (SideImaged middle right last second fixedRight)) :
    Comes (do
      let movedLeft ← onLeft
      let movedRight ← onRight
      if movedLeft.equalAsValue left && movedRight.equalAsValue right then return id
      binary output movedLeft movedRight operator) arena
      (Imaged arena id last (.binary first second operator) (fixedLeft ∧ fixedRight)) := by
  obtain ⟨movedLeft, middle, madeLeft, imageLeft, movedRight, later, madeRight, imageRight⟩ := moves
  refine .bind madeLeft (.bind madeRight ?_)
  have further := imageRight.further.trans imageLeft.further
  have spellsLeft := imageLeft.spells.grown imageRight.further
  -- Compared by their values, the sides are the same if nothing in them has changed. A NaN always
  -- has.
  by_cases unchanged : fixedLeft ∧ fixedRight
  · have equalLeft := imageLeft.equal.mpr unchanged.1
    have equalRight := imageRight.equal.mpr unchanged.2
    obtain rfl := imageLeft.mirrors.eq_of_equal equalLeft
    obtain rfl := imageRight.mirrors.eq_of_equal equalRight
    obtain rfl := imageLeft.same unchanged.1
    obtain rfl := imageRight.same unchanged.2
    rw [if_pos (by rw [equalLeft, equalRight]; rfl)]
    exact .pure (.itself imageRight.built (.ofSides found sides spellsLeft imageRight.spells)
      unchanged)
  · have changed : ¬ (movedLeft.equalAsValue left && movedRight.equalAsValue right) = true := by
      rwa [Bool.and_eq_true, imageLeft.equal, imageRight.equal]
    have moved : movedLeft.expression?.isSome ∨ movedRight.expression?.isSome := by
      rwa [imageLeft.mirrors.isSome, imageRight.mirrors.isSome]
    obtain ⟨parts, each⟩ :=
      (imageLeft.mirrors.grown imageRight.further).parts operator imageRight.mirrors
    rw [if_neg changed]
    exact comes_image imageRight.built further produces found
      ((imageRight.built.check_binary_iff output).mpr ⟨moved, last,
        spellsLeft.hasSource imageRight.built, imageRight.spells.hasSource imageRight.built⟩)
      (fun _ other grown added => .ofSides added moved (spellsLeft.grown grown)
        (imageRight.spells.grown grown)) parts each unchanged

/-- What is no call to be moved and has no parts stays over its source. -/
theorem comes_stays (built : arena.IsBuilt) (spells : arena.Spells source id formula)
    (ends : formula.EndsOver overflow offset source target last) (reflexive : formula.IsReflexive)
    (calm : formula.Stays source target) (unshiftable : source = target ∨ ¬ formula.IsShiftable) :
    Comes (pure id) arena (Imaged arena id last (formula.shiftedFrom source target offset)
      (formula.IsFixed source target)) := by
  rcases ends with ⟨rfl, -⟩ | ⟨-, different, shiftable⟩
  · rw [Formula.shiftedFrom_of_stays calm]
    exact .pure (.itself built spells ⟨reflexive, calm⟩)
  · exact absurd shiftable.1 (unshiftable.resolve_left different)

/-- A call of one column is made again over another relation, in which its column lies further on.
-/
theorem comes_shifted_call {call : RowFunction} {output : OutputSchema} (built : arena.IsBuilt)
    (relation : arena.Resolves (.source, target)) (produces : arena.output id = .ok output)
    (found : arena.expression id = .ok (.rowFunction call))
    (ends : (Formula.rowFunction call).EndsOver overflow offset call.source target last)
    (different : call.source ≠ target) :
    Comes (match call.columns with
      | [column] => do
        let moved ← overflow.add column offset
        expression output (.rowFunction { call with source := target, columns := [moved] })
      | _ => throw (.failed (notOneColumn call))) arena
      (Imaged arena id last ((Formula.rowFunction call).shiftedFrom call.source target offset)
        ((Formula.rowFunction call).IsFixed call.source target)) := by
  rcases ends with ⟨-, again | none⟩ | ⟨rfl, -, one, adds⟩
  · exact absurd again different
  · cases none
  · obtain ⟨column, single⟩ := List.length_eq_one_iff.mp one
    have turned : Formula.shiftedFrom call.source last offset (.rowFunction call) =
        .rowFunction { call with source := last, columns := [wrapped offset column] } := by
      rw [Formula.shiftedFrom, if_neg different, Formula.shifted, RowFunction.shifted, single]
      rfl
    rw [turned, single]
    refine .ask ((Formula.adds_call single).mp adds) ?_
    refine comes_image built (.refl arena) produces found (Arena.check_rowFunction output relation)
      (fun _ moved _ added => .leaf moved _ _ added rfl) rfl (by simp [Expression.parts]) ?_
    rintro ⟨-, again | none⟩
    · exact different again
    · cases none

/-- If all of an expression is moved or none of it is, then shifting its functions comes to an end,
with the image that is over the relation where it ends. -/
theorem comes_shiftFunctionsWithin (limit : Nat) (built : arena.IsBuilt)
    (relation : arena.Resolves (.source, target)) (spells : arena.Spells source id formula)
    (ends : formula.EndsOver overflow offset source target last) (enough : id.index < limit) :
    Comes (shiftFunctionsWithin overflow target offset limit id) arena
      (Imaged arena id last (formula.shiftedFrom source target offset)
        (formula.IsFixed source target)) := by
  induction limit generalizing arena id formula with
  | zero => omega
  | succ limit inductionHypothesis =>
    obtain ⟨expression, found⟩ := spells.expression
    obtain ⟨output, produces⟩ := spells.output
    have earlier {part : NodeId} (member : part ∈ expression.parts) : part.index < limit :=
      Nat.lt_of_lt_of_le (built.part_lt found member) (Nat.le_of_lt_succ enough)
    rw [shiftFunctionsWithin]
    refine .get (.look produces (.look found ?_))
    cases expression with
    | rowFunction call =>
      cases spells.of_leaf found rfl
      dsimp only
      split
      case isTrue same => exact comes_stays built spells ends trivial (.inl same) (.inl same)
      case isFalse different =>
        exact comes_shifted_call built relation produces found ends different
    | unary operand operator =>
      obtain ⟨below, spellsBelow, rfl⟩ := spells.of_unary found
      rw [Formula.shiftedFrom_unary]
      exact comes_shifted_unary produces found spellsBelow.inside
        (inductionHypothesis built relation spellsBelow ends
          (earlier (List.mem_singleton_self operand)))
    | binary left right operator =>
      obtain ⟨sides, first, second, onLeft, onRight, rfl⟩ := spells.of_binary found
      obtain ⟨endsLeft, endsRight⟩ := Formula.endsOver_binary.mp ends
      rw [Formula.shiftedFrom_binary, Formula.isFixed_binary]
      obtain ⟨movedLeft, middle, madeLeft, imageLeft⟩ := comes_shiftSide built onLeft
        fun part same spells => inductionHypothesis built relation spells endsLeft
          (earlier (Expression.left_part (same ▸ rfl)))
      refine comes_shifted_binary produces found sides ⟨movedLeft, middle, madeLeft, imageLeft, ?_⟩
      exact comes_shiftSide imageLeft.built (onRight.grown imageLeft.further)
        fun part same spells => inductionHypothesis imageLeft.built
          (imageLeft.further.resolves relation) spells endsRight
          (earlier (Expression.right_part (same ▸ rfl)))
    | column | constant | null | aggregate =>
      cases spells.of_leaf found rfl
      exact comes_stays built spells ends trivial (.inr rfl) (.inr not_false)

/-- Sides that were moved one after the other are over one relation if the plan holds them in a
binary expression, the given one or a new one. -/
theorem ends_together {left right movedLeft movedRight : Side} {operator : BinaryOperator}
    {output : OutputSchema} {first second firstMoved secondMoved : Formula} {lastLeft lastRight : NodeId}
    {fixedLeft fixedRight : Prop} {moved : NodeId} {final : Arena}
    (onLeft : arena.SpellsSide source left first) (onRight : arena.SpellsSide source right second)
    (endsLeft : first.EndsOver overflow offset source target lastLeft)
    (endsRight : second.EndsOver overflow offset source target lastRight)
    (imageLeft : SideImaged arena left lastLeft firstMoved fixedLeft movedLeft middle)
    (imageRight : SideImaged middle right lastRight secondMoved fixedRight movedRight later)
    (made : Makes (do
      if movedLeft.equalAsValue left && movedRight.equalAsValue right then return id
      binary output movedLeft movedRight operator) later moved final) :
    ∃ last, first.EndsOver overflow offset source target last ∧
      second.EndsOver overflow offset source target last := by
  have further := imageRight.further.trans imageLeft.further
  cases left with
  | scalar value =>
    obtain rfl : first = .scalar value := onLeft
    exact ⟨lastRight, endsRight.scalar value, endsRight⟩
  | expression part =>
    cases right with
    | scalar value =>
      obtain rfl : second = .scalar value := onRight
      exact ⟨lastLeft, endsLeft, endsLeft.scalar value⟩
    | expression other =>
      -- The sides are the given ones, over the source, or the plan has accepted them together.
      have same : lastLeft = lastRight := by
        split at made
        case isTrue unchanged =>
          obtain ⟨equalLeft, equalRight⟩ := (Bool.and_eq_true _ _).mp unchanged
          obtain rfl := imageLeft.mirrors.eq_of_equal equalLeft
          obtain rfl := imageRight.mirrors.eq_of_equal equalRight
          obtain ⟨rfl, -⟩ := (onLeft.grown imageLeft.further).unique imageLeft.spells
          exact ((onRight.grown further).unique imageRight.spells).1
        case isFalse =>
          obtain ⟨-, relation, heldLeft, heldRight⟩ := (imageRight.built.check_binary_iff output).mp
            ((Makes.push_iff _ _).mp made).1
          have foundLeft := (imageLeft.spells.grown imageRight.further).hasSource imageRight.built
          have foundRight := imageRight.spells.hasSource imageRight.built
          cases movedLeft with
          | scalar value => exact imageLeft.mirrors.elim
          | expression =>
            cases movedRight with
            | scalar value => exact imageRight.mirrors.elim
            | expression =>
              obtain rfl := Except.ok.inj (foundLeft.symm.trans heldLeft)
              exact Except.ok.inj (heldRight.symm.trans foundRight)
      exact ⟨lastLeft, endsLeft, same ▸ endsRight⟩

/-- What has come of a side that was moved, if every expression there ends over some relation. -/
theorem image_of_side {limit : Nat} {side moved : Side} (built : arena.IsBuilt)
    (relation : arena.Resolves (.source, target)) (spells : arena.SpellsSide source side formula)
    (enough : ∀ part, side = .expression part → part.index < limit)
    (ends : ∀ part moved later, side = .expression part → arena.Spells source part formula →
      Makes (shiftFunctionsWithin overflow target offset limit part) arena moved later →
        ∃ last, formula.EndsOver overflow offset source target last)
    (made : Makes (shiftSide (shiftFunctionsWithin overflow target offset limit) side) arena moved
      later) :
    ∃ last, formula.EndsOver overflow offset source target last ∧
      SideImaged arena side last (formula.shiftedFrom source target offset)
        (formula.IsFixed source target) moved later := by
  obtain ⟨last, endsOver⟩ : ∃ last, formula.EndsOver overflow offset source target last := by
    cases side with
    | expression part =>
      obtain ⟨_, _, madePart, -⟩ := (Makes.bind_iff _ _ _).mp made
      exact ends part _ _ rfl spells madePart
    | scalar value =>
      obtain rfl : formula = .scalar value := spells
      exact ⟨source, .inl ⟨rfl, .inr rfl⟩⟩
  obtain ⟨_, _, madeToo, image⟩ := comes_shiftSide built spells fun part same spells =>
    comes_shiftFunctionsWithin limit built relation spells endsOver (enough part same)
  obtain ⟨rfl, rfl⟩ := made.unique madeToo
  exact ⟨last, endsOver, image⟩

/-- If shifting the functions of an expression came to an end within the limit, all of it was moved
or none of it. A binary expression of which one side was moved and the other was not has been
refused. -/
theorem makes_shiftFunctionsWithin (limit : Nat) (built : arena.IsBuilt)
    (relation : arena.Resolves (.source, target)) (spells : arena.Spells source id formula)
    (enough : id.index < limit) {moved : NodeId}
    (made : Makes (shiftFunctionsWithin overflow target offset limit id) arena moved later) :
    ∃ last, formula.EndsOver overflow offset source target last := by
  induction limit generalizing arena id formula moved later with
  | zero => omega
  | succ limit inductionHypothesis =>
    obtain ⟨expression, found⟩ := spells.expression
    obtain ⟨output, produces⟩ := spells.output
    have earlier {part : NodeId} (member : part ∈ expression.parts) : part.index < limit :=
      Nat.lt_of_lt_of_le (built.part_lt found member) (Nat.le_of_lt_succ enough)
    rw [shiftFunctionsWithin] at made
    replace made := (Makes.bindGet_iff _ _).mp made
    obtain ⟨_, -, made⟩ := (Makes.bindLook_iff _ _ _).mp made
    obtain ⟨_, foundToo, made⟩ := (Makes.bindLook_iff _ _ _).mp made
    obtain rfl := Except.ok.inj (found.symm.trans foundToo)
    cases expression with
    | rowFunction call =>
      cases spells.of_leaf found rfl
      dsimp only at made
      split at made
      case isTrue same => exact ⟨call.source, .inl ⟨rfl, .inl same⟩⟩
      case isFalse different =>
        split at made
        case h_1 column single =>
          obtain ⟨sum, added, -⟩ := (Makes.bindAsk_iff _ _ _).mp made
          obtain rfl := Overflow.add_eq_ok added
          refine ⟨target, .inr ⟨rfl, different, ?_, (Formula.adds_call single).mpr added⟩⟩
          rw [Formula.IsShiftable, single]
          rfl
        case h_2 => cases made
    | unary operand operator =>
      obtain ⟨below, spellsBelow, rfl⟩ := spells.of_unary found
      obtain ⟨_, _, madeBelow, -⟩ := (Makes.bind_iff _ _ _).mp made
      have ends : ∃ last, below.EndsOver overflow offset source target last :=
        inductionHypothesis built relation spellsBelow (earlier (List.mem_singleton_self operand))
          madeBelow
      exact ends
    -- The image of the left side has only added nodes, so the right side is the formula that it
    -- was.
    | binary left right operator =>
      obtain ⟨sides, first, second, onLeft, onRight, rfl⟩ := spells.of_binary found
      obtain ⟨movedLeft, middle, madeLeft, made⟩ := (Makes.bind_iff _ _ _).mp made
      obtain ⟨movedRight, final, madeRight, made⟩ := (Makes.bind_iff _ _ _).mp made
      obtain ⟨lastLeft, endsLeft, imageLeft⟩ := image_of_side built relation onLeft
        (fun part same => earlier (Expression.left_part (same ▸ rfl)))
        (fun part _ _ same spells => inductionHypothesis built relation spells
          (earlier (Expression.left_part (same ▸ rfl)))) madeLeft
      have further := imageLeft.further
      obtain ⟨lastRight, endsRight, imageRight⟩ := image_of_side imageLeft.built
        (further.resolves relation) (onRight.grown further)
        (fun part same => earlier (Expression.right_part (same ▸ rfl)))
        (fun part _ _ same spells => inductionHypothesis imageLeft.built (further.resolves relation)
          spells (earlier (Expression.right_part (same ▸ rfl)))) madeRight
      obtain ⟨last, ends⟩ :=
        ends_together onLeft onRight endsLeft endsRight imageLeft imageRight made
      exact ⟨last, Formula.endsOver_binary.mpr ends⟩
    | column | constant | null | aggregate =>
      cases spells.of_leaf found rfl
      exact ⟨source, .inl ⟨rfl, .inr rfl⟩⟩

/-! Where sums are checked, the first one that is too large ends everything. -/

/-- Building breaks off at a sum that is too large. -/
def Breaks {α : Type} (building : Building α) (arena : Arena) : Prop :=
  (building.run.run arena).1 = .error .overflow

namespace Breaks

variable {α β : Type} {first : Building α} {next : α → Building β}

/-- What breaks off at first breaks off. -/
theorem bind (breaks : Breaks first arena) : Breaks (first >>= next) arena := by
  rw [Breaks] at breaks
  rw [Breaks, run_bind]
  cases ran : first.run.run arena with
  | mk answer middle =>
    rw [ran] at breaks
    obtain rfl : answer = .error .overflow := breaks
    rfl

/-- What comes first is made, and what follows breaks off. -/
theorem behind {value : α} (made : Makes first arena value middle)
    (breaks : Breaks (next value) middle) : Breaks (first >>= next) arena := by
  rw [Breaks, run_bind, show first.run.run arena = (.ok value, middle) from made]
  exact breaks

/-- To look at the plan does not keep anything from breaking off. -/
theorem get {next : Arena → Building β} (breaks : Breaks (next arena) arena) :
    Breaks (get >>= next) arena := breaks

/-- Nor does it to look something up that is there. -/
theorem look {found : Except Failure α} {value : α} (there : found = .ok value)
    (breaks : Breaks (next value) arena) : Breaks (liftM found >>= next) arena := by
  subst there
  exact breaks

end Breaks

/-- A side breaks off if the expression does that stands there. A scalar has no calls. -/
theorem breaks_shiftSide {move : NodeId → Building NodeId} {side : Side}
    (spells : arena.SpellsSide source side formula) (large : ¬ formula.Fits offset)
    (each : ∀ part, side = .expression part → arena.Spells source part formula →
      Breaks (move part) arena) : Breaks (shiftSide move side) arena := by
  cases side with
  | expression part => exact (each part rfl spells).bind
  | scalar value =>
    obtain rfl : formula = .scalar value := spells
    exact absurd (fun _ => nofun) large

/-- If every leaf is a call to a function of one column, then all of them are moved one after the
other until a column would lie too far on. The plan has refused nothing before. -/
theorem breaks_shiftFunctionsWithin (limit : Nat) (built : arena.IsBuilt)
    (relation : arena.Resolves (.source, target)) (spells : arena.Spells source id formula)
    (different : source ≠ target) (shiftable : formula.IsShiftable) (large : ¬ formula.Fits offset)
    (enough : id.index < limit) :
    Breaks (shiftFunctionsWithin .stops target offset limit id) arena := by
  induction limit generalizing arena id formula with
  | zero => omega
  | succ limit inductionHypothesis =>
    obtain ⟨expression, found⟩ := spells.expression
    obtain ⟨output, produces⟩ := spells.output
    have earlier {part : NodeId} (member : part ∈ expression.parts) : part.index < limit :=
      Nat.lt_of_lt_of_le (built.part_lt found member) (Nat.le_of_lt_succ enough)
    rw [shiftFunctionsWithin]
    refine .get (.look produces (.look found ?_))
    cases expression with
    | rowFunction call =>
      cases spells.of_leaf found rfl
      obtain ⟨column, single⟩ := List.length_eq_one_iff.mp shiftable
      have beyond : ¬ column + offset < 2 ^ 64 := fun fits => large <| by
        simpa [Formula.Fits, Formula.calls, single] using fits
      dsimp only
      rw [if_neg different, single]
      refine Breaks.bind (?_ : Breaks (liftM (Overflow.stops.add column offset)) arena)
      rw [Overflow.stops_add beyond]
      rfl
    | unary operand operator =>
      obtain ⟨below, spellsBelow, rfl⟩ := spells.of_unary found
      exact (inductionHypothesis built relation spellsBelow shiftable large
        (earlier (List.mem_singleton_self operand))).bind
    | binary left right operator =>
      obtain ⟨-, first, second, onLeft, onRight, rfl⟩ := spells.of_binary found
      obtain ⟨shiftableLeft, shiftableRight⟩ := shiftable
      by_cases fits : first.Fits offset
      · -- All of the left side is moved, so it is the right side that breaks off.
        have ends : first.EndsOver .stops offset source target target :=
          .inr ⟨rfl, different, shiftableLeft, .inr fits⟩
        obtain ⟨movedLeft, middle, madeLeft, imageLeft⟩ := comes_shiftSide built onLeft
          fun part same spells => comes_shiftFunctionsWithin limit built relation spells ends
            (earlier (Expression.left_part (same ▸ rfl)))
        have largeRight : ¬ second.Fits offset := fun fitsRight =>
          large (Formula.fits_binary.mpr ⟨fits, fitsRight⟩)
        exact .behind madeLeft (Breaks.bind (breaks_shiftSide (onRight.grown imageLeft.further)
          largeRight fun part same spells => inductionHypothesis imageLeft.built
            (imageLeft.further.resolves relation) spells shiftableRight largeRight
            (earlier (Expression.right_part (same ▸ rfl)))))
      · exact Breaks.bind (breaks_shiftSide onLeft fits fun part same spells =>
          inductionHypothesis built relation spells shiftableLeft fits
            (earlier (Expression.left_part (same ▸ rfl))))
    | column | constant | null | aggregate =>
      cases spells.of_leaf found rfl
      exact shiftable.elim

/-- Shifting breaks off at a sum only if some column of the expression would lie too far on. -/
theorem not_fits_of_overflows (spells : arena.Spells source id formula)
    (overflows : arena.Overflows offset id) : ¬ formula.Fits offset := by
  obtain ⟨part, call, column, reaches, found, listed, large⟩ := overflows
  obtain ⟨below, spellsBelow, within⟩ := spells.reached reaches
  cases spellsBelow.of_leaf found rfl
  exact fun fits => large (fits call (within List.mem_cons_self) column listed)

/-- Shifting the functions of an expression comes to an end if all of it is moved or none of it. -/
theorem comes_shiftFunctions (built : arena.IsBuilt) (relation : arena.Resolves (.source, target))
    (spells : arena.Spells source id formula)
    (ends : formula.EndsOver overflow offset source target last) :
    Comes (shiftFunctions overflow id target offset) arena
      (Imaged arena id last (formula.shiftedFrom source target offset)
        (formula.IsFixed source target)) := by
  obtain ⟨expression, found⟩ := spells.expression
  exact .get (comes_shiftFunctionsWithin _ built relation spells ends (Careful.enough_walkLimit found))

/-- If shifting the functions of an expression has come to an end, all of it was moved or none of
it. -/
theorem makes_shiftFunctions (built : arena.IsBuilt) (relation : arena.Resolves (.source, target))
    (spells : arena.Spells source id formula) {moved : NodeId}
    (made : Makes (shiftFunctions overflow id target offset) arena moved later) :
    ∃ last, formula.EndsOver overflow offset source target last := by
  obtain ⟨expression, found⟩ := spells.expression
  replace made := (Makes.bindGet_iff _ _).mp made
  exact makes_shiftFunctionsWithin _ built relation spells (Careful.enough_walkLimit found) made

/-- Shifting the functions of an expression breaks off if all of it is to be moved and some column
would lie too far on. -/
theorem breaks_shiftFunctions (built : arena.IsBuilt) (relation : arena.Resolves (.source, target))
    (spells : arena.Spells source id formula) (different : source ≠ target)
    (shiftable : formula.IsShiftable) (large : ¬ formula.Fits offset) :
    Breaks (shiftFunctions .stops id target offset) arena := by
  obtain ⟨expression, found⟩ := spells.expression
  exact .get (breaks_shiftFunctionsWithin _ built relation spells different shiftable large
    (Careful.enough_walkLimit found))

/-- An image is the expression itself, in the same plan, exactly if it counts as unchanged. -/
theorem Imaged.itself_iff {moved : NodeId} (image : Imaged arena id last formula fixed moved later)
    (inside : id.index < arena.size) : (moved = id ↔ fixed) ∧ (later = arena ↔ fixed) := by
  refine ⟨⟨?_, fun unchanged => (image.same unchanged).1⟩,
    ⟨?_, fun unchanged => (image.same unchanged).2⟩⟩
  · rintro rfl
    by_contra changed
    exact absurd (image.fresh changed) (Nat.not_le.mpr inside)
  · rintro rfl
    by_contra changed
    exact absurd (image.fresh changed) (Nat.not_le.mpr image.spells.inside)

end Building

namespace PlanCall

open Building (Makes)

/-- Over every list of calls, every expression, every relation as the target and every offset,
shifting the functions of the expression only lets the plan grow. If the expression is over the
target already or calls no function, the answer spells out the same formula over the same source,
with the same outputs everywhere. It is the expression itself, and nothing is added, exactly if
every scalar on a side of a binary expression is equal to itself. Otherwise, if every leaf is a call
to a function of one column and all columns, shifted by the offset, are machine words, the answer is
over the target and has the same outputs everywhere, and its formula differs in the source and in
the column of each call only. If one of these columns would lie too far on, then an unchecked sum
starts again at zero and a checked one ends everything. In all other cases the plan refuses, or a
checked sum has come first. -/
theorem shiftFunctions_exact (calls : List PlanCall) (overflow : Overflow)
    (id target source : NodeId) (offset : Nat) (found : (grown calls).sourceOf id = .ok source)
    (relation : (grown calls).Resolves (.source, target)) :
    ∃ formula result later, (grown calls).Spells source id formula ∧
      (Building.shiftFunctions overflow id target offset).run.run (grown calls) = (result, later) ∧
      later.Extends (grown calls) ∧
      (source = target ∨ formula.calls = [] →
        ∃ moved, result = .ok moved ∧ later.Spells source moved formula ∧ later.Mirrors id moved ∧
          (moved = id ↔ formula.IsReflexive) ∧ (later = grown calls ↔ formula.IsReflexive)) ∧
      (source ≠ target → formula.calls ≠ [] → formula.IsShiftable → formula.Fits offset →
        ∃ moved, result = .ok moved ∧ later.Mirrors id moved ∧
          later.Spells target moved (formula.shifted target (· + offset))) ∧
      (source ≠ target → formula.calls ≠ [] → formula.IsShiftable → ¬ formula.Fits offset →
        (overflow = .wraps → ∃ moved, result = .ok moved ∧ later.Mirrors id moved ∧
          later.Spells target moved (formula.shifted target (wrapped offset))) ∧
        (overflow = .stops → result = .error .overflow)) ∧
      (source ≠ target → formula.calls ≠ [] → ¬ formula.IsShiftable →
        ∃ stop, result = .error stop ∧
          (stop.IsOfPlan ∨ stop = .overflow ∧ overflow = .stops ∧ ¬ formula.Fits offset)) := by
  have built := grown_built calls
  generalize grown calls = arena at *
  obtain ⟨formula, spells⟩ := built.spells_sourceOf found
  obtain ⟨result, later, ran⟩ : ∃ result later,
    (Building.shiftFunctions overflow id target offset).run.run arena = (result, later) := ⟨_, _, rfl⟩
  have careful : Building.Careful (Building.shiftFunctions overflow id target offset) arena _ _ :=
    .shiftFunctions built
  rw [Building.Careful, ran] at careful
  have comes {last : NodeId} (ends : formula.EndsOver overflow offset source target last) :
      ∃ moved, result = .ok moved ∧ Building.Imaged arena id last
        (formula.shiftedFrom source target offset) (formula.IsFixed source target) moved later := by
    obtain ⟨moved, _, made, image⟩ := Building.comes_shiftFunctions built relation spells ends
    obtain ⟨rfl, rfl⟩ := Prod.mk.inj (ran.symm.trans made)
    exact ⟨moved, rfl, image⟩
  -- Wherever all is moved, the image is over the target.
  have shifts (different : source ≠ target) (shiftable : formula.IsShiftable)
      (adds : formula.Adds overflow offset) : ∃ moved, result = .ok moved ∧ later.Mirrors id moved ∧
        later.Spells target moved (formula.shifted target (wrapped offset)) := by
    obtain ⟨moved, rfl, image⟩ := comes (.inr ⟨rfl, different, shiftable, adds⟩)
    rw [Formula.shiftedFrom, if_neg different] at image
    exact ⟨moved, rfl, image.mirrors, image.spells⟩
  refine ⟨formula, result, later, spells, ran, careful.further, fun stays => ?_,
    fun different _ shiftable fits => ?_, fun different _ shiftable large => ⟨?_, ?_⟩,
    fun different calling unshiftable => ?_⟩
  · obtain ⟨moved, rfl, image⟩ := comes (.inl ⟨rfl, stays⟩)
    have unchanged : formula.IsFixed source target ↔ formula.IsReflexive := and_iff_left stays
    rw [Formula.shiftedFrom_of_stays stays, unchanged] at image
    exact ⟨moved, rfl, image.spells, image.mirrors, image.itself_iff spells.inside⟩
  · rw [← Formula.shifted_of_fits fits]
    exact shifts different shiftable (.inr fits)
  · exact fun unchecked => shifts different shiftable (.inl unchecked)
  · rintro rfl
    have breaks := Building.breaks_shiftFunctions built relation spells different shiftable large
    rw [Building.Breaks, ran] at breaks
    exact breaks
  · cases result with
    | error stop =>
      refine ⟨stop, rfl, (careful.stopped stop rfl).imp_right fun broken => ?_⟩
      exact ⟨broken.1, broken.2.1, Building.not_fits_of_overflows spells broken.2.2⟩
    | ok moved =>
      obtain ⟨last, ⟨-, again | none⟩ | ⟨-, -, shiftable, -⟩⟩ :=
        Building.makes_shiftFunctions built relation spells ran
      · exact absurd again different
      · exact absurd none calling
      · exact absurd shiftable unshiftable

/-- A call to a function of the second column of the first relation. -/
def increment : RowFunction := ⟨⟨0⟩, "udf", [.int64 3], [1], true, false⟩

/-- A table of two columns, a selection that puts the first column in front once more, and the sum
of a call and one. -/
def widening : List PlanCall :=
  let number (name : String) : Field := ⟨name, .int64, false⟩
  let table : Batch := ⟨⟨[number "a", number "b"]⟩, [[.int64 1, .int64 2], [.int64 3, .int64 4]], 2⟩
  [.tableScan table, .select ⟨0⟩ [0, 0, 1], .expression (.ofField (number "f")) (.rowFunction increment),
    .binary (.ofField (number "p")) (.expression ⟨5⟩) (.scalar (.int64 1)) .add]

/-- The sum is moved to the selection, in which the column that the function reads is the third one.
-/
theorem widening_shiftFunctions_exact :
    (grown widening).sourceOf ⟨6⟩ = .ok ⟨0⟩ ∧ (grown widening).Resolves (.source, ⟨4⟩) ∧
      ∃ moved later, Makes (Building.shiftFunctions .stops ⟨6⟩ ⟨4⟩ 1) (grown widening) moved later ∧
        later.Mirrors ⟨6⟩ moved ∧
        later.Spells ⟨4⟩ moved (.binary
          (.rowFunction { increment with source := ⟨4⟩, columns := [2] }) (.scalar (.int64 1))
          .add) := by
  have found : (grown widening).sourceOf ⟨6⟩ = .ok ⟨0⟩ := rfl
  have relation : (grown widening).Resolves (.source, ⟨4⟩) := ⟨_, rfl, by decide⟩
  refine ⟨found, relation, ?_⟩
  obtain ⟨formula, result, later, spells, ran, -, -, shifts, -⟩ :=
    shiftFunctions_exact widening .stops ⟨6⟩ ⟨4⟩ ⟨0⟩ 1 found relation
  have sum : (grown widening).Spells ⟨0⟩ ⟨6⟩
      (.binary (.rowFunction increment) (.scalar (.int64 1)) .add) :=
    .ofSides rfl (.inl rfl) (Arena.Spells.leaf ⟨5⟩ _ _ rfl rfl) rfl
  obtain ⟨-, rfl⟩ := spells.unique sum
  have fits : Formula.Fits 1 (.binary (.rowFunction increment) (.scalar (.int64 1)) .add) := by
    simp [Formula.Fits, Formula.calls, increment]
  obtain ⟨moved, rfl, mirrors, spellsMoved⟩ := shifts (by decide) nofun ⟨rfl, trivial⟩ fits
  exact ⟨moved, later, ran, mirrors, spellsMoved⟩

/-- A table of one column and a comparison of this column with a NaN. -/
def comparing : List PlanCall :=
  let number : Field := ⟨"x", .float64, false⟩
  [.tableScan ⟨⟨[number]⟩, [[.float64 ⟨0⟩]], 1⟩, .column ⟨0⟩ 0,
    .binary (.ofField ⟨"e", .boolean, false⟩) (.expression ⟨1⟩)
      (.scalar (.float64 ⟨0x7FF8000000000000⟩)) .equal]

/-- The comparison calls no function and is over the target already, and yet another node is the
answer and was added. -/
theorem comparing_copied :
    (grown comparing).sourceOf ⟨2⟩ = .ok ⟨0⟩ ∧ (grown comparing).Resolves (.source, ⟨0⟩) ∧
      ∃ later, Makes (Building.shiftFunctions .stops ⟨2⟩ ⟨0⟩ 0) (grown comparing) ⟨3⟩ later ∧
        (grown comparing).size = 3 ∧ later.size = 4 :=
  ⟨rfl, ⟨_, rfl, by decide⟩, _, rfl, rfl, rfl⟩

end PlanCall

end Rankwise
