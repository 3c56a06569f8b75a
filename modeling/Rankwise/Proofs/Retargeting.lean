import Rankwise.Proofs.Carrying

/-!
# Moved expressions

An expression that is moved is either over the target already or is turned into another one, part by
part (`makes_retargetWithin`). Each part that is moved carries over what it stood for, by induction
on the limit of the walk (`spells_retargetWithin`). So moving an expression and bringing together
the sides of a binary one keep the meaning of both (`moved_keeps_meaning`).
-/

namespace Rankwise

namespace Building

variable {arena later : Arena} {id target moved : NodeId}

/-! Moving an expression lets the plan grow. -/

namespace Grows

/-- To move a side only adds nodes if the move of its node does. -/
theorem moveSide {move : NodeId → Building (Option NodeId)} (grows : ∀ id, Grows (move id))
    (side : Side) : Grows (moveSide move side) := by
  cases side with
  | expression part => exact (grows part).bind fun _ => .pure _
  | scalar value => exact .pure _

/-- To retarget within a limit only adds nodes. -/
theorem retargetWithin (target : NodeId) (limit : Nat) (id : NodeId) :
    Grows (retargetWithin target limit id) := by
  induction limit generalizing id with
  | zero => exact .throw _
  | succ limit inductionHypothesis =>
    rw [Building.retargetWithin]
    refine .bind .get fun arena => .bind (.ask _) fun source => ?_
    split
    case isTrue => exact .pure _
    case isFalse =>
      refine .bind (.look _) fun output => .bind (.look _) fun expression => ?_
      cases expression with
      | column source index =>
        refine .bind (.look _) fun expressions => ?_
        cases expressions with
        | none => exact .pure _
        | some expressions =>
          refine .bind (.look _) fun place => ?_
          cases place with
          | none => exact .pure _
          | some place => exact .bind (.push _) fun _ => .pure _
      | constant | null =>
        refine .bind (.look _) fun expressions => ?_
        cases expressions with
        | none => exact .pure _
        | some expressions => exact .bind (.push _) fun _ => .pure _
      | unary operand operator =>
        refine .bind (inductionHypothesis operand) fun operand => ?_
        cases operand with
        | none => exact .pure _
        | some operand => exact .bind (.push _) fun _ => .pure _
      | binary left right operator =>
        refine .bind (moveSide inductionHypothesis left) fun left => ?_
        cases left with
        | none => exact .pure _
        | some left =>
          refine .bind (moveSide inductionHypothesis right) fun right => ?_
          cases right with
          | none => exact .pure _
          | some right => exact .bind (.push _) fun _ => .pure _
      | aggregate | rowFunction => exact .pure _

/-- To retarget only adds nodes. -/
theorem retarget (id target : NodeId) : Grows (retarget id target) :=
  .bind .get fun _ => .retargetWithin target _ id

end Grows

/-- What an expression is turned into when it is moved, with the plan in which its parts have been
moved. -/
inductive Turns (target : NodeId) (limit : Nat) (arena : Arena) :
    Expression → Expression → Arena → Prop
  | column (source : NodeId) (index place : Nat) (expressions : List NodeId)
      (upon : arena.projectionOver? target source = .ok (some expressions))
      (passed : arena.passedOn? source index expressions = .ok (some place)) :
      Turns target limit arena (.column source index) (.column target place) arena
  | constant (source : NodeId) (value : Scalar) (expressions : List NodeId)
      (upon : arena.projectionOver? target source = .ok (some expressions)) :
      Turns target limit arena (.constant source value) (.constant target value) arena
  | null (source : NodeId) (field : Nat) (expressions : List NodeId)
      (upon : arena.projectionOver? target source = .ok (some expressions)) :
      Turns target limit arena (.null source field) (.null target field) arena
  | unary (operand moved : NodeId) (operator : UnaryOperator) (later : Arena)
      (made : Makes (retargetWithin target limit operand) arena (some moved) later) :
      Turns target limit arena (.unary operand operator) (.unary moved operator) later
  | binary (left right movedLeft movedRight : Side) (operator : BinaryOperator)
      (middle later : Arena)
      (madeLeft : Makes (moveSide (retargetWithin target limit) left) arena (some movedLeft) middle)
      (madeRight :
        Makes (moveSide (retargetWithin target limit) right) middle (some movedRight) later) :
      Turns target limit arena (.binary left right operator)
        (.binary movedLeft movedRight operator) later

/-- An expression that is moved is over the target already, or it is turned into another one that is
added behind its moved parts and has the same output. -/
theorem makes_retargetWithin {limit : Nat}
    (made : Makes (retargetWithin target (limit + 1) id) arena (some moved) later) :
    ∃ source, arena.sourceOf id = .ok source ∧
      (source = target ∧ moved = id ∧ later = arena ∨
        source ≠ target ∧ ∃ output expression turned middle, arena.output id = .ok output ∧
          arena.expression id = .ok expression ∧ Turns target limit arena expression turned middle ∧
          Makes (Building.expression output turned) middle moved later) := by
  have added {output : OutputSchema} {turned : Expression} {middle : Arena}
      (made : Makes (do return some (← Building.expression output turned)) middle (some moved)
        later) : Makes (Building.expression output turned) middle moved later := by
    obtain ⟨id, _, pushed, returned⟩ := (Makes.bind_iff _ _ _).mp made
    obtain ⟨same, rfl⟩ := (Makes.pure_iff _ _).mp returned
    exact Option.some.inj same ▸ pushed
  have stopped {later : Arena} {middle : Arena}
      (made : Makes (pure none : Building (Option NodeId)) middle (some moved) later) : False :=
    nomatch ((Makes.pure_iff _ _).mp made).1
  -- The steps of the program are peeled off one by one, each with what it found.
  rw [retargetWithin] at made
  replace made := (Makes.bindGet_iff _ _).mp made
  obtain ⟨source, sourceFound, made⟩ := (Makes.bindAsk_iff _ _ _).mp made
  refine ⟨source, sourceFound, ?_⟩
  split at made
  case isTrue same =>
    obtain ⟨sameId, rfl⟩ := (Makes.pure_iff _ _).mp made
    exact .inl ⟨same, (Option.some.inj sameId).symm, rfl⟩
  case isFalse different =>
    obtain ⟨output, outputFound, made⟩ := (Makes.bindLook_iff _ _ _).mp made
    obtain ⟨expression, found, made⟩ := (Makes.bindLook_iff _ _ _).mp made
    suffices ∃ turned middle, Turns target limit arena expression turned middle ∧
        Makes (Building.expression output turned) middle moved later by
      obtain ⟨turned, middle, turns, pushed⟩ := this
      exact .inr ⟨different, output, expression, turned, middle, outputFound, found, turns, pushed⟩
    cases expression with
    | column source index =>
      obtain ⟨expressions, upon, made⟩ := (Makes.bindLook_iff _ _ _).mp made
      cases expressions with
      | none => exact (stopped made).elim
      | some expressions =>
        obtain ⟨place, passed, made⟩ := (Makes.bindLook_iff _ _ _).mp made
        cases place with
        | none => exact (stopped made).elim
        | some place => exact ⟨_, _, .column source index place expressions upon passed, added made⟩
    | constant source value =>
      obtain ⟨expressions, upon, made⟩ := (Makes.bindLook_iff _ _ _).mp made
      cases expressions with
      | none => exact (stopped made).elim
      | some expressions => exact ⟨_, _, .constant source value expressions upon, added made⟩
    | null source field =>
      obtain ⟨expressions, upon, made⟩ := (Makes.bindLook_iff _ _ _).mp made
      cases expressions with
      | none => exact (stopped made).elim
      | some expressions => exact ⟨_, _, .null source field expressions upon, added made⟩
    | unary operand operator =>
      obtain ⟨below, middle, madeBelow, made⟩ := (Makes.bind_iff _ _ _).mp made
      cases below with
      | none => exact (stopped made).elim
      | some below => exact ⟨_, _, .unary operand below operator middle madeBelow, added made⟩
    | binary left right operator =>
      obtain ⟨movedLeft, middle, madeLeft, made⟩ := (Makes.bind_iff _ _ _).mp made
      cases movedLeft with
      | none => exact (stopped made).elim
      | some movedLeft =>
        obtain ⟨movedRight, last, madeRight, made⟩ := (Makes.bind_iff _ _ _).mp made
        cases movedRight with
        | none => exact (stopped made).elim
        | some movedRight =>
          exact ⟨_, _, .binary left right movedLeft movedRight operator middle last madeLeft madeRight,
            added made⟩
    | aggregate | rowFunction => exact (stopped made).elim

/-- What is pushed is found under its id, and nothing before it has changed. -/
theorem makes_expression {output : OutputSchema} {expression : Expression}
    (made : Makes (Building.expression output expression) arena id later) :
    later.Extends arena ∧ later.expression id = .ok expression ∧ later.output id = .ok output := by
  obtain ⟨-, rfl, rfl⟩ := (Makes.push_iff _ _).mp made
  have there : (arena.adding ⟨output, .expression expression⟩).nodes[arena.size]? =
      some ⟨output, .expression expression⟩ := List.getElem?_concat_length
  exact ⟨.adding arena _, (Arena.expression_iff _).mpr ⟨_, there, rfl⟩,
    (Arena.output_iff _).mpr ⟨_, there, rfl⟩⟩

variable {source : NodeId} {formula : Formula}

/-- A building that only adds nodes leaves an extension, built if the arena was. -/
theorem Makes.grown {α : Type} {building : Building α} {value : α} (grows : Grows building)
    (made : Makes building arena value later) :
    later.Extends arena ∧ (arena.IsBuilt → later.IsBuilt) := by
  have grown := grows arena
  rwa [made] at grown

/-- A side of a binary expression is carried over if every expression that is moved is. -/
theorem spells_moveSide {move : NodeId → Building (Option NodeId)} {side movedSide : Side}
    (carries : ∀ part moved, arena.Spells source part formula →
      Makes (move part) arena (some moved) later →
        ∃ carried, later.Spells target moved carried ∧ later.PassesOn source target ∧
          later.Carries source target formula carried)
    (spells : arena.SpellsSide source side formula)
    (made : Makes (moveSide move side) arena (some movedSide) later) :
    ∃ carried, later.SpellsSide target movedSide carried ∧
      later.Carries source target formula carried ∧
      movedSide.expression?.isSome = side.expression?.isSome ∧
      (side.expression?.isSome → later.PassesOn source target) := by
  cases side with
  | expression part =>
    obtain ⟨result, middle, madePart, returned⟩ := (Makes.bind_iff _ _ _).mp made
    obtain ⟨same, rfl⟩ := (Makes.pure_iff _ _).mp returned
    obtain ⟨moved, rfl, rfl⟩ := Option.map_eq_some_iff.mp same
    obtain ⟨carried, spellsMoved, passes, carriesOver⟩ := carries part moved spells madePart
    exact ⟨carried, spellsMoved, carriesOver, rfl, fun _ => passes⟩
  | scalar value =>
    obtain ⟨same, rfl⟩ := (Makes.pure_iff _ _).mp made
    cases same
    cases spells
    exact ⟨.scalar value, rfl, fun _ _ _ _ _ _ _ _ _ => rfl, rfl, nofun⟩

/-- What is moved has the output it had, and spells out the formula carried to the target. -/
theorem spells_retargetWithin (limit : Nat) (built : arena.IsBuilt)
    (spells : arena.Spells source id formula)
    (made : Makes (retargetWithin target limit id) arena (some moved) later) :
    (∃ output, arena.output id = .ok output ∧ later.output moved = .ok output) ∧
      ∃ carried, later.Spells target moved carried ∧ later.PassesOn source target ∧
        later.Carries source target formula carried := by
  induction limit generalizing arena later id moved formula with
  | zero => cases made
  | succ limit inductionHypothesis =>
    obtain ⟨sourceToo, sourceFound, cases⟩ := makes_retargetWithin made
    obtain rfl := Except.ok.inj ((spells.sourceOf built).symm.trans sourceFound)
    obtain ⟨expression, found⟩ := spells.expression
    rcases cases with ⟨rfl, rfl, rfl⟩ |
      ⟨different, output, expressionToo, turned, middle, outputFound, foundToo, turns, pushed⟩
    · obtain ⟨node, there, -⟩ := (Arena.expression_iff _).mp found
      have output := (Arena.output_iff _).mpr ⟨node, there, rfl⟩
      exact ⟨⟨_, output, output⟩, formula, spells, .inl rfl, later.carries_same source formula⟩
    obtain rfl := Except.ok.inj (found.symm.trans foundToo)
    obtain ⟨further, foundTurned, outputTurned⟩ := makes_expression pushed
    refine ⟨⟨output, outputFound, outputTurned⟩, ?_⟩
    cases turns with
    | column sourceNamed index place expressions upon passed =>
      cases spells.of_leaf found rfl
      have found := Arena.projectionOver?_some upon
      exact ⟨.column place, .leaf moved _ _ foundTurned rfl,
        .inr ⟨expressions, further.operator found⟩,
        (Arena.carries_column different found passed).grown further⟩
    | constant sourceNamed value expressions upon =>
      cases spells.of_leaf found rfl
      exact ⟨.constant value, .leaf moved _ _ foundTurned rfl,
        .inr ⟨expressions, further.operator (Arena.projectionOver?_some upon)⟩,
        fun _ _ _ _ _ _ _ _ _ => rfl⟩
    | null sourceNamed field expressions upon =>
      cases spells.of_leaf found rfl
      exact ⟨.null field, .leaf moved _ _ foundTurned rfl,
        .inr ⟨expressions, further.operator (Arena.projectionOver?_some upon)⟩,
        fun _ _ _ _ _ _ _ _ _ => rfl⟩
    | unary operand movedOperand operator _ madeOperand =>
      obtain ⟨below, spellsBelow, rfl⟩ := spells.of_unary found
      obtain ⟨-, carried, spellsCarried, passes, carriesOver⟩ :=
        inductionHypothesis built spellsBelow madeOperand
      refine ⟨.unary carried operator,
        .unary moved movedOperand operator carried foundTurned (spellsCarried.grown further),
        passes.grown further, ?_⟩
      intro last builtLast furtherStill ν meaning tables row computed computes
      rw [Formula.value, Formula.value,
        carriesOver builtLast (furtherStill.trans further) computes]
    | binary left right movedLeft movedRight operator between _ madeLeft madeRight =>
      obtain ⟨sides, first, second, onLeft, onRight, rfl⟩ := spells.of_binary found
      obtain ⟨grownLeft, builtLeft⟩ :=
        madeLeft.grown (.moveSide (.retargetWithin target limit) left)
      obtain ⟨grownRight, builtRight⟩ :=
        madeRight.grown (.moveSide (.retargetWithin target limit) right)
      obtain ⟨firstCarried, spellsFirst, carriesFirst, sideLeft, passesLeft⟩ :=
        spells_moveSide (fun _ _ spells made => (inductionHypothesis built spells made).2) onLeft
          madeLeft
      obtain ⟨secondCarried, spellsSecond, carriesSecond, sideRight, passesRight⟩ :=
        spells_moveSide (fun _ _ spells made => (inductionHypothesis (builtLeft built) spells made).2)
          (onRight.grown grownLeft) madeRight
      have passes : middle.PassesOn source target := by
        rcases sides with isLeft | isRight
        · exact (passesLeft isLeft).grown grownRight
        · exact passesRight isRight
      refine ⟨.binary firstCarried secondCarried operator,
        .ofSides foundTurned (by rwa [sideLeft, sideRight])
          (spellsFirst.grown (further.trans grownRight)) (spellsSecond.grown further),
        passes.grown further, ?_⟩
      intro last builtLast furtherStill ν meaning tables row computed computes
      have grown := furtherStill.trans further
      rw [Formula.value, Formula.value, carriesFirst builtLast (grown.trans grownRight) computes,
        carriesSecond builtLast grown computes]

/-- Only a column with a source is retargeted. -/
theorem sourceOf_of_retarget {result : Option NodeId}
    (made : Makes (retarget id target) arena result later) :
    ∃ source, arena.sourceOf id = .ok source := by
  replace made := (Makes.bindGet_iff _ _).mp made
  rw [Arena.walkLimit, retargetWithin] at made
  replace made := (Makes.bindGet_iff _ _).mp made
  obtain ⟨source, found, -⟩ := (Makes.bindAsk_iff _ _ _).mp made
  exact ⟨source, found⟩

/-- What is retargeted has moved in the sense of `Moves`. -/
theorem moves_retarget (built : arena.IsBuilt)
    (made : Makes (retarget id target) arena (some moved) later) :
    arena.Moves later target id moved := by
  obtain ⟨further, builtLater⟩ := made.grown (.retarget id target)
  obtain ⟨source, answer⟩ := sourceOf_of_retarget made
  obtain ⟨formula, spells⟩ := built.spells_sourceOf answer
  replace made := (Makes.bindGet_iff _ _).mp made
  obtain ⟨output, carried, spellsMoved, passes, carries⟩ := spells_retargetWithin _ built spells made
  exact .of_carries built (builtLater built) further spells output spellsMoved passes carries

/-- Either the left side was moved to the source of the right one, or the right side to that of the
left one, or there was nothing to bring together as one of the sides is no expression. -/
theorem makes_matchSources {left right movedLeft movedRight : Side}
    (made : Makes (matchSources left right) arena (some (movedLeft, movedRight)) later) :
    (∃ first second moved target, left = .expression first ∧ right = .expression second ∧
        arena.sourceOf second = .ok target ∧
        Makes (retarget first target) arena (some moved) later ∧
        movedLeft = .expression moved ∧ movedRight = right) ∨
      (∃ first second moved target middle, left = .expression first ∧
        right = .expression second ∧ (∃ source, arena.sourceOf first = .ok source) ∧
        (∃ source, arena.sourceOf second = .ok source) ∧
        middle.Extends arena ∧ (arena.IsBuilt → middle.IsBuilt) ∧
        middle.sourceOf first = .ok target ∧
        Makes (retarget second target) middle (some moved) later ∧
        movedLeft = left ∧ movedRight = .expression moved) ∨
      (left.expression? = none ∨ right.expression? = none) ∧ movedLeft = left ∧
        movedRight = right ∧ later = arena := by
  have unmoved (made : Makes (pure (some (left, right)) : Building (Option (Side × Side))) arena
      (some (movedLeft, movedRight)) later) :
      movedLeft = left ∧ movedRight = right ∧ later = arena := by
    obtain ⟨same, rfl⟩ := (Makes.pure_iff _ _).mp made
    cases same
    exact ⟨rfl, rfl, rfl⟩
  cases left with
  | scalar value => exact .inr (.inr ⟨.inl rfl, unmoved made⟩)
  | expression first =>
    cases right with
    | scalar value => exact .inr (.inr ⟨.inr rfl, unmoved made⟩)
    | expression second =>
      replace made := (Makes.bindGet_iff _ _).mp made
      obtain ⟨target, answer, made⟩ := (Makes.bindAsk_iff _ _ _).mp made
      obtain ⟨moved, middle, madeFirst, made⟩ := (Makes.bind_iff _ _ _).mp made
      cases moved with
      | some moved =>
        obtain ⟨same, rfl⟩ := (Makes.pure_iff _ _).mp made
        cases same
        exact .inl ⟨first, second, moved, target, rfl, rfl, answer, madeFirst, rfl, rfl⟩
      | none =>
        obtain ⟨further, built⟩ := madeFirst.grown (.retarget first target)
        have source := sourceOf_of_retarget madeFirst
        replace made := (Makes.bindGet_iff _ _).mp made
        obtain ⟨targetToo, answerToo, made⟩ := (Makes.bindAsk_iff _ _ _).mp made
        obtain ⟨moved, last, madeSecond, made⟩ := (Makes.bind_iff _ _ _).mp made
        cases moved with
        | none => cases ((Makes.pure_iff _ _).mp made).1
        | some moved =>
          obtain ⟨same, rfl⟩ := (Makes.pure_iff _ _).mp made
          cases same
          exact .inr (.inl ⟨first, second, moved, targetToo, middle, rfl, rfl, source,
            ⟨target, answer⟩, further, built, answerToo, madeSecond, rfl, rfl⟩)

/-- Two sides that are matched have become sides over one source. -/
theorem matches_matchSources (built : arena.IsBuilt) {left right movedLeft movedRight : Side}
    (made : Makes (matchSources left right) arena (some (movedLeft, movedRight)) later) :
    arena.Matches later left right movedLeft movedRight := by
  obtain ⟨first, second, moved, target, rfl, rfl, answer, madeFirst, rfl, rfl⟩ |
    ⟨first, second, moved, target, middle, rfl, rfl, ⟨source, answer⟩, ⟨sourceToo, answerToo⟩,
      further, builtMiddle, answerMiddle, madeSecond, rfl, rfl⟩ | unmoved :=
    makes_matchSources made
  · obtain ⟨further, builtLater⟩ := madeFirst.grown (.retarget first target)
    exact .inl ⟨target, first, second, moved, second, rfl, rfl, rfl, rfl,
      moves_retarget built madeFirst, .stays built (builtLater built) further answer⟩
  · have builtMiddle := builtMiddle built
    obtain ⟨furtherStill, builtLater⟩ := madeSecond.grown (.retarget second target)
    exact .inl ⟨target, first, second, first, moved, rfl, rfl, rfl, rfl,
      .earlier built builtMiddle further answer
        (.stays builtMiddle (builtLater builtMiddle) furtherStill answerMiddle),
      .earlier built builtMiddle further answerToo (moves_retarget builtMiddle madeSecond)⟩
  · exact .inr unmoved

/-- In a plan that was built an expression keeps its meaning when it is moved, and so do the sides
of a binary expression that are brought over one source. -/
theorem moved_keeps_meaning (arena : Arena) (built : arena.IsBuilt) :
    (∀ id target moved later, Makes (retarget id target) arena (some moved) later →
        arena.Moves later target id moved) ∧
      ∀ left right movedLeft movedRight later,
        Makes (matchSources left right) arena (some (movedLeft, movedRight)) later →
          arena.Matches later left right movedLeft movedRight :=
  ⟨fun _ _ _ _ => moves_retarget built, fun _ _ _ _ _ => matches_matchSources built⟩

/-- A table of two columns, a projection that swaps them, the sum of the first column and one, and
the first column of the projection. -/
def swapped : Arena where
  nodes :=
    let first : Field := ⟨"a", .int64, false⟩
    let second : Field := ⟨"b", .int64, false⟩
    let table : Batch := ⟨⟨[first, second]⟩, [[.int64 1, .int64 2], [.int64 3, .int64 4]], 2⟩
    [⟨.ofSchema ⟨[first, second]⟩, .operator (.tableScan table)⟩,
      ⟨.ofField first, .expression (.column ⟨0⟩ 0)⟩,
      ⟨.ofField second, .expression (.column ⟨0⟩ 1)⟩,
      ⟨.ofSchema ⟨[second, first]⟩, .operator (.projection ⟨0⟩ [⟨2⟩, ⟨1⟩])⟩,
      ⟨.ofField first, .expression (.binary (.expression ⟨1⟩) (.scalar (.int64 1)) .add)⟩,
      ⟨.ofField second, .expression (.column ⟨3⟩ 0)⟩]

/-- That arena is built by pushes. -/
theorem swapped_built : swapped.IsBuilt :=
  .adding _ _ (.adding _ _ (.adding _ _ (.adding _ _ (.adding _ _ (.adding _ _ .empty rfl) rfl) rfl)
    rfl) rfl) rfl

/-- The sum moves to the projection, where it reads the second column, and then has one source with
the first column of the projection. -/
theorem swapped_keeps_meaning : ∃ later,
    Makes (retarget ⟨4⟩ ⟨3⟩) swapped (some ⟨7⟩) later ∧
      later.expression ⟨6⟩ = .ok (.column ⟨3⟩ 1) ∧ swapped.Moves later ⟨3⟩ ⟨4⟩ ⟨7⟩ ∧
      swapped.Matches later (.expression ⟨5⟩) (.expression ⟨4⟩) (.expression ⟨5⟩)
        (.expression ⟨7⟩) := by
  refine ⟨((retarget ⟨4⟩ ⟨3⟩).run.run swapped).2, rfl, rfl, ?_, ?_⟩
  · exact (moved_keeps_meaning swapped swapped_built).1 ⟨4⟩ ⟨3⟩ ⟨7⟩ _ rfl
  · exact (moved_keeps_meaning swapped swapped_built).2 _ _ _ _ _ rfl

end Building

end Rankwise
