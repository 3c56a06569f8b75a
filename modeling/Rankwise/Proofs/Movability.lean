import Rankwise.Proofs.Sources

/-!
# Which expressions can be moved

A projection offers columns of the relation below it, each at the first place at which it is passed
on (`Arena.Offers`). Which formula an expression is turned into when it is moved there, and whether
it can be moved at all, is said of its own formula (`Formula.moved?`): calls cannot be moved, and
columns only if they are offered. Moving follows the parts of the expression and comes to just this
answer, also if the moving of one part has let the plan grow before another part turns out not to be
movable (`comes_retargetWithin`, by induction on the limit of the walk). So it never fails, and it
is known beforehand when there is a result and what it spells out (`retarget_exact`).
-/

namespace Rankwise

namespace Formula

/-- The columns that are referred to, outside of calls. -/
def columns : Formula → List Nat
  | column index => [index]
  | unary operand _ => operand.columns
  | binary left right _ => left.columns ++ right.columns
  | constant _ | null _ | aggregate _ _ _ | rowFunction _ | scalar _ => []

/-- No aggregate and no function is called. -/
def IsPlain : Formula → Prop
  | aggregate _ _ _ | rowFunction _ => False
  | unary operand _ => operand.IsPlain
  | binary left right _ => left.IsPlain ∧ right.IsPlain
  | column _ | constant _ | null _ | scalar _ => True

/-- The formula with other columns in the place of its own. -/
def through (place : Nat → Nat) : Formula → Formula
  | column index => column (place index)
  | unary operand operator => unary (operand.through place) operator
  | binary left right operator => binary (left.through place) (right.through place) operator
  | constant value => constant value
  | null field => null field
  | aggregate function columns skipNulls => aggregate function columns skipNulls
  | rowFunction call => rowFunction call
  | scalar value => scalar value

/-- What the formula is turned into over a relation that offers columns of its source, or over one
that offers nothing of it, not even its rows. -/
def moved? (offered : Option (Nat → Option Nat)) : Formula → Option Formula
  | column index => (offered.bind fun place? => place? index).map column
  | constant value => offered.map fun _ => constant value
  | null field => offered.map fun _ => null field
  | aggregate _ _ _ | rowFunction _ => none
  | scalar value => some (scalar value)
  | unary operand operator => (operand.moved? offered).map (unary · operator)
  | binary left right operator =>
    (left.moved? offered).bind fun left => (right.moved? offered).map (binary left · operator)

/-- A formula can be moved exactly if it is plain and its columns are offered. Then they are
replaced by the places at which they are. -/
theorem moved?_some_iff {place? : Nat → Option Nat} {place : Nat → Nat}
    (places : ∀ index found, place? index = some found → place index = found)
    (formula carried : Formula) :
    formula.moved? (some place?) = some carried ↔
      formula.IsPlain ∧ (∀ index ∈ formula.columns, (place? index).isSome) ∧
        formula.through place = carried := by
  induction formula generalizing carried with
  | column index =>
    cases offered : place? index with
    | none => simp [moved?, columns, offered]
    | some found => simp [moved?, columns, IsPlain, through, offered, places index found offered]
  | constant | null | scalar => simp [moved?, columns, IsPlain, through]
  | aggregate | rowFunction => simp [moved?, IsPlain]
  | unary operand operator inductionHypothesis =>
    simp only [moved?, Option.map_eq_some_iff, inductionHypothesis, IsPlain, columns, through]
    constructor
    · rintro ⟨_, ⟨plain, offered, rfl⟩, rfl⟩
      exact ⟨plain, offered, rfl⟩
    · rintro ⟨plain, offered, rfl⟩
      exact ⟨_, ⟨plain, offered, rfl⟩, rfl⟩
  | binary left right operator onLeft onRight =>
    simp only [moved?, Option.bind_eq_some_iff, Option.map_eq_some_iff, onLeft, onRight, IsPlain,
      columns, through, List.forall_mem_append]
    constructor
    · rintro ⟨_, ⟨plainLeft, offeredLeft, rfl⟩, _, ⟨plainRight, offeredRight, rfl⟩, rfl⟩
      exact ⟨⟨plainLeft, plainRight⟩, ⟨offeredLeft, offeredRight⟩, rfl⟩
    · rintro ⟨⟨plainLeft, plainRight⟩, ⟨offeredLeft, offeredRight⟩, rfl⟩
      exact ⟨_, ⟨plainLeft, offeredLeft, rfl⟩, _, ⟨plainRight, offeredRight, rfl⟩, rfl⟩

end Formula

/-- The expressions of a projection over the source, if the node is one. -/
def Node.Content.projectionOver? (source : NodeId) : Node.Content → Option (List NodeId)
  | .operator (.projection below expressions) => if below = source then some expressions else none
  | .operator _ | .expression _ => none

namespace Arena

variable {arena later : Arena} {source target id : NodeId} {index : Nat} {formula : Formula}
  {offered : Option (Nat → Option Nat)} {expressions : List NodeId}

/-- What an expression spells out cannot be moved to where nothing is offered. -/
theorem Spells.not_moved (spells : arena.Spells source id formula) : formula.moved? none = none := by
  induction spells with
  | leaf id expression formula found names => cases expression <;> cases names <;> rfl
  | unary id operand operator formula found _ inductionHypothesis =>
    rw [Formula.moved?, inductionHypothesis]
    rfl
  | binary id left right operator first second found sides _ _ _ _ onLeft onRight =>
    rw [Formula.moved?]
    cases left with
    | expression part =>
      rw [onLeft part rfl]
      rfl
    | scalar value =>
      cases right with
      | expression part => simp [onRight part rfl]
      | scalar _ => exact sides.elim nofun nofun

/-- Whether a node is a reference to this column. -/
def refersTo (arena : Arena) (source : NodeId) (index : Nat) (id : NodeId) : Bool :=
  match arena.expression id with
  | .ok expression => expression = .column source index
  | .error _ => false

/-- A node refers to a column exactly if it is the reference to it. -/
theorem refersTo_iff :
    arena.refersTo source index id = true ↔ arena.expression id = .ok (.column source index) := by
  rw [refersTo]
  cases arena.expression id <;> simp

/-- What a relation offers to expressions over the source: a projection of the source offers the
columns that it passes on, each at the first place at which it does so. -/
def Offers (arena : Arena) (source target : NodeId) : Option (Nat → Option Nat) → Prop
  | none => arena.projectionOver? target source = .ok none
  | some place? => ∃ expressions, arena.projectionOver? target source = .ok (some expressions) ∧
      ∀ index, arena.passedOn? source index expressions = .ok (place? index)

/-- Expressions that are there are looked through for a column from the first one on. -/
theorem passedOn?_eq (there : ∀ id ∈ expressions, ∃ expression, arena.expression id = .ok expression)
    (source : NodeId) (index : Nat) :
    arena.passedOn? source index expressions =
      .ok (expressions.findIdx? (arena.refersTo source index)) := by
  induction expressions with
  | nil => rfl
  | cons id rest inductionHypothesis =>
    obtain ⟨⟨expression, found⟩, others⟩ := List.forall_mem_cons.mp there
    rw [passedOn?, found, inductionHypothesis others, List.findIdx?_cons, refersTo, found]
    by_cases same : expression = .column source index <;>
      simp [same, bind, Except.bind, pure, Except.pure]

/-- A formula is moved to a projection exactly if it is plain and the projection passes on its
columns.
-/
theorem moved?_upon (expressions : List NodeId) (source : NodeId) (formula carried : Formula) :
    formula.moved? (some fun index => expressions.findIdx? (arena.refersTo source index)) =
        some carried ↔
      formula.IsPlain ∧
        (∀ index ∈ formula.columns, ∃ listed ∈ expressions,
          arena.expression listed = .ok (.column source index)) ∧
        (formula.through fun index => expressions.findIdx (arena.refersTo source index)) = carried := by
  rw [Formula.moved?_some_iff fun index found same =>
    (List.findIdx?_eq_some_iff_findIdx_eq.mp same).2]
  simp only [List.findIdx?_isSome, List.any_eq_true, refersTo_iff]

/-- Where a column was found among expressions, it is found in every extension of the plan. -/
theorem Extends.passedOn? (further : later.Extends arena) {place? : Option Nat}
    (passed : arena.passedOn? source index expressions = .ok place?) :
    later.passedOn? source index expressions = .ok place? := by
  induction expressions generalizing place? with
  | nil => exact passed
  | cons id rest inductionHypothesis =>
    rw [Arena.passedOn?] at passed ⊢
    cases found : arena.expression id with
    | error failure =>
      rw [found] at passed
      cases passed
    | ok expression =>
      rw [further.expression found]
      rw [found] at passed
      cases others : arena.passedOn? source index rest with
      | ok behind => rwa [inductionHypothesis others, ← others]
      | error failure =>
        rw [others] at passed
        simp only [bind, Except.bind] at passed ⊢
        split at passed
        case isTrue same => rw [if_pos same, passed]
        case isFalse => cases passed

/-- Whether a node that is there is a projection over the source is told by what it computes. -/
theorem projectionOver?_found {node : Node} (found : arena.nodes[target.index]? = some node)
    (source : NodeId) :
    arena.projectionOver? target source = .ok (node.content.projectionOver? source) := by
  cases content : node.content with
  | operator operator =>
    have there : arena.operator target = .ok operator := (operator_iff _).mpr ⟨node, found, content⟩
    rw [projectionOver?, there]
    cases operator <;> rfl
  | expression expression =>
    have there : arena.operator target = .error (notOperator target expression.name) := by
      rw [Arena.operator, Arena.node, found]
      simp [bind, Except.bind, content, throw, throwThe, MonadExceptOf.throw]
    simp [projectionOver?, there, isExpression, found, Node.isExpression, content,
      Node.Content.projectionOver?]

/-- Whether a node is a projection over the source stays the same when the plan grows. -/
theorem Extends.projectionOver? (further : later.Extends arena) (inside : target.index < arena.size)
    (source : NodeId) :
    later.projectionOver? target source = arena.projectionOver? target source := by
  have found : arena.nodes[target.index]? = some arena.nodes[target.index] :=
    List.getElem?_eq_getElem inside
  rw [projectionOver?_found found, projectionOver?_found (further.found found)]

/-- A relation offers what it did when the plan has grown. -/
theorem Offers.grown (offers : arena.Offers source target offered) (further : later.Extends arena)
    (inside : target.index < arena.size) : later.Offers source target offered := by
  cases offered with
  | none => exact (further.projectionOver? inside source).trans offers
  | some place? =>
    obtain ⟨expressions, upon, passed⟩ := offers
    exact ⟨expressions, (further.projectionOver? inside source).trans upon,
      fun index => further.passedOn? (passed index)⟩

/-- A projection over the source offers the columns that it passes on. -/
theorem IsBuilt.offers_some (built : arena.IsBuilt)
    (found : arena.operator target = .ok (.projection source expressions)) :
    arena.Offers source target
      (some fun index => expressions.findIdx? (arena.refersTo source index)) := by
  refine ⟨expressions, by simp [projectionOver?, found], passedOn?_eq (fun id member => ?_) source⟩
  obtain ⟨_, _, spells⟩ := (built.operator found).2 id member
  exact spells.expression

/-- Anything else offers nothing. -/
theorem offers_none (inside : target.index < arena.size)
    (other : ∀ expressions, arena.operator target ≠ .ok (.projection source expressions)) :
    arena.Offers source target none := by
  cases upon : arena.projectionOver? target source with
  | error failure =>
    rw [projectionOver?_found (List.getElem?_eq_getElem inside)] at upon
    cases upon
  | ok verdict =>
    cases verdict with
    | none => exact upon
    | some expressions => exact absurd (projectionOver?_some upon) (other expressions)

/-- Every relation of a plan that was built offers something definite. -/
theorem IsBuilt.offers (built : arena.IsBuilt) (inside : target.index < arena.size)
    (source : NodeId) : ∃ offered, arena.Offers source target offered := by
  by_cases upon : ∃ expressions, arena.operator target = .ok (.projection source expressions)
  · exact ⟨_, built.offers_some upon.choose_spec⟩
  · exact ⟨none, offers_none inside (not_exists.mp upon)⟩

end Arena

namespace Building

variable {α β : Type} {arena later : Arena} {source target id : NodeId} {formula : Formula}
  {offered : Option (Nat → Option Nat)}

/-- Building comes to one value and one plan. -/
theorem Makes.unique {building : Building α} {value other : α} {last : Arena}
    (made : Makes building arena value later) (madeToo : Makes building arena other last) :
    value = other ∧ later = last := by
  cases made.symm.trans madeToo
  exact ⟨rfl, rfl⟩

/-- Building comes to its end, with a value and a plan that fit. -/
def Comes (building : Building α) (arena : Arena) (fits : α → Arena → Prop) : Prop :=
  ∃ value later, Makes building arena value later ∧ fits value later

namespace Comes

variable {fits : α → Arena → Prop}

/-- To give a value that fits comes to its end. -/
theorem pure {value : α} (fit : fits value arena) : Comes (pure value) arena fits :=
  ⟨value, arena, rfl, fit⟩

/-- What is composed comes to its end if the first part does and the second one behind it. -/
theorem bind {first : Building α} {next : α → Building β} {fits : β → Arena → Prop} {value : α}
    (begun : Makes first arena value later) (continued : Comes (next value) later fits) :
    Comes (first >>= next) arena fits := by
  obtain ⟨result, last, made, fit⟩ := continued
  exact ⟨result, last, (Makes.bind_iff _ _ _).mpr ⟨value, later, begun, made⟩, fit⟩

/-- To look at the plan first comes to its end. -/
theorem get {next : Arena → Building α} (continued : Comes (next arena) arena fits) :
    Comes (get >>= next) arena fits :=
  bind rfl continued

/-- To look up what is there first comes to its end. -/
theorem look {found : Except Failure α} {next : α → Building β} {fits : β → Arena → Prop} {value : α}
    (same : found = .ok value) (continued : Comes (next value) arena fits) :
    Comes (liftM found >>= next) arena fits := by
  obtain ⟨result, last, made, fit⟩ := continued
  exact ⟨result, last, (Makes.bindLook_iff _ _ _).mpr ⟨value, same, made⟩, fit⟩

/-- To look up what is there first, however deep, comes to its end. -/
theorem ask {found : Except Stop α} {next : α → Building β} {fits : β → Arena → Prop} {value : α}
    (same : found = .ok value) (continued : Comes (next value) arena fits) :
    Comes (liftM found >>= next) arena fits := by
  obtain ⟨result, last, made, fit⟩ := continued
  exact ⟨result, last, (Makes.bindAsk_iff _ _ _).mpr ⟨value, same, made⟩, fit⟩

end Comes

/-- An expression was moved to the target, where it spells out what was expected, or it was not
moved, as was expected. -/
def Answers (target : NodeId) (expected : Option Formula) (answer : Option NodeId) (later : Arena) :
    Prop :=
  Option.Rel (fun formula moved => later.Spells target moved formula) expected answer

/-- One side of a binary expression was moved likewise. What is on it is an expression or a scalar
as before. -/
def SideAnswers (target : NodeId) (expected : Option Formula) (side : Side) (answer : Option Side)
    (later : Arena) : Prop :=
  Option.Rel (fun formula moved => later.SpellsSide target moved formula ∧
    moved.expression?.isSome = side.expression?.isSome) expected answer

/-- There is an answer exactly if one was expected. -/
theorem Answers.isSome_iff {expected : Option Formula} {answer : Option NodeId}
    (answers : Answers target expected answer later) : answer.isSome ↔ expected.isSome := by
  cases answers <;> simp

/-- An accepted expression is the answer if it spells out what was expected. -/
theorem comes_added {output : OutputSchema} {expression : Expression}
    (accepted : arena.check ⟨output, .expression expression⟩ = .ok ())
    (spells : ∀ (later : Arena) (moved : NodeId), later.Extends arena →
      later.expression moved = .ok expression → later.Spells target moved formula) :
    Comes (do return some (← Building.expression output expression)) arena
      (Answers target (some formula)) := by
  have made : Makes (Building.expression output expression) arena ⟨arena.size⟩
      (arena.adding ⟨output, .expression expression⟩) := (Makes.push_iff _ _).mpr ⟨accepted, rfl, rfl⟩
  obtain ⟨further, found, -⟩ := makes_expression made
  exact .bind made (.pure (.some (spells _ _ further found)))

/-- To move a side comes to what it comes to for the expression that it is. -/
theorem comes_moveSide {move : NodeId → Building (Option NodeId)} {side : Side}
    (spells : arena.SpellsSide source side formula)
    (each : ∀ part, side = .expression part → arena.Spells source part formula →
      Comes (move part) arena (Answers target (formula.moved? offered))) :
    Comes (moveSide move side) arena (SideAnswers target (formula.moved? offered) side) := by
  cases side with
  | expression part =>
    obtain ⟨answer, later, made, fits⟩ := each part rfl spells
    refine .bind made (.pure ?_)
    generalize formula.moved? offered = expected at fits
    cases fits with
    | none => exact .none
    | some spellsMoved => exact .some ⟨spellsMoved, rfl⟩
  | scalar value =>
    obtain rfl : formula = .scalar value := spells
    exact .pure (.some ⟨rfl, rfl⟩)

/-- A constant or a null is added over a relation that offers anything. -/
theorem comes_leaf {output : OutputSchema} {turned : Expression}
    (offers : arena.Offers source target offered) (leaf : turned.leaf? = some (target, formula))
    (accepted : arena.check ⟨output, .expression turned⟩ = .ok ()) :
    Comes (do
      let some _ ← arena.projectionOver? target source | return none
      return some (← Building.expression output turned)) arena
      (Answers target (offered.map fun _ => formula)) := by
  cases offered with
  | none => exact .look offers (.pure .none)
  | some place? =>
    obtain ⟨expressions, upon, -⟩ := offers
    exact .look upon (comes_added accepted fun _ moved _ added => .leaf moved _ _ added leaf)

/-- A reference to a column is added over a relation that passes the column on. -/
theorem comes_column {output : OutputSchema} (index : Nat)
    (offers : arena.Offers source target offered) :
    Comes (do
      let some expressions ← arena.projectionOver? target source | return none
      let some place ← arena.passedOn? source index expressions | return none
      return some (← Building.expression output (.column target place))) arena
      (Answers target ((Formula.column index).moved? offered)) := by
  cases offered with
  | none => exact .look offers (.pure .none)
  | some place? =>
    obtain ⟨expressions, upon, passed⟩ := offers
    refine .look upon (.look (passed index) ?_)
    rw [Formula.moved?, Option.bind_some]
    cases place? index with
    | none => exact .pure .none
    | some place =>
      have relation := Arena.resolves_source (Arena.projectionOver?_some upon)
      refine comes_added (Arena.check_iff.mpr ⟨fun reference member => ?_, rfl⟩)
        fun _ moved _ added => .leaf moved _ _ added rfl
      exact List.mem_singleton.mp member ▸ relation

/-- An operation is added if its operand was moved. -/
theorem comes_unary {output : OutputSchema} {operator : UnaryOperator} {expected : Option Formula}
    {operand : Building (Option NodeId)} (moves : Comes operand arena (Answers target expected)) :
    Comes (do
      let some operand ← operand | return none
      return some (← unary output operand operator)) arena
      (Answers target (expected.map (.unary · operator))) := by
  obtain ⟨answer, middle, made, fits⟩ := moves
  refine .bind made ?_
  cases fits with
  | none => exact .pure .none
  | some spellsMoved =>
    obtain ⟨expression, moved⟩ := spellsMoved.expression
    refine comes_added (Arena.check_iff.mpr ⟨fun reference member => ?_, rfl⟩)
      fun _ id further added => .unary id _ operator _ added (spellsMoved.grown further)
    exact List.mem_singleton.mp member ▸ Arena.resolves_expression moved

/-- An operation is added if both of its sides were moved, the right one in the plan that the left
one left behind. The moved sides are over one source, so the plan accepts them. -/
theorem comes_binary {output : OutputSchema} {left right : Side} {operator : BinaryOperator}
    {expectedLeft expectedRight : Option Formula} {onLeft onRight : Building (Option Side)}
    (sides : left.expression?.isSome ∨ right.expression?.isSome)
    (movesLeft : Comes onLeft arena fun answer middle => SideAnswers target expectedLeft left answer
      middle ∧ Comes onRight middle fun answer last => SideAnswers target expectedRight right answer
        last ∧ last.Extends middle ∧ last.IsBuilt) :
    Comes (do
      let some left ← onLeft | return none
      let some right ← onRight | return none
      return some (← binary output left right operator)) arena
      (Answers target
        (expectedLeft.bind fun left => expectedRight.map fun right => .binary left right operator)) := by
  obtain ⟨_, middle, madeLeft, fitsLeft, _, last, madeRight, fitsRight, further, built⟩ := movesLeft
  refine .bind madeLeft ?_
  cases fitsLeft with
  | none => exact .pure .none
  | @some first movedLeft onLeft =>
    refine .bind madeRight ?_
    cases fitsRight with
    | none => exact .pure .none
    | @some second movedRight onRight =>
      have kept := onLeft.1.grown further
      have moved : movedLeft.expression?.isSome ∨ movedRight.expression?.isSome := by
        rwa [onLeft.2, onRight.2]
      refine comes_added ((built.check_binary_iff output).mpr
        ⟨moved, target, kept.hasSource built, onRight.1.hasSource built⟩) ?_
      exact fun _ id further added => .ofSides added moved (kept.grown further)
        (onRight.1.grown further)

/-- Moving an expression comes to its end. There is an answer exactly if the formula can be moved,
and it spells out the moved formula. -/
theorem comes_retargetWithin (limit : Nat) (built : arena.IsBuilt)
    (inside : target.index < arena.size) (offers : arena.Offers source target offered)
    (different : source ≠ target) (spells : arena.Spells source id formula)
    (enough : id.index < limit) :
    Comes (retargetWithin target limit id) arena (Answers target (formula.moved? offered)) := by
  induction limit generalizing arena id formula with
  | zero => omega
  | succ limit inductionHypothesis =>
    obtain ⟨expression, found⟩ := spells.expression
    obtain ⟨output, outputFound⟩ := spells.output
    have earlier {part : NodeId} (member : part ∈ expression.parts) : part.index < limit :=
      Nat.lt_of_lt_of_le (built.part_lt found member) (Nat.le_of_lt_succ enough)
    rw [retargetWithin]
    refine .get (.ask (spells.sourceOf built) ?_)
    rw [if_neg different]
    refine .look outputFound (.look found ?_)
    cases expression with
    | column named index =>
      cases spells.of_leaf found rfl
      exact comes_column index offers
    | constant | null =>
      cases spells.of_leaf found rfl
      exact comes_leaf offers rfl (arena.check_recorded output rfl)
    | unary operand operator =>
      obtain ⟨below, spellsBelow, rfl⟩ := spells.of_unary found
      exact comes_unary (inductionHypothesis built inside offers spellsBelow
        (earlier (List.mem_singleton_self operand)))
    | binary left right operator =>
      obtain ⟨sides, first, second, onLeft, onRight, rfl⟩ := spells.of_binary found
      obtain ⟨_, middle, madeLeft, fitsLeft⟩ := comes_moveSide onLeft fun part same spells =>
        inductionHypothesis built inside offers spells (earlier (Expression.left_part (same ▸ rfl)))
      obtain ⟨grownLeft, builtLeft⟩ :=
        madeLeft.grown (.moveSide (.retargetWithin target limit) left)
      obtain ⟨_, last, madeRight, fitsRight⟩ := comes_moveSide (onRight.grown grownLeft)
        fun part same spells => inductionHypothesis (builtLeft built)
          (Nat.lt_of_lt_of_le inside grownLeft.length_le) (offers.grown grownLeft inside) spells
          (earlier (Expression.right_part (same ▸ rfl)))
      obtain ⟨grownRight, builtRight⟩ :=
        madeRight.grown (.moveSide (.retargetWithin target limit) right)
      exact comes_binary sides ⟨_, middle, madeLeft, fitsLeft, _, last, madeRight, fitsRight,
        grownRight, builtRight (builtLeft built)⟩
    | aggregate | rowFunction =>
      cases spells.of_leaf found rfl
      exact .pure .none

/-- An expression is moved to another relation if its formula can be moved there. -/
theorem comes_retarget (built : arena.IsBuilt) (inside : target.index < arena.size)
    (offers : arena.Offers source target offered) (different : source ≠ target)
    (spells : arena.Spells source id formula) :
    Comes (retarget id target) arena (Answers target (formula.moved? offered)) := by
  have enough := spells.inside
  exact .get (comes_retargetWithin _ built inside offers different spells
    (by unfold Arena.walkLimit; omega))

/-- An expression that is over the target already is the answer itself. -/
theorem makes_retarget_same (found : arena.sourceOf id = .ok target) :
    Makes (retarget id target) arena (some id) arena := by
  refine (Makes.bindGet_iff _ _).mpr ?_
  rw [Arena.walkLimit, retargetWithin]
  refine (Makes.bindGet_iff _ _).mpr ((Makes.bindAsk_iff _ _ _).mpr ⟨target, found, ?_⟩)
  rw [if_pos rfl]
  rfl

end Building

namespace PlanCall

open Building (Makes)

/-- Over every list of calls, every expression and every node as the target: moving the expression
comes to an end, and the plan has only grown. The expression itself is the answer if the target is
its source, and nothing is added. For another target there is an answer exactly if this is a
projection of the source, no aggregate and no function is called, and each column that is referred
to is among those that the projection passes on. The answer then spells out the same formula, with
each column replaced by the first place at which it is passed on. -/
theorem retarget_exact (calls : List PlanCall) (id target source : NodeId)
    (found : (grown calls).sourceOf id = .ok source) (inside : target.index < (grown calls).size) :
    ∃ formula answer later, (grown calls).Spells source id formula ∧
      Makes (Building.retarget id target) (grown calls) answer later ∧
      later.Extends (grown calls) ∧
      (source = target → answer = some id ∧ later = grown calls) ∧
      (source ≠ target →
        (answer.isSome ↔ formula.IsPlain ∧ ∃ expressions,
          (grown calls).operator target = .ok (.projection source expressions) ∧
            ∀ index ∈ formula.columns, ∃ listed ∈ expressions,
              (grown calls).expression listed = .ok (.column source index)) ∧
        ∀ moved, answer = some moved → ∃ expressions,
          (grown calls).operator target = .ok (.projection source expressions) ∧
            later.Spells target moved (formula.through fun index =>
              expressions.findIdx ((grown calls).refersTo source index))) := by
  have built := grown_built calls
  generalize grown calls = arena at *
  obtain ⟨formula, spells⟩ := built.spells_sourceOf found
  by_cases different : source = target
  · subst different
    exact ⟨formula, some id, arena, spells, Building.makes_retarget_same found, .refl arena,
      fun _ => ⟨rfl, rfl⟩, fun different => absurd rfl different⟩
  -- Columns are looked for in the projection over the source. If the target is no such one, none is
  -- found.
  by_cases upon : ∃ expressions, arena.operator target = .ok (.projection source expressions)
  · obtain ⟨expressions, upon⟩ := upon
    obtain ⟨answer, later, made, answers⟩ := Building.comes_retarget built inside
      (built.offers_some upon) different spells
    refine ⟨formula, answer, later, spells, made, (made.grown (.retarget id target)).1,
      fun same => absurd same different, fun _ => ⟨?_, ?_⟩⟩
    · rw [answers.isSome_iff, Option.isSome_iff_exists]
      simp only [Arena.moved?_upon]
      constructor
      · rintro ⟨_, plain, listed, -⟩
        exact ⟨plain, expressions, upon, listed⟩
      · rintro ⟨plain, _, other, listed⟩
        cases upon.symm.trans other
        exact ⟨_, plain, listed, rfl⟩
    · rintro moved rfl
      refine ⟨expressions, upon, ?_⟩
      generalize expected : formula.moved? _ = result at answers
      cases answers with
      | some spellsMoved => rwa [((Arena.moved?_upon _ _ _ _).mp expected).2.2]
  · obtain ⟨answer, later, made, answers⟩ := Building.comes_retarget built inside
      (Arena.offers_none inside (not_exists.mp upon)) different spells
    rw [spells.not_moved] at answers
    cases answers
    exact ⟨formula, none, later, spells, made, (made.grown (.retarget id target)).1,
      fun same => absurd same different, fun _ => ⟨⟨nofun, fun ⟨_, expressions, other, _⟩ =>
        absurd ⟨expressions, other⟩ upon⟩, nofun⟩⟩

/-- A table of two columns, a projection that swaps them, the sum of the first column and one, and
the first column of the projection, one call after the other. -/
def swapping : List PlanCall :=
  let first : Field := ⟨"a", .int64, false⟩
  let second : Field := ⟨"b", .int64, false⟩
  let table : Batch := ⟨⟨[first, second]⟩, [[.int64 1, .int64 2], [.int64 3, .int64 4]], 2⟩
  [.tableScan table, .columns ⟨0⟩ [0, 1],
    .projection (.ofSchema ⟨[second, first]⟩) ⟨0⟩ [⟨2⟩, ⟨1⟩],
    .binary (.ofField first) (.expression ⟨1⟩) (.scalar (.int64 1)) .add, .column ⟨3⟩ 0]

/-- The sum of the first column and one is moved to the projection, where the column comes second.
-/
theorem swapping_retarget_exact :
    (grown swapping).sourceOf ⟨4⟩ = .ok ⟨0⟩ ∧ 3 < (grown swapping).size ∧
      ∃ later, Makes (Building.retarget ⟨4⟩ ⟨3⟩) (grown swapping) (some ⟨7⟩) later ∧
        later.Spells ⟨3⟩ ⟨7⟩ (.binary (.column 1) (.scalar (.int64 1)) .add) := by
  have found : (grown swapping).sourceOf ⟨4⟩ = .ok ⟨0⟩ := rfl
  have inside : 3 < (grown swapping).size := by decide
  refine ⟨found, inside, ?_⟩
  obtain ⟨formula, answer, later, spells, made, -, -, exact⟩ :=
    retarget_exact swapping ⟨4⟩ ⟨3⟩ ⟨0⟩ found inside
  have ran : Makes (Building.retarget ⟨4⟩ ⟨3⟩) (grown swapping) (some ⟨7⟩)
      ((Building.retarget ⟨4⟩ ⟨3⟩).run.run (grown swapping)).2 := rfl
  obtain ⟨rfl, -⟩ := made.unique ran
  obtain ⟨expressions, upon, spellsMoved⟩ := (exact (by decide)).2 ⟨7⟩ rfl
  obtain rfl : [⟨2⟩, ⟨1⟩] = expressions := by cases upon; rfl
  have sum : (grown swapping).Spells ⟨0⟩ ⟨4⟩ (.binary (.column 0) (.scalar (.int64 1)) .add) :=
    .ofSides rfl (.inl rfl) (Arena.Spells.leaf ⟨1⟩ _ _ rfl rfl) rfl
  obtain ⟨-, rfl⟩ := spells.unique sum
  exact ⟨later, made, spellsMoved⟩

end PlanCall

end Rankwise
