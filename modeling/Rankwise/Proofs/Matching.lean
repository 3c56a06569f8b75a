import Rankwise.Proofs.Movability

/-!
# Sides brought together

The sides of a binary expression are brought over one source by moving the left one, or else the
right one. Whether an expression can be moved does not depend on what was added to the plan in
between (`isStuck_grown`), so the attempt with the right side comes out as if there had been no
other before it. The source that a moved side has is the one that the plan finds for the other side,
so every operation can be made of the two (`comes_matchSources`). That moving never fails takes a
plan of which the recorded sources are there, since the source of one side is the target for the
other (`matchSources_exact`).
-/

namespace Rankwise

namespace Arena

variable {arena : Arena} {source id : NodeId} {formula : Formula}

/-- Every source that a constant or a null records is a relation of the plan. -/
def IsFounded (arena : Arena) : Prop :=
  ∀ place node, arena.nodes[NodeId.index place]? = some node →
    ∀ source, node.content.recorded? = some source → arena.Resolves (.source, source)

/-- The source of an expression is a relation of the plan if the recorded ones are. -/
theorem Spells.source_resolves (spells : arena.Spells source id formula) (built : arena.IsBuilt)
    (founded : arena.IsFounded) : arena.Resolves (.source, source) := by
  induction spells with
  | leaf id expression formula found names =>
    obtain ⟨node, there, content⟩ := (expression_iff expression).mp found
    have named : expression.source? = some source := Expression.source?_of_leaf names
    have mentioned : (.source, source) ∈ node.mentions := by
      rw [Node.mentions, content, Node.Content.mentions, named]
      exact List.mem_cons_self
    rcases (node.mentions_iff _).mp mentioned with referred | ⟨recorded, recordedThere, same⟩
    · exact (built.resolves there _ referred).2
    · obtain rfl := (Prod.mk.inj same).2
      exact founded id node there _ recordedThere
  | unary _ _ _ _ _ _ inductionHypothesis => exact inductionHypothesis
  | binary id left right operator first second found sides _ _ _ _ onLeft onRight =>
    cases left with
    | expression part => exact onLeft part rfl
    | scalar value =>
      cases right with
      | expression part => exact onRight part rfl
      | scalar _ => rcases sides with none | none <;> cases none

end Arena

namespace Building

variable {arena later : Arena} {source target id : NodeId} {formula : Formula} {left right : Side}
  {offered : Option (Nat → Option Nat)}

/-- Moving the expression comes to its end without a result. -/
def IsStuck (arena : Arena) (id target : NodeId) : Prop :=
  ∃ later, Makes (retarget id target) arena none later

/-- Every operation can be made of the two sides. -/
def Combine (arena : Arena) (left right : Side) : Prop :=
  ∀ output operator, ∃ id later, Makes (binary output left right operator) arena id later

/-- Sides over one source can be combined. -/
theorem Combine.ofSource (built : arena.IsBuilt)
    (sides : left.expression?.isSome ∨ right.expression?.isSome)
    (heldLeft : arena.HasSource source left) (heldRight : arena.HasSource source right) :
    Combine arena left right := fun output operator =>
  (makes_binary_iff output left right operator).mpr
    ((built.check_binary_iff output).mpr ⟨sides, source, heldLeft, heldRight⟩)

/-- Moving an expression comes to its end, and what was moved is over the target then. -/
theorem comes_over (built : arena.IsBuilt) (inside : target.index < arena.size)
    (found : arena.sourceOf id = .ok source) :
    Comes (retarget id target) arena fun answer later => later.Extends arena ∧ later.IsBuilt ∧
      ∀ moved, answer = some moved → later.HasSource target (.expression moved) := by
  have ends : ∃ answer later, Makes (retarget id target) arena answer later := by
    by_cases same : source = target
    · subst same
      exact ⟨some id, arena, makes_retarget_same found⟩
    · obtain ⟨formula, spells⟩ := built.spells_sourceOf found
      obtain ⟨offered, offers⟩ := built.offers inside source
      obtain ⟨answer, later, made, -⟩ := comes_retarget built inside offers same spells
      exact ⟨answer, later, made⟩
  obtain ⟨answer, later, made⟩ := ends
  obtain ⟨further, builtLater⟩ := made.grown (.retarget id target)
  refine ⟨answer, later, made, further, builtLater built, ?_⟩
  rintro moved rfl
  exact (moves_retarget built made).source

/-- An expression cannot be moved exactly if the target is another relation and its formula cannot
be moved there. -/
theorem isStuck_iff (built : arena.IsBuilt) (inside : target.index < arena.size)
    (offers : arena.Offers source target offered) (spells : arena.Spells source id formula) :
    IsStuck arena id target ↔ source ≠ target ∧ formula.moved? offered = none := by
  by_cases same : source = target
  · subst same
    have made := makes_retarget_same (spells.sourceOf built)
    exact iff_of_false (fun ⟨_, stuck⟩ => nomatch (made.unique stuck).1)
      fun ⟨different, _⟩ => different rfl
  obtain ⟨answer, later, made, answers⟩ := comes_retarget built inside offers same spells
  generalize formula.moved? offered = expected at answers
  cases answers with
  | none => exact iff_of_true ⟨later, made⟩ ⟨same, rfl⟩
  | some spellsMoved =>
    exact iff_of_false (fun ⟨_, stuck⟩ => nomatch (made.unique stuck).1) nofun

/-- Whether an expression can be moved is the same when the plan has grown. -/
theorem isStuck_grown (built : arena.IsBuilt) (builtLater : later.IsBuilt)
    (further : later.Extends arena) (inside : target.index < arena.size)
    (found : arena.sourceOf id = .ok source) :
    IsStuck later id target ↔ IsStuck arena id target := by
  obtain ⟨formula, spells⟩ := built.spells_sourceOf found
  obtain ⟨offered, offers⟩ := built.offers inside source
  rw [isStuck_iff built inside offers spells, isStuck_iff builtLater
    (Nat.lt_of_lt_of_le inside further.length_le) (offers.grown further inside)
    (spells.grown further)]

/-- Two expressions are brought over one source, unless neither can be moved to that of the other.
One of them stays as it is, and every operation can be made of the two. -/
theorem comes_matchSources {first second firstSource secondSource : NodeId} (built : arena.IsBuilt)
    (founded : arena.IsFounded) (foundFirst : arena.sourceOf first = .ok firstSource)
    (foundSecond : arena.sourceOf second = .ok secondSource) :
    Comes (matchSources (.expression first) (.expression second)) arena fun answer later =>
      later.Extends arena ∧
      (∀ matched, answer = some matched →
        (matched.1 = .expression first ∨ matched.2 = .expression second) ∧
          Combine later matched.1 matched.2) ∧
      (answer = none ↔ IsStuck arena first secondSource ∧ IsStuck arena second firstSource) := by
  obtain ⟨_, spellsFirst⟩ := built.spells_sourceOf foundFirst
  obtain ⟨_, spellsSecond⟩ := built.spells_sourceOf foundSecond
  have insideFirst := (spellsFirst.source_resolves built founded).inside
  have insideSecond := (spellsSecond.source_resolves built founded).inside
  obtain ⟨answer, middle, made, further, builtMiddle, moves⟩ := comes_over built insideSecond foundFirst
  have keeps {side : Side} {source : NodeId} (held : arena.HasSource source side) :
      middle.HasSource source side := held.grown built builtMiddle further
  have heldFirst : middle.HasSource firstSource (.expression first) := keeps foundFirst
  have heldSecond : middle.HasSource secondSource (.expression second) := keeps foundSecond
  refine .get (.ask foundSecond (.bind made ?_))
  cases answer with
  | some moved =>
    refine .pure ⟨further, ?_, nofun, fun ⟨⟨_, stuck⟩, _⟩ => nomatch (made.unique stuck).1⟩
    rintro matched ⟨⟩
    exact ⟨.inr rfl, .ofSource builtMiddle (.inl rfl) (moves moved rfl) heldSecond⟩
  | none =>
    have stuckFirst : IsStuck arena first secondSource := ⟨middle, made⟩
    -- The attempt has only added nodes, so the other side cannot be moved now if it could not be
    -- before.
    have sameVerdict := isStuck_grown built builtMiddle further insideFirst foundSecond
    obtain ⟨answer, last, madeToo, furtherStill, builtLast, movesToo⟩ := comes_over builtMiddle
      (Nat.lt_of_lt_of_le insideFirst further.length_le) heldSecond
    refine .get (.ask heldFirst (.bind madeToo ?_))
    cases answer with
    | some moved =>
      refine .pure ⟨furtherStill.trans further, ?_, nofun, fun ⟨_, stuck⟩ => ?_⟩
      · rintro matched ⟨⟩
        exact ⟨.inl rfl, .ofSource builtLast (.inl rfl)
          (heldFirst.grown builtMiddle builtLast furtherStill) (movesToo moved rfl)⟩
      · obtain ⟨_, stuck⟩ := sameVerdict.mpr stuck
        cases (madeToo.unique stuck).1
    | none =>
      exact .pure ⟨furtherStill.trans further, nofun,
        fun _ => ⟨stuckFirst, sameVerdict.mp ⟨last, madeToo⟩⟩, fun _ => rfl⟩

end Building

namespace PlanCall

open Building (Makes Combine IsStuck)

/-- Over every list of calls that comes to a plan of which the recorded sources are there, and every
two sides of which one is an expression at least and of which the expressions are there: bringing
them together comes to an end, and the plan has only grown. If there is a result, one of the sides
is as it was and every operation can be made of the two. There is none exactly if both are
expressions and neither can be moved to the source of the other. -/
theorem matchSources_exact (calls : List PlanCall) (founded : (grown calls).IsFounded)
    (left right : Side) (sides : left.expression?.isSome ∨ right.expression?.isSome)
    (there : ∀ part, left = .expression part ∨ right = .expression part →
      ∃ expression, (grown calls).expression part = .ok expression) :
    ∃ answer later, Makes (Building.matchSources left right) (grown calls) answer later ∧
      later.Extends (grown calls) ∧
      (∀ matched, answer = some matched →
        (matched.1 = left ∨ matched.2 = right) ∧ Combine later matched.1 matched.2) ∧
      (answer = none ↔ ∃ first second firstSource secondSource,
        left = .expression first ∧ right = .expression second ∧
          (grown calls).sourceOf first = .ok firstSource ∧
          (grown calls).sourceOf second = .ok secondSource ∧
          IsStuck (grown calls) first secondSource ∧ IsStuck (grown calls) second firstSource) := by
  have built := grown_built calls
  generalize grown calls = arena at *
  have source {part : NodeId} (either : left = .expression part ∨ right = .expression part) :
      ∃ source, arena.sourceOf part = .ok source := by
    obtain ⟨expression, found⟩ := there part either
    obtain ⟨source, formula, spells⟩ := built.spells found
    exact ⟨source, spells.sourceOf built⟩
  cases left with
  | expression first =>
    obtain ⟨firstSource, foundFirst⟩ := source (.inl rfl)
    cases right with
    | expression second =>
      obtain ⟨secondSource, foundSecond⟩ := source (.inr rfl)
      obtain ⟨answer, later, made, further, matched, verdict⟩ :=
        Building.comes_matchSources built founded foundFirst foundSecond
      refine ⟨answer, later, made, further, matched, verdict.trans ⟨fun ⟨stuck, stuckToo⟩ =>
        ⟨first, second, firstSource, secondSource, rfl, rfl, foundFirst, foundSecond, stuck,
          stuckToo⟩, ?_⟩⟩
      rintro ⟨_, _, _, _, ⟨⟩, ⟨⟩, same, sameToo, stuck⟩
      cases foundFirst.symm.trans same
      cases foundSecond.symm.trans sameToo
      exact stuck
    | scalar value =>
      refine ⟨some (.expression first, .scalar value), arena, rfl, .refl arena, ?_, nofun, nofun⟩
      rintro matched ⟨⟩
      exact ⟨.inl rfl, .ofSource built sides foundFirst trivial⟩
  | scalar value =>
    cases right with
    | expression second =>
      obtain ⟨secondSource, foundSecond⟩ := source (.inr rfl)
      refine ⟨some (.scalar value, .expression second), arena, rfl, .refl arena, ?_, nofun, nofun⟩
      rintro matched ⟨⟩
      exact ⟨.inl rfl, .ofSource built sides trivial foundSecond⟩
    | scalar _ => exact sides.elim nofun nofun

/-- The same calls, and one for a constant over the table. -/
def numbering : List PlanCall :=
  swapping ++ [.constant (.ofField ⟨"n", .int64, true⟩) ⟨0⟩ (.int64 2)]

/-- The first column of the projection cannot be moved to the table, but the constant can be moved
to the projection. -/
theorem numbering_matchSources_exact :
    (grown numbering).IsFounded ∧
      ∃ later, Makes (Building.matchSources (.expression ⟨5⟩) (.expression ⟨6⟩)) (grown numbering)
        (some (.expression ⟨5⟩, .expression ⟨7⟩)) later ∧
        Combine later (.expression ⟨5⟩) (.expression ⟨7⟩) := by
  have founded : (grown numbering).IsFounded := by
    rintro ⟨_ | _ | _ | _ | _ | _ | _ | _⟩ node found source named <;> cases found <;> cases named
    exact ⟨_, rfl, by decide⟩
  obtain ⟨answer, later, made, -, matched, -⟩ := matchSources_exact numbering founded
    (.expression ⟨5⟩) (.expression ⟨6⟩) (.inl rfl) fun part either => by
      rcases either with same | same <;> cases same <;> exact ⟨_, rfl⟩
  have ran : Makes (Building.matchSources (.expression ⟨5⟩) (.expression ⟨6⟩)) (grown numbering)
      (some (.expression ⟨5⟩, .expression ⟨7⟩)) _ := rfl
  obtain ⟨rfl, -⟩ := made.unique ran
  exact ⟨founded, later, made, (matched _ rfl).2⟩

end PlanCall

end Rankwise
