import Rankwise.Proofs.Lines

/-!
# Plans that work row by row

A plan works row by row if it is a chain of filters and projections above one scan of a table, and
their expressions need nothing but the row at hand (`Arena.IsChain`). Such a plan is a line
(`IsChain.isLine`).
-/

namespace Rankwise

/-- The formula has a value on a row of its own, whatever the other rows are. -/
def Formula.isRowWise : Formula → Bool
  | aggregate _ _ _ => false
  | rowFunction call => !call.hasState
  | unary operand _ => operand.isRowWise
  | binary left right _ => left.isRowWise && right.isRowWise
  | column _ | constant _ | null _ | scalar _ => true

/-- Whether the expression itself has a value on a row of its own, whatever the other rows are. -/
def Expression.needsRowOnly : Expression → Bool
  | aggregate _ _ _ _ => false
  | rowFunction call => !call.hasState
  | _ => true

namespace Arena

/-- The expression is over the rows of this relation and needs nothing but the row at hand. -/
def OnRows (arena : Arena) (source part : NodeId) : Prop :=
  ∃ formula, arena.Spells source part formula ∧ formula.isRowWise = true

/-- A chain of filters and projections above a scan, each working row by row on its own input. -/
inductive IsChain (arena : Arena) (scan : NodeId) : NodeId → Prop
  | scan (operator : Operator) (found : arena.operator scan = .ok operator)
      (scans : operator.scansTable = true) : arena.IsChain scan scan
  | filter (id source predicate : NodeId)
      (found : arena.operator id = .ok (.filter source predicate))
      (own : arena.OnRows source predicate) (below : arena.IsChain scan source) :
      arena.IsChain scan id
  | projection (id source : NodeId) (expressions : List NodeId)
      (found : arena.operator id = .ok (.projection source expressions))
      (own : ∀ part ∈ expressions, arena.OnRows source part) (below : arena.IsChain scan source) :
      arena.IsChain scan id

variable {arena : Arena} {scan root source id : NodeId} {formula : Formula}

/-- An expression of a formula that works row by row needs nothing but the row at hand, and neither
do its parts. -/
theorem Spells.isOver (spells : arena.Spells source id formula) (rowWise : formula.isRowWise = true) :
    arena.IsOver Expression.needsRowOnly source id := by
  have names {id : NodeId} {formula : Formula} (spells : arena.Spells source id formula)
      {expression : Expression} (found : arena.expression id = .ok expression) (relation : NodeId)
      (sourced : expression.source? = some relation) : relation = source :=
    spells.source?_eq found sourced
  induction spells with
  | leaf id expression formula found leaf =>
    refine .intro id expression found ?_ (names (.leaf id expression formula found leaf) found) ?_
    · cases expression with
      | aggregate =>
        cases leaf
        cases rowWise
      | rowFunction =>
        cases leaf
        exact rowWise
      | column | constant | null | unary | binary => rfl
    · cases expression with
      | unary | binary => cases leaf
      | column | constant | null | aggregate | rowFunction => exact List.forall_mem_nil _
  | unary id operand operator formula found _ inductionHypothesis =>
    refine .intro id _ found rfl (fun _ wrong => by cases wrong) ?_
    exact List.forall_mem_singleton.mpr (inductionHypothesis rowWise)
  | binary id left right operator first second found _ _ _ _ _ onLeft onRight =>
    obtain ⟨rowWiseLeft, rowWiseRight⟩ := (Bool.and_eq_true _ _).mp rowWise
    refine .intro id _ found rfl (fun _ wrong => by cases wrong) fun part member => ?_
    obtain ⟨side, either, same⟩ := List.mem_filterMap.mp member
    cases side with
    | scalar value => cases same
    | expression other =>
      cases same
      rcases List.mem_cons.mp either with rfl | last
      · exact onLeft part rfl rowWiseLeft
      · obtain rfl := List.mem_singleton.mp last
        exact onRight part rfl rowWiseRight

/-- What needs only a row is over that relation as a whole. -/
theorem OnRows.isOver (own : arena.OnRows source id) :
    arena.IsOver Expression.needsRowOnly source id := by
  obtain ⟨formula, spells, rowWise⟩ := own
  exact spells.isOver rowWise

/-- A chain is a line. -/
theorem IsChain.isLine (chain : arena.IsChain scan root) : arena.IsLine scan root := by
  have isOver {source part : NodeId} (own : arena.OnRows source part) :
      arena.IsOver (fun _ => true) source part := own.isOver.weaken fun _ _ => rfl
  induction chain with
  | scan operator found scans => exact .scan operator found scans
  | filter id source predicate found own _ inductionHypothesis =>
    exact .step id source _ found rfl (List.forall_mem_singleton.mpr (isOver own)) inductionHypothesis
  | projection id source expressions found own _ inductionHypothesis =>
    exact .step id source _ found rfl (fun part member => isOver (own part member)) inductionHypothesis

/-- A chain can be shown. -/
theorem IsChain.displays (chain : arena.IsChain scan root) (built : arena.IsBuilt)
    (names : LazyNames) : ∃ text, arena.display names root = .ok text :=
  chain.isLine.displays built names

end Arena

end Rankwise
