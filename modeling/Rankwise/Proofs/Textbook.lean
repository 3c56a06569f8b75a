import Mathlib.Algebra.GroupWithZero.Nat
import Rankwise.Plan.Cardinality
import Rankwise.Proofs.Practices

/-!
# Plans by the book

What filters, projections, limits and orders make of the rows of the relation below them is in every
textbook, once it is known what expressions, conditions and sort keys mean. `Arena.Yields` says what
a plan of such operators above one scan makes of the rows of its table. The number of rows that
follows from such a plan alone is that of the textbook (`Yields.staticRows`). Where there are no
limits, as many rows come of several tables together as of each of them (`Yields.length_flatten`).
-/

namespace Rankwise

variable {ε η : Type}

/-- What expressions, conditions and sort keys mean, and what the handles of an engine stand for. -/
structure Textbook (ε η : Type) extends RowMeaning ε η where
  /-- Whether the first row may stand before the second one. -/
  before : List SortKey → Row → Row → Bool

namespace Textbook

variable (textbook : Textbook ε η)

/-- What an operator makes of the rows of the relation below it. -/
def change? : Operator → Option (List Row → List Row)
  | .filter _ predicate =>
    some (List.filter fun row => textbook.passes (textbook.value predicate row))
  | .projection _ expressions =>
    some (List.map fun row => expressions.map fun part => textbook.value part row)
  | .limit _ count offset => some fun rows => (rows.drop offset).take count
  | .order _ keys => some fun rows => rows.mergeSort (textbook.before keys)
  | _ => none

variable {textbook} {operator : Operator} {change : List Row → List Row}

/-- No operator of a line gives more rows than it takes. -/
theorem length_change_le (changes : textbook.change? operator = some change) (rows : List Row) :
    (change rows).length ≤ rows.length := by
  cases operator with
  | filter =>
    obtain rfl := Option.some.inj changes
    exact List.length_filter_le _ _
  | projection =>
    obtain rfl := Option.some.inj changes
    exact Nat.le_of_eq (List.length_map _)
  | limit _ count offset =>
    obtain rfl := Option.some.inj changes
    exact (List.length_take_le' _ _).trans (List.length_drop.trans_le (Nat.sub_le _ _))
  | order =>
    obtain rfl := Option.some.inj changes
    exact Nat.le_of_eq (List.length_mergeSort _)
  | _ => cases changes

/-- Rows are dealt with one by one, up to their order. -/
structure IsByRows (change : List Row → List Row) : Prop where
  append : ∀ above below, (change (above ++ below)).Perm (change above ++ change below)
  perm : ∀ rows others, rows.Perm others → (change rows).Perm (change others)

/-- All but limits deal with rows one by one. -/
theorem isByRows (changes : textbook.change? operator = some change)
    (unlimited : ∀ source count offset, operator ≠ .limit source count offset) :
    IsByRows change := by
  cases operator with
  | limit source count offset => exact absurd rfl (unlimited source count offset)
  | filter =>
    obtain rfl := Option.some.inj changes
    exact ⟨fun above below => by rw [List.filter_append], fun _ _ same => same.filter _⟩
  | projection =>
    obtain rfl := Option.some.inj changes
    exact ⟨fun above below => by rw [List.map_append], fun _ _ same => same.map _⟩
  | order _ keys =>
    obtain rfl := Option.some.inj changes
    have sorted (rows : List Row) : (rows.mergeSort (textbook.before keys)).Perm rows :=
      List.mergeSort_perm _ _
    refine ⟨fun above below => (sorted _).trans ?_, fun rows others same => ?_⟩
    · exact ((sorted above).append (sorted below)).symm
    · exact (sorted rows).trans (same.trans (sorted others).symm)
  | _ => cases changes

/-- Rows dealt with one by one can be dealt with part by part. -/
theorem IsByRows.flatMap (byRows : IsByRows change) (nothing : change [] = [])
    (parts : List (List Row)) : (change parts.flatten).Perm (parts.flatMap change) := by
  induction parts with
  | nil => rw [List.flatten_nil, nothing, List.flatMap_nil]
  | cons part rest inductionHypothesis =>
    rw [List.flatten_cons, List.flatMap_cons]
    exact (byRows.append part rest.flatten).trans (inductionHypothesis.append_left _)

end Textbook

/-- The number of rows that a scan is said to have. -/
def Operator.declaredRows : Operator → Nat
  | tableScan table => table.rows
  | partitionScan _ rows => rows
  | _ => 0

namespace Arena

/-- The node is one of a line of filters, projections, limits and orders, and this is what it makes
of the rows of the scan. Expressions need nothing but the row at hand. -/
inductive Yields (arena : Arena) (textbook : Textbook ε η) (scan : NodeId) :
    NodeId → (List Row → List Row) → Prop
  | scan (operator : Operator) (found : arena.operator scan = .ok operator)
      (scans : operator.scansTable = true) : arena.Yields textbook scan scan fun rows => rows
  | step (id source : NodeId) (operator : Operator) (change before : List Row → List Row)
      (found : arena.operator id = .ok operator) (single : operator.inputs = [source])
      (changes : textbook.change? operator = some change)
      (own : ∀ part ∈ operator.expressions, arena.OnRows source part)
      (below : arena.Yields textbook scan source before) :
      arena.Yields textbook scan id fun rows => change (before rows)

/-- No operator cuts off rows below this node. -/
def IsUnlimited (arena : Arena) (root : NodeId) : Prop :=
  ∀ id source count offset, arena.Reaches root id →
    arena.operator id ≠ .ok (.limit source count offset)

variable {arena : Arena} {textbook : Textbook ε η} {scan root : NodeId} {operator : Operator}
  {change : List Row → List Row}

namespace Yields

/-- A plan that yields rows is a line. -/
theorem isLine (yields : arena.Yields textbook scan root change) : arena.IsLine scan root := by
  induction yields with
  | scan operator found scans => exact .scan operator found scans
  | step id source operator _ _ found single _ own _ inductionHypothesis =>
    exact .step id source operator found single
      (fun part member => (own part member).isOver.weaken fun _ _ => rfl) inductionHypothesis

/-- A line gives no more rows than its scan. -/
theorem length_le (yields : arena.Yields textbook scan root change) (rows : List Row) :
    (change rows).length ≤ rows.length := by
  induction yields with
  | scan => exact Nat.le_refl _
  | step _ _ _ change before _ _ changes _ _ inductionHypothesis =>
    exact (Textbook.length_change_le changes (before rows)).trans inductionHypothesis

/-- Of no rows it gives none. -/
theorem nothing (yields : arena.Yields textbook scan root change) : change [] = [] :=
  List.eq_nil_of_length_eq_zero (Nat.le_zero.mp (yields.length_le []))

/-- Without limits the whole line deals with rows one by one. -/
theorem isByRows (yields : arena.Yields textbook scan root change)
    (unlimited : arena.IsUnlimited root) : Textbook.IsByRows change := by
  induction yields with
  | scan => exact ⟨fun _ _ => List.Perm.refl _, fun _ _ same => same⟩
  | step id source operator change before found single changes own below inductionHypothesis =>
    have leads : arena.Refers id source := by
      refine (refers_operator found).mpr (List.mem_append_left _ ?_)
      rw [single]
      exact List.mem_singleton_self source
    have earlier := inductionHypothesis fun other _ count offset reaches =>
      unlimited other _ count offset (.head leads reaches)
    have here := Textbook.isByRows changes fun _ count offset same =>
      unlimited id _ count offset .refl (same ▸ found)
    refine ⟨fun above below => ?_, fun rows others same => here.perm _ _ (earlier.perm _ _ same)⟩
    exact (here.perm _ _ (earlier.append above below)).trans (here.append _ _)

/-- Without limits, as many rows come of several tables together as of each of them. -/
theorem length_flatten (yields : arena.Yields textbook scan root change)
    (unlimited : arena.IsUnlimited root) (parts : List (List Row)) :
    (change parts.flatten).length = (parts.map fun part => (change part).length).sum := by
  rw [((yields.isByRows unlimited).flatMap yields.nothing parts).length_eq, List.length_flatMap]

end Yields

/-! The number of rows that follows from the plan alone. -/

/-- What needs only a row is no aggregate. -/
theorem OnRows.not_isAggregate {source part : NodeId} (own : arena.OnRows source part) :
    ∃ expression, arena.expression part = .ok expression ∧ expression.isAggregate = false := by
  cases own.isOver with
  | intro _ expression found admitted =>
    refine ⟨expression, found, ?_⟩
    cases expression with
    | aggregate => cases admitted
    | _ => rfl

/-- So no aggregate is found among such expressions. -/
theorem anyAggregate_eq {source : NodeId} {expressions : List NodeId}
    (own : ∀ part ∈ expressions, arena.OnRows source part) :
    arena.anyAggregate expressions = .ok false := by
  induction expressions with
  | nil => rfl
  | cons part rest inductionHypothesis =>
    obtain ⟨here, others⟩ := List.forall_mem_cons.mp own
    obtain ⟨expression, found, plain⟩ := here.not_isAggregate
    rw [anyAggregate, found]
    simp only [Bind.bind, Except.bind, plain]
    exact inductionHypothesis others

/-- The number of rows that follows from the plan for an operator, given those for its inputs. -/
def staticRowsOf (arena : Arena) (below : NodeId → Except Stop (Option Nat)) :
    Operator → Except Stop (Option Nat)
  | .tableScan table => .ok (some table.rows)
  | .partitionScan _ rows => .ok (some rows)
  | .projection source expressions => do
    if ← arena.anyAggregate expressions then return none
    below source
  | .order source _ => below source
  | .limit source count offset => do
    return (← below source).map fun rows => min (rows - offset) count
  | _ => .ok none

/-- The number of rows of an operator follows from those of its inputs. -/
theorem staticRowsWithin_operator {id : NodeId} (limit : Nat)
    (found : arena.operator id = .ok operator) :
    arena.staticRowsWithin (limit + 1) id =
      arena.staticRowsOf (arena.staticRowsWithin limit) operator := by
  obtain ⟨node, there, content⟩ := (operator_iff operator).mp found
  have isExpression : arena.isExpression id = false := by
    rw [Arena.isExpression, there, Option.any_some, Node.isExpression, content]
  rw [staticRowsWithin, isExpression, found]
  cases operator <;> rfl

/-- What follows from the plan alone is how many rows the plan gives. -/
theorem Yields.staticRows (yields : arena.Yields textbook scan root change)
    (forward : arena.IsForward) (found : arena.operator scan = .ok operator) :
    ∃ known, arena.staticRows root = .ok known ∧ ∀ count ∈ known, ∀ rows : List Row,
      rows.length = operator.declaredRows → (change rows).length = count := by
  have within (limit : Nat) (enough : root.index < limit) :
      ∃ known, arena.staticRowsWithin limit root = .ok known ∧ ∀ count ∈ known, ∀ rows : List Row,
        rows.length = operator.declaredRows → (change rows).length = count := by
    -- Along the line, from the scan up to the root. The limit only has to be beyond the place of
    -- the node.
    induction yields generalizing limit with
    | scan above foundToo scans =>
      obtain ⟨limit, rfl⟩ := Nat.exists_eq_add_of_lt enough
      obtain rfl := Except.ok.inj (found.symm.trans foundToo)
      rw [staticRowsWithin_operator _ found]
      cases operator with
      | tableScan table | partitionScan table =>
        refine ⟨_, rfl, ?_⟩
        rintro count ⟨⟩ rows declared
        exact declared
      | _ => cases scans
    | step id source above change before foundHere single changes own below inductionHypothesis =>
      obtain ⟨limit, rfl⟩ := Nat.exists_eq_add_of_lt enough
      have earlier : source.index < id.index := by
        refine forward id source ((refers_operator foundHere).mpr (List.mem_append_left _ ?_))
        rw [single]
        exact List.mem_singleton_self source
      obtain ⟨known, follows, right⟩ := inductionHypothesis (id.index + limit) (by omega)
      rw [staticRowsWithin_operator _ foundHere]
      cases above with
      | filter =>
        exact ⟨none, rfl, fun _ wrong => by cases wrong⟩
      | projection below expressions =>
        obtain rfl := List.singleton_inj.mp single
        obtain rfl := Option.some.inj changes
        refine ⟨known, ?_, fun count listed rows declared => ?_⟩
        · have plain : arena.anyAggregate expressions = .ok false := anyAggregate_eq own
          rw [staticRowsOf, plain]
          exact follows
        · rw [List.length_map]
          exact right count listed rows declared
      | order below keys =>
        obtain rfl := List.singleton_inj.mp single
        obtain rfl := Option.some.inj changes
        refine ⟨known, follows, fun count listed rows declared => ?_⟩
        rw [List.length_mergeSort]
        exact right count listed rows declared
      | limit below most offset =>
        obtain rfl := List.singleton_inj.mp single
        obtain rfl := Option.some.inj changes
        refine ⟨known.map fun rows => min (rows - offset) most, ?_, fun count listed rows declared => ?_⟩
        · rw [staticRowsOf, follows]
          rfl
        · obtain ⟨all, follow, rfl⟩ := Option.map_eq_some_iff.mp listed
          rw [List.length_take, List.length_drop, right all follow rows declared, Nat.min_comm]
      | _ => cases changes
  exact within arena.walkLimit (by have := yields.isLine.inside; unfold walkLimit; omega)

end Arena

end Rankwise
