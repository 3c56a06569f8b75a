import Rankwise.Proofs.Sources
import Rankwise.Proofs.Textbook

/-!
# Known numbers of rows

What a plan gives is told relation by relation: a scan gives the rows of its table, sorting keeps
the rows of the relation below, a limit cuts them, and a projection turns each of them into another
one, or all of them into a single one if an aggregate is called anywhere within its expressions
(`Arena.Gives`). The number of rows that follows from the plan alone looks for aggregates among the
expressions of a projection, and not within them.

On the way down from a relation, sorting, limits and projections without aggregates make the same of
the known number as of the rows that are given (`Cuts.staticRows`, `Cuts.gives`). This goes on down
to a scan, whose number of rows is known, or to a projection that calls an aggregate within an
expression. There the known number is that of the relation below, and one row is given. So the known
number is the right one, unless there is such a projection whose single row the limits above it tell
from the rows of the relation below it (`staticRows_exact`).
-/

namespace Rankwise

namespace Arena

variable {ν : Type} {arena : Arena} {meaning : Meaning ν} {frame : LazyTable → List (List ν)}
  {id low root source : NodeId} {cut : Nat → Nat} {rows : List (List ν)} {known : Nat}
  {operator : Operator}

/-- An aggregate is called somewhere within one of the expressions. -/
def Aggregates (arena : Arena) (expressions : List NodeId) : Prop :=
  ∃ whole ∈ expressions, ∃ part, Relation.ReflTransGen arena.HasPart whole part ∧
    ∃ expression, arena.expression part = .ok expression ∧ expression.isAggregate = true

/-- The expressions spell out these formulas, one by one. -/
def SpellOut (arena : Arena) (expressions : List NodeId) (formulas : List Formula) : Prop :=
  List.Forall₂ (fun id formula => ∃ source, arena.Spells source id formula) expressions formulas

/-- What an operator makes of the rows of the relations below it. Of a row that is made of all rows,
only the aggregates are determined. Of the operators that nothing is known about, any rows may come.
-/
def OperatorGives (arena : Arena) (meaning : Meaning ν) (frame : LazyTable → List (List ν))
    (below : NodeId → List (List ν)) : Operator → List (List ν) → Prop
  | .tableScan table, rows => rows = table.rowList.map (List.map meaning.scalar)
  | .partitionScan table _, rows => rows = frame table
  | .order source _, rows => rows.Perm (below source)
  | .limit source count offset, rows => rows = ((below source).drop offset).take count
  | .projection source expressions, rows =>
    ∃ formulas, arena.SpellOut expressions formulas ∧
      (¬ arena.Aggregates expressions → rows = (below source).map fun row =>
        formulas.map (Formula.value meaning (below source) row)) ∧
      (arena.Aggregates expressions →
        ∃ row, rows = [formulas.map (Formula.value meaning (below source) row)])
  | _, _ => True

/-- The rows that a relation gives. -/
inductive Gives (arena : Arena) (meaning : Meaning ν) (frame : LazyTable → List (List ν)) :
    NodeId → List (List ν) → Prop
  | intro (id : NodeId) (operator : Operator) (below : NodeId → List (List ν)) (rows : List (List ν))
      (found : arena.operator id = .ok operator)
      (inputs : ∀ input ∈ operator.inputs, arena.Gives meaning frame input (below input))
      (makes : arena.OperatorGives meaning frame below operator rows) :
      arena.Gives meaning frame id rows

/-- What of a number of rows at the lower relation is left at the upper one, if there are but
orders, limits and projections without aggregates from the one to the other. -/
inductive Cuts (arena : Arena) (low : NodeId) : NodeId → (Nat → Nat) → Prop
  | here : arena.Cuts low low fun rows => rows
  | order (id source : NodeId) (keys : List SortKey) (cut : Nat → Nat)
      (found : arena.operator id = .ok (.order source keys)) (below : arena.Cuts low source cut) :
      arena.Cuts low id cut
  | projection (id source : NodeId) (expressions : List NodeId) (cut : Nat → Nat)
      (found : arena.operator id = .ok (.projection source expressions))
      (plain : ¬ arena.Aggregates expressions) (below : arena.Cuts low source cut) :
      arena.Cuts low id cut
  | limit (id source : NodeId) (count offset : Nat) (cut : Nat → Nat)
      (found : arena.operator id = .ok (.limit source count offset))
      (below : arena.Cuts low source cut) :
      arena.Cuts low id fun rows => min (cut rows - offset) count

/-- A projection that calls an aggregate somewhere within its expressions. -/
def IsAggregating (arena : Arena) (id : NodeId) : Prop :=
  ∃ source expressions, arena.operator id = .ok (.projection source expressions) ∧
    arena.Aggregates expressions

/-- A scan of a table. -/
def IsScan (arena : Arena) (id : NodeId) : Prop :=
  ∃ operator, arena.operator id = .ok operator ∧ operator.scansTable = true

/-! What is given. -/

/-- What gives rows is a relation. -/
theorem Gives.isRelation (gives : arena.Gives meaning frame id rows) :
    ∃ operator, arena.operator id = .ok operator := by
  obtain ⟨_, operator, _, _, found⟩ := gives
  exact ⟨operator, found⟩

/-- The rows that a relation gives are made by its operator. -/
theorem Gives.of_operator (gives : arena.Gives meaning frame id rows)
    (found : arena.operator id = .ok operator) :
    ∃ below, (∀ input ∈ operator.inputs, arena.Gives meaning frame input (below input)) ∧
      arena.OperatorGives meaning frame below operator rows := by
  obtain ⟨_, other, below, _, foundToo, inputs, makes⟩ := gives
  obtain rfl := Except.ok.inj (found.symm.trans foundToo)
  exact ⟨below, inputs, makes⟩

/-- Whatever the relations below it give, an operator of a plan that was built makes some rows of
it. -/
theorem IsBuilt.operatorGives (built : arena.IsBuilt) (found : arena.operator id = .ok operator)
    (meaning : Meaning ν) (frame : LazyTable → List (List ν)) (below : NodeId → List (List ν)) :
    ∃ rows, arena.OperatorGives meaning frame below operator rows := by
  cases operator with
  | tableScan | partitionScan | limit => exact ⟨_, rfl⟩
  | order => exact ⟨_, .refl _⟩
  | projection source expressions =>
    have spelled (part : NodeId) : ∃ formula, part ∈ expressions →
        ∃ relation, arena.Spells relation part formula := by
      by_cases member : part ∈ expressions
      · obtain ⟨relation, formula, spells⟩ := (built.operator found).2 part member
        exact ⟨formula, fun _ => ⟨relation, spells⟩⟩
      · exact ⟨.null 0, fun listed => absurd listed member⟩
    choose formula spelled using spelled
    have spellOut : arena.SpellOut expressions (expressions.map formula) :=
      List.forall₂_map_right_iff.mpr (List.forall₂_same.mpr spelled)
    by_cases aggregates : arena.Aggregates expressions
    · exact ⟨_, _, spellOut, fun plain => absurd aggregates plain, fun _ => ⟨[], rfl⟩⟩
    · exact ⟨_, _, spellOut, fun _ => rfl, fun some => absurd some aggregates⟩
  | _ => exact ⟨[], trivial⟩

/-- Every relation of a plan that was built gives some rows, by induction on its place. -/
theorem IsBuilt.gives (built : arena.IsBuilt) (meaning : Meaning ν)
    (frame : LazyTable → List (List ν)) (found : arena.operator id = .ok operator) :
    ∃ rows, arena.Gives meaning frame id rows := by
  induction place : id.index using Nat.strongRecOn generalizing id operator with
  | ind place inductionHypothesis =>
    have earlier (input : NodeId) : ∃ rows, input ∈ operator.inputs →
        arena.Gives meaning frame input rows := by
      by_cases member : input ∈ operator.inputs
      · obtain ⟨before, below, foundBelow⟩ := built.input found member
        obtain ⟨rows, gives⟩ := inductionHypothesis _ (place ▸ before) foundBelow rfl
        exact ⟨rows, fun _ => gives⟩
      · exact ⟨[], fun listed => absurd listed member⟩
    choose below inputs using earlier
    obtain ⟨rows, makes⟩ := built.operatorGives found meaning frame below
    exact ⟨rows, .intro id operator below rows found inputs makes⟩

/-! The number of rows that follows from the plan. -/

/-- The number for an operator follows from those for its inputs. -/
theorem staticRowsOf_congr {below other : NodeId → Except Stop (Option Nat)}
    (same : ∀ input ∈ operator.inputs, below input = other input) :
    arena.staticRowsOf below operator = arena.staticRowsOf other operator := by
  cases operator with
  | projection source | order source | limit source =>
    rw [staticRowsOf, staticRowsOf, same source (List.mem_singleton_self source)]
  | _ => rfl

/-- Where references lead to earlier nodes, no more than so many of them are followed. -/
theorem IsBuilt.staticRowsWithin_eq (built : arena.IsBuilt) {limit other : Nat}
    (enough : id.index < limit) (enoughToo : id.index < other)
    (found : arena.operator id = .ok operator) :
    arena.staticRowsWithin limit id = arena.staticRowsWithin other id := by
  induction limit generalizing other id operator with
  | zero => exact absurd enough (Nat.not_lt_zero _)
  | succ limit inductionHypothesis =>
    obtain ⟨other, rfl⟩ := Nat.exists_eq_succ_of_ne_zero (Nat.ne_of_gt (Nat.zero_lt_of_lt enoughToo))
    rw [staticRowsWithin_operator _ found, staticRowsWithin_operator _ found]
    refine staticRowsOf_congr fun input member => ?_
    obtain ⟨before, below, foundBelow⟩ := built.input found member
    exact inductionHypothesis (by omega) (by omega) foundBelow

/-- The rows that follow from a plan are those that follow for its root operator. -/
theorem IsBuilt.staticRows_operator (built : arena.IsBuilt)
    (found : arena.operator id = .ok operator) :
    arena.staticRows id = arena.staticRowsOf arena.staticRows operator := by
  have inside : id.index < arena.size := (resolves_source found).inside
  rw [staticRows, walkLimit, staticRowsWithin_operator _ found]
  refine staticRowsOf_congr fun input member => ?_
  obtain ⟨before, below, foundBelow⟩ := built.input found member
  exact built.staticRowsWithin_eq (by omega) (by unfold walkLimit; omega) foundBelow

/-- The number for a projection is the one for the relation below it, and none of its expressions is
a call to an aggregate. -/
theorem IsBuilt.staticRows_projection (built : arena.IsBuilt) {expressions : List NodeId}
    (found : arena.operator id = .ok (.projection source expressions))
    (follows : arena.staticRows id = .ok (some known)) :
    arena.staticRows source = .ok (some known) := by
  rw [built.staticRows_operator found, staticRowsOf] at follows
  cases any : arena.anyAggregate expressions with
  | error failure =>
    rw [any] at follows
    cases follows
  | ok found =>
    rw [any] at follows
    cases found with
    | true => cases follows
    | false => exact follows

/-- The rows that follow for a limit follow from those below it. -/
theorem IsBuilt.staticRows_limit (built : arena.IsBuilt) {count offset : Nat}
    (found : arena.operator id = .ok (.limit source count offset))
    (follows : arena.staticRows id = .ok (some known)) :
    ∃ below, arena.staticRows source = .ok (some below) ∧ known = min (below - offset) count := by
  rw [built.staticRows_operator found, staticRowsOf] at follows
  cases below : arena.staticRows source with
  | error stop =>
    rw [below] at follows
    cases follows
  | ok number =>
    rw [below] at follows
    obtain ⟨rows, rfl, same⟩ := Option.map_eq_some_iff.mp (Except.ok.inj follows)
    exact ⟨rows, rfl, same.symm⟩

namespace Cuts

/-- The known number at the upper relation is what is left of the one at the lower relation. -/
theorem staticRows (cuts : arena.Cuts low id cut) (built : arena.IsBuilt)
    (follows : arena.staticRows id = .ok (some known)) :
    ∃ below, arena.staticRows low = .ok (some below) ∧ known = cut below := by
  induction cuts generalizing known with
  | here => exact ⟨known, follows, rfl⟩
  | order id source keys cut found _ inductionHypothesis =>
    rw [built.staticRows_operator found] at follows
    exact inductionHypothesis follows
  | projection id source expressions cut found _ _ inductionHypothesis =>
    exact inductionHypothesis (built.staticRows_projection found follows)
  | limit id source count offset cut found _ inductionHypothesis =>
    obtain ⟨number, followsBelow, rfl⟩ := built.staticRows_limit found follows
    obtain ⟨below, lowest, rfl⟩ := inductionHypothesis followsBelow
    exact ⟨below, lowest, rfl⟩

/-- The number of rows that the upper relation gives is what is left of those that the lower one
gives.
-/
theorem gives (cuts : arena.Cuts low id cut) (gives : arena.Gives meaning frame id rows) :
    ∃ below, arena.Gives meaning frame low below ∧ rows.length = cut below.length := by
  induction cuts generalizing rows with
  | here => exact ⟨rows, gives, rfl⟩
  | order id source keys cut found _ inductionHypothesis =>
    obtain ⟨below, inputs, makes⟩ := gives.of_operator found
    obtain ⟨lowest, givesLow, left⟩ := inductionHypothesis (inputs source (List.mem_singleton_self _))
    exact ⟨lowest, givesLow, makes.length_eq.trans left⟩
  | projection id source expressions cut found plain _ inductionHypothesis =>
    obtain ⟨below, inputs, formulas, -, makes, -⟩ := gives.of_operator found
    obtain ⟨lowest, givesLow, left⟩ := inductionHypothesis (inputs source (List.mem_singleton_self _))
    refine ⟨lowest, givesLow, ?_⟩
    rw [makes plain, List.length_map, left]
  | limit id source count offset cut found _ inductionHypothesis =>
    obtain ⟨below, inputs, rfl⟩ := gives.of_operator found
    obtain ⟨lowest, givesLow, left⟩ := inductionHypothesis (inputs source (List.mem_singleton_self _))
    refine ⟨lowest, givesLow, ?_⟩
    rw [List.length_take, List.length_drop, left, Nat.min_comm]

end Cuts

/-- Where a number is known, the way down ends at a scan or at a projection that calls an aggregate.
-/
theorem IsBuilt.ends_of_staticRows (built : arena.IsBuilt) (found : arena.operator id = .ok operator)
    (follows : arena.staticRows id = .ok (some known)) :
    ∃ low cut, arena.Cuts low id cut ∧ (arena.IsAggregating low ∨ arena.IsScan low) := by
  induction place : id.index using Nat.strongRecOn generalizing id operator known with
  | ind place inductionHypothesis =>
    have further {source : NodeId} {number : Nat} (member : source ∈ operator.inputs)
        (follows : arena.staticRows source = .ok (some number)) :
        ∃ low cut, arena.Cuts low source cut ∧ (arena.IsAggregating low ∨ arena.IsScan low) := by
      obtain ⟨before, below, foundBelow⟩ := built.input found member
      exact inductionHypothesis _ (place ▸ before) foundBelow follows rfl
    cases operator with
    | tableScan | partitionScan => exact ⟨id, _, .here, .inr ⟨_, found, rfl⟩⟩
    | projection source expressions =>
      by_cases aggregates : arena.Aggregates expressions
      · exact ⟨id, _, .here, .inl ⟨source, expressions, found, aggregates⟩⟩
      · obtain ⟨low, cut, cuts, ends⟩ :=
          further (List.mem_singleton_self source) (built.staticRows_projection found follows)
        exact ⟨low, cut, .projection id source expressions cut found aggregates cuts, ends⟩
    | order source keys =>
      rw [built.staticRows_operator found] at follows
      obtain ⟨low, cut, cuts, ends⟩ := further (List.mem_singleton_self source) follows
      exact ⟨low, cut, .order id source keys cut found cuts, ends⟩
    | limit source count offset =>
      obtain ⟨number, followsBelow, -⟩ := built.staticRows_limit found follows
      obtain ⟨low, cut, cuts, ends⟩ := further (List.mem_singleton_self source) followsBelow
      exact ⟨low, _, .limit id source count offset cut found cuts, ends⟩
    | _ =>
      rw [built.staticRows_operator found] at follows
      cases follows

/-- Of a scan the known number is that of its rows. -/
theorem Gives.length_of_scan (gives : arena.Gives meaning frame id rows) (built : arena.IsBuilt)
    (counted : ∀ id table rows, arena.operator id = .ok (.partitionScan table rows) →
      (frame table).length = rows)
    (found : arena.operator id = .ok operator) (scans : operator.scansTable = true)
    (follows : arena.staticRows id = .ok (some known)) : rows.length = known := by
  obtain ⟨below, -, makes⟩ := gives.of_operator found
  rw [built.staticRows_operator found] at follows
  cases operator with
  | tableScan table =>
    cases follows
    rw [makes, List.length_map, table.length_rowList]
  | partitionScan table number =>
    cases follows
    rw [makes, counted id table _ found]
  | _ => cases scans

/-- A projection that calls an aggregate gives one row. -/
theorem Gives.length_of_isAggregating (gives : arena.Gives meaning frame id rows)
    (aggregating : arena.IsAggregating id) : rows.length = 1 := by
  obtain ⟨source, expressions, found, aggregates⟩ := aggregating
  obtain ⟨below, -, formulas, -, -, makes⟩ := gives.of_operator found
  obtain ⟨row, rfl⟩ := makes aggregates
  rfl

/-- The known number is the right one exactly if the limits above a projection that calls an
aggregate leave of the number that is known for this projection what they leave of a single row. -/
theorem IsBuilt.length_eq_iff (built : arena.IsBuilt)
    (counted : ∀ id table rows, arena.operator id = .ok (.partitionScan table rows) →
      (frame table).length = rows)
    (follows : arena.staticRows root = .ok (some known))
    (gives : arena.Gives meaning frame root rows) :
    rows.length = known ↔ ∀ low cut below, arena.Cuts low root cut → arena.IsAggregating low →
      arena.staticRows low = .ok (some below) → cut below = cut 1 := by
  have given {low : NodeId} {cut : Nat → Nat} (cuts : arena.Cuts low root cut)
      (aggregating : arena.IsAggregating low) : rows.length = cut 1 := by
    obtain ⟨below, givesLow, left⟩ := cuts.gives gives
    rw [left, givesLow.length_of_isAggregating aggregating]
  constructor
  · intro right low cut below cuts aggregating followsLow
    obtain ⟨number, followsToo, rfl⟩ := cuts.staticRows built follows
    cases followsLow.symm.trans followsToo
    exact right.symm.trans (given cuts aggregating)
  · intro same
    obtain ⟨operator, found⟩ := gives.isRelation
    obtain ⟨low, cut, cuts, aggregating | ⟨scan, foundLow, scans⟩⟩ :=
      built.ends_of_staticRows found follows
    · obtain ⟨below, followsLow, rfl⟩ := cuts.staticRows built follows
      rw [given cuts aggregating, same low cut below cuts aggregating followsLow]
    · obtain ⟨below, followsLow, rfl⟩ := cuts.staticRows built follows
      obtain ⟨lowest, givesLow, left⟩ := cuts.gives gives
      rw [left, givesLow.length_of_scan built counted foundLow scans followsLow]

/-- A number is known of relations only. -/
theorem isRelation_of_staticRows (follows : arena.staticRows id = .ok (some known)) :
    ∃ operator, arena.operator id = .ok operator := by
  rw [staticRows, walkLimit, staticRowsWithin] at follows
  cases found : arena.operator id with
  | ok operator => exact ⟨operator, rfl⟩
  | error failure =>
    rw [found] at follows
    split at follows <;> cases follows

end Arena

namespace PlanCall

variable {ν : Type}

/-- Over every list of calls and every node, whatever operators and functions mean and whatever
tables lie on the workers, with as many rows as the scans of them say: where a number of rows
follows from the plan, the node gives rows. Their number is the known one, exactly if for every
projection on the way down from the node that calls an aggregate within its expressions, and that
has only orders, limits and projections without aggregates above it, the limits leave the same of
its known number as of one. -/
theorem staticRows_exact (calls : List PlanCall) (meaning : Meaning ν)
    (frame : LazyTable → List (List ν)) (root : NodeId)
    (counted : ∀ id table rows, (grown calls).operator id = .ok (.partitionScan table rows) →
      (frame table).length = rows) :
    ∀ known, (grown calls).staticRows root = .ok (some known) →
      (∃ rows, (grown calls).Gives meaning frame root rows) ∧
      ∀ rows, (grown calls).Gives meaning frame root rows →
        (rows.length = known ↔ ∀ low cut below, (grown calls).Cuts low root cut →
          (grown calls).IsAggregating low → (grown calls).staticRows low = .ok (some below) →
            cut below = cut 1) := by
  intro known follows
  have built := grown_built calls
  obtain ⟨operator, found⟩ := Arena.isRelation_of_staticRows follows
  exact ⟨built.gives meaning frame found, fun rows gives =>
    built.length_eq_iff counted follows gives⟩

/-- Nothing but one value. -/
def idle : Meaning Unit where
  scalar _ := ()
  unary _ _ := ()
  binary _ _ _ := ()
  rowFunction _ _ := ()
  aggregate _ _ _ := ()

/-- A table of five rows on the workers, in some order, from the second row to the fourth one. -/
def cutting : List PlanCall :=
  let output : OutputSchema := .ofSchema ⟨[⟨"a", .int64, false⟩]⟩
  [.operator output (.partitionScan (.pending ⟨0⟩) 5), .operator output (.order ⟨0⟩ [⟨0, true, true⟩]),
    .operator output (.limit ⟨1⟩ 3 1)]

/-- Three rows are given, as is known from the plan. -/
theorem cutting_staticRows_exact :
    (∀ id table rows, (grown cutting).operator id = .ok (.partitionScan table rows) →
      (List.replicate 5 [()]).length = rows) ∧
    (grown cutting).staticRows ⟨2⟩ = .ok (some 3) ∧
    ∃ rows, (grown cutting).Gives idle (fun _ => List.replicate 5 [()]) ⟨2⟩ rows ∧
      rows.length = 3 := by
  have listed {id : NodeId} {operator : Operator} (found : (grown cutting).operator id = .ok operator) :
      operator = .partitionScan (.pending ⟨0⟩) 5 ∨ operator = .order ⟨0⟩ [⟨0, true, true⟩] ∨
        operator = .limit ⟨1⟩ 3 1 := by
    obtain ⟨node, there, content⟩ := (Arena.operator_iff operator).mp found
    have member := List.mem_of_getElem? there
    have nodes : (grown cutting).nodes.map Node.content =
        [.operator (.partitionScan (.pending ⟨0⟩) 5), .operator (.order ⟨0⟩ [⟨0, true, true⟩]),
          .operator (.limit ⟨1⟩ 3 1)] := rfl
    have among : node.content ∈ (grown cutting).nodes.map Node.content := List.mem_map_of_mem member
    rw [nodes, content] at among
    simpa using among
  have counted (id : NodeId) (table : LazyTable) (rows : Nat)
      (found : (grown cutting).operator id = .ok (.partitionScan table rows)) :
      (List.replicate 5 [()]).length = rows := by
    obtain same | same | same := listed found <;> cases same
    rfl
  have follows : (grown cutting).staticRows ⟨2⟩ = .ok (some 3) := rfl
  obtain ⟨⟨rows, gives⟩, exact⟩ := staticRows_exact cutting idle _ ⟨2⟩ counted 3 follows
  refine ⟨counted, follows, rows, gives, (exact rows gives).mpr ?_⟩
  rintro low cut below - ⟨source, expressions, found, -⟩ -
  obtain same | same | same := listed found <;> cases same

/-- A table of three rows and a projection to the negated sum of its column. -/
def negating : List PlanCall :=
  let number (name : String) : Field := ⟨name, .int64, true⟩
  [.tableScan ⟨⟨[number "a"]⟩, [[.int64 1, .int64 2, .int64 3]], 3⟩,
    .aggregate (.ofField (number "s")) ⟨0⟩ "sum" [0] true,
    .unary (.ofField (number "n")) ⟨1⟩ .negate,
    .projection (.ofSchema ⟨[number "n"]⟩) ⟨0⟩ [⟨2⟩]]

/-- One row is given, and three rows are said to be known. -/
theorem negating_miscounted :
    (grown negating).staticRows ⟨3⟩ = .ok (some 3) ∧
      ∃ rows, (grown negating).Gives idle (fun _ => []) ⟨3⟩ rows ∧ rows.length = 1 := by
  have aggregating : (grown negating).IsAggregating ⟨3⟩ :=
    ⟨⟨0⟩, [⟨2⟩], rfl, ⟨2⟩, List.mem_cons_self, ⟨1⟩,
      .single ⟨.unary ⟨1⟩ .negate, rfl, List.mem_cons_self⟩, _, rfl, rfl⟩
  obtain ⟨rows, gives⟩ := (grown_built negating).gives idle (fun _ => [])
    (show (grown negating).operator ⟨3⟩ = .ok (.projection ⟨0⟩ [⟨2⟩]) from rfl)
  exact ⟨rfl, rows, gives, gives.length_of_isAggregating aggregating⟩

end PlanCall

end Rankwise
