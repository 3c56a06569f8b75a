import Rankwise.Proofs.Displays
import Rankwise.Proofs.PlanRuns
import Rankwise.Proofs.Scanning

/-!
# Lines of operators

A line is a scan of a table with operators above it, each of them over one relation and with all of
its expressions over that relation (`Arena.IsLine`). Whatever a line leads to belongs to it
(`IsLine.along`), so the only scan that is found in it is the one at its end (`IsLine.scans_held`,
`IsLine.scans_lazy`), and a line can always be shown (`IsLine.displays`).
-/

namespace Rankwise

/-- Whether the operator scans a table that the plan holds or that lies on the workers. -/
def Operator.scansTable : Operator → Bool
  | tableScan _ | partitionScan _ _ => true
  | _ => false

namespace Arena

/-- The expression and all of its parts are of this sort, and its leaves name this source. -/
inductive IsOver (arena : Arena) (admits : Expression → Bool) (source : NodeId) : NodeId → Prop
  | intro (id : NodeId) (expression : Expression) (found : arena.expression id = .ok expression)
      (admitted : admits expression = true)
      (names : ∀ relation, expression.source? = some relation → relation = source)
      (parts : ∀ part ∈ expression.parts, arena.IsOver admits source part) :
      arena.IsOver admits source id

/-- Operators above a scan, each over one relation and with expressions over that relation. -/
inductive IsLine (arena : Arena) (scan : NodeId) : NodeId → Prop
  | scan (operator : Operator) (found : arena.operator scan = .ok operator)
      (scans : operator.scansTable = true) : arena.IsLine scan scan
  | step (id source : NodeId) (operator : Operator) (found : arena.operator id = .ok operator)
      (single : operator.inputs = [source])
      (own : ∀ part ∈ operator.expressions, arena.IsOver (fun _ => true) source part)
      (below : arena.IsLine scan source) : arena.IsLine scan id

/-- References lead to earlier nodes. -/
def IsForward (arena : Arena) : Prop :=
  ∀ id child, arena.Refers id child → child.index < id.index

variable {arena : Arena} {names : LazyNames} {scan root source id : NodeId}
  {admits : Expression → Bool}

/-- An expression of one sort is of every wider sort. -/
theorem IsOver.weaken (isOver : arena.IsOver admits source id) {weak : Expression → Bool}
    (implies : ∀ expression, admits expression = true → weak expression = true) :
    arena.IsOver weak source id := by
  induction isOver with
  | intro id expression found admitted names _ inductionHypothesis =>
    exact .intro id expression found (implies expression admitted) names inductionHypothesis

/-- In a plan that was built, references lead to earlier nodes. -/
theorem IsBuilt.forward (built : arena.IsBuilt) : arena.IsForward := by
  rintro id child ⟨node, found, reference, member, rfl⟩
  exact (built.resolves found reference member).1

/-- An operator refers to its inputs and to its expressions. -/
theorem refers_operator {operator : Operator} (found : arena.operator id = .ok operator)
    {child : NodeId} :
    arena.Refers id child ↔ child ∈ operator.inputs ++ operator.expressions := by
  obtain ⟨node, there, content⟩ := (operator_iff operator).mp found
  have references : node.references =
      operator.inputs.map (.input, ·) ++ operator.expressions.map (.expression, ·) := by
    rw [Node.references, Node.operands, content]
    exact operator.referencesOf_operands
  constructor
  · rintro ⟨same, thereToo, reference, member, rfl⟩
    obtain rfl := Option.some.inj (there.symm.trans thereToo)
    rw [references] at member
    rcases List.mem_append.mp member with member | member
    · obtain ⟨input, listed, rfl⟩ := List.mem_map.mp member
      exact List.mem_append_left _ listed
    · obtain ⟨part, listed, rfl⟩ := List.mem_map.mp member
      exact List.mem_append_right _ listed
  · intro listed
    refine ⟨node, there, ?_⟩
    rw [references]
    rcases List.mem_append.mp listed with listed | listed
    · exact ⟨_, List.mem_append_left _ (List.mem_map_of_mem listed), rfl⟩
    · exact ⟨_, List.mem_append_right _ (List.mem_map_of_mem listed), rfl⟩

/-- An expression refers to its parts and to the source that it names. -/
theorem refers_expression {expression : Expression} (found : arena.expression id = .ok expression)
    {child : NodeId} (refers : arena.Refers id child) :
    child ∈ expression.parts ∨ expression.source? = some child := by
  obtain ⟨node, there, content⟩ := (expression_iff expression).mp found
  obtain ⟨same, thereToo, reference, member, rfl⟩ := refers
  obtain rfl := Option.some.inj (there.symm.trans thereToo)
  have operands : node.operands = expression.operands := by rw [Node.operands, content]
  rw [Node.references, operands] at member
  rcases expression.operands_cases with composite | ⟨relation, rest, sourced, listed, none⟩
  · exact .inl (composite reference member).2
  · rw [listed, Operand.referencesOf_cons, none, List.append_nil] at member
    obtain rfl := List.mem_singleton.mp member
    exact .inr sourced

/-! What a line leads to. -/

/-- An operator over a relation scans no table. -/
theorem not_scansTable {operator : Operator} (single : operator.inputs = [source]) :
    operator.scansTable = false := by
  cases operator with
  | tableScan | partitionScan => cases single
  | _ => rfl

/-- The node is one of the line or an expression over a node of the line. -/
def IsAlong (arena : Arena) (scan id : NodeId) : Prop :=
  arena.IsLine scan id ∨
    ∃ source, arena.IsLine scan source ∧ arena.IsOver (fun _ => true) source id

/-- What a node along the line refers to is along the line. -/
theorem IsAlong.of_refers (along : arena.IsAlong scan id) {child : NodeId}
    (refers : arena.Refers id child) : arena.IsAlong scan child := by
  rcases along with line | ⟨source, line, isOver⟩
  · cases line with
    | scan operator found scans =>
      have listed := (refers_operator found).mp refers
      cases operator with
      | tableScan | partitionScan => cases listed
      | _ => cases scans
    | step _ source operator found single own below =>
      rcases List.mem_append.mp ((refers_operator found).mp refers) with listed | listed
      · rw [single] at listed
        obtain rfl := List.mem_singleton.mp listed
        exact .inl below
      · exact .inr ⟨source, below, own child listed⟩
  · cases isOver with
    | intro _ expression found _ names parts =>
      rcases refers_expression found refers with listed | sourced
      · exact .inr ⟨source, line, parts child listed⟩
      · obtain rfl := names child sourced
        exact .inl line

/-- Whatever a line leads to belongs to it. -/
theorem IsLine.along (line : arena.IsLine scan root) (reaches : arena.Reaches root id) :
    arena.IsAlong scan id := by
  induction reaches with
  | refl => exact .inl line
  | tail _ refers inductionHypothesis => exact inductionHypothesis.of_refers refers

/-- No node is both an operator and an expression. -/
theorem operator_expression {operator : Operator} {expression : Expression}
    (found : arena.operator id = .ok operator) (foundToo : arena.expression id = .ok expression) :
    False := by
  obtain ⟨node, there, content⟩ := (operator_iff operator).mp found
  obtain ⟨same, thereToo, contentToo⟩ := (expression_iff expression).mp foundToo
  obtain rfl := Option.some.inj (there.symm.trans thereToo)
  cases content.symm.trans contentToo

/-- The only scan along a line is the one at its end. -/
theorem IsAlong.scan_eq (along : arena.IsAlong scan id) {operator : Operator}
    (found : arena.operator id = .ok operator) (scans : operator.scansTable = true) : id = scan := by
  rcases along with line | ⟨source, line, isOver⟩
  · cases line with
    | scan => rfl
    | step _ _ _ foundToo single =>
      obtain rfl := Except.ok.inj (found.symm.trans foundToo)
      rw [not_scansTable single] at scans
      cases scans
  · cases isOver with
    | intro _ expression foundToo => exact (operator_expression found foundToo).elim

/-- The scan can be reached from the root of its line. -/
theorem IsLine.reaches_scan (line : arena.IsLine scan root) : arena.Reaches root scan := by
  induction line with
  | scan => exact .refl
  | step id source operator found single _ _ inductionHypothesis =>
    refine .head ((refers_operator found).mpr (List.mem_append_left _ ?_)) inductionHypothesis
    rw [single]
    exact List.mem_singleton_self source

/-- The root of a line is an operator. -/
theorem IsLine.found (line : arena.IsLine scan root) :
    ∃ operator, arena.operator root = .ok operator := by
  cases line <;> exact ⟨_, by assumption⟩

/-- The root of a line is a node of the plan. -/
theorem IsLine.inside (line : arena.IsLine scan root) : root.index < arena.size := by
  obtain ⟨operator, found⟩ := line.found
  obtain ⟨node, there, -⟩ := (operator_iff operator).mp found
  exact (List.getElem?_eq_some_iff.mp there).1

/-- A line can be shown. -/
theorem IsLine.displays (line : arena.IsLine scan root) (built : arena.IsBuilt)
    (names : LazyNames) : ∃ text, arena.display names root = .ok text := by
  obtain ⟨operator, found⟩ := line.found
  exact built.displays_operator names found

/-! The scans of a line. -/

/-- In a plan that was built every node is grounded, for references lead to earlier nodes. -/
theorem IsBuilt.grounded (built : arena.IsBuilt) (inside : id.index < arena.size) :
    arena.Grounded id := by
  induction place : id.index using Nat.strong_induction_on generalizing id with
  | _ index inductionHypothesis =>
    have found : arena.nodes[id.index]? = some arena.nodes[id.index] :=
      List.getElem?_eq_getElem inside
    refine .intro id _ found fun reference member => ?_
    obtain ⟨earlier, node, there, -⟩ := built.resolves found reference member
    exact inductionHypothesis _ (place ▸ earlier) (List.getElem?_eq_some_iff.mp there).1 rfl

/-- A table on the workers is scanned at a node exactly if the node is a scan of it. -/
theorem scansAt_iff (table : LazyTable) :
    arena.ScansAt id table ↔ ∃ rows, arena.operator id = .ok (.partitionScan table rows) := by
  constructor
  · rintro ⟨node, there, scans⟩
    cases content : node.content with
    | expression expression =>
      rw [content] at scans
      cases scans
    | operator operator =>
      rw [content] at scans
      cases operator with
      | partitionScan found rows =>
        obtain rfl := Option.some.inj scans
        exact ⟨rows, (operator_iff _).mpr ⟨node, there, content⟩⟩
      | _ => cases scans
  · rintro ⟨rows, found⟩
    obtain ⟨node, there, content⟩ := (operator_iff _).mp found
    exact ⟨node, there, by rw [content]; rfl⟩

/-- The walk through a line finds the table at its scan, and no other. -/
theorem IsLine.walked (line : arena.IsLine scan root) (built : arena.IsBuilt) :
    (arena.scans root).outcome = .ok () ∧
      ((arena.scans root).found.map Prod.fst).Nodup ∧
      (∀ entry ∈ (arena.scans root).found, entry.1 = scan ∧ arena.ScansAt scan entry.2) ∧
      ∀ table, arena.ScansAt scan table → (scan, table) ∈ (arena.scans root).found := by
  obtain ⟨ends, sound, complete, once⟩ := (built.grounded line.inside).scans_isWalked
  refine ⟨ends, once, fun entry member => ?_, fun table scans => ?_⟩
  · obtain ⟨scans, -, start, listed, reaches⟩ := sound entry member
    obtain rfl := List.mem_singleton.mp listed
    obtain ⟨rows, found⟩ := (scansAt_iff entry.2).mp scans
    have same := (line.along reaches).scan_eq found rfl
    exact ⟨same, same ▸ scans⟩
  · exact complete scan table scans List.not_mem_nil
      ⟨root, List.mem_singleton_self root, line.reaches_scan⟩

/-- No scan of a table on the workers is found in a line above a table that the plan holds. -/
theorem IsLine.scans_held (line : arena.IsLine scan root) (built : arena.IsBuilt) {table : Batch}
    (found : arena.operator scan = .ok (.tableScan table)) : arena.scans root = {} := by
  obtain ⟨ends, -, all, -⟩ := line.walked built
  have nothing : (arena.scans root).found = [] := by
    refine List.eq_nil_iff_forall_not_mem.mpr fun entry member => ?_
    obtain ⟨rows, foundToo⟩ := (scansAt_iff entry.2).mp (all entry member).2
    cases found.symm.trans foundToo
  exact congrArg₂ ScanWalk.mk nothing ends

/-- The only scan of a table on the workers that is found in a line above one is that one. -/
theorem IsLine.scans_lazy (line : arena.IsLine scan root) (built : arena.IsBuilt)
    {table : LazyTable} {rows : Nat}
    (found : arena.operator scan = .ok (.partitionScan table rows)) :
    arena.scans root = { found := [(scan, table)] } := by
  obtain ⟨ends, once, all, complete⟩ := line.walked built
  have known : ∀ entry ∈ (arena.scans root).found, entry = (scan, table) := by
    intro entry member
    obtain ⟨same, scans⟩ := all entry member
    obtain ⟨rowsToo, foundToo⟩ := (scansAt_iff entry.2).mp scans
    obtain ⟨sameTable, -⟩ := Operator.partitionScan.inj (Except.ok.inj (foundToo.symm.trans found))
    exact Prod.ext same sameTable
  have listed := complete table ((scansAt_iff table).mpr ⟨rows, found⟩)
  have single : (arena.scans root).found = [(scan, table)] := by
    refine (List.perm_singleton.mp ?_)
    exact (List.perm_ext_iff_of_nodup (List.Nodup.of_map _ once) (List.nodup_singleton _)).mpr
      fun entry => ⟨fun member => List.mem_singleton.mpr (known entry member),
        fun same => List.mem_singleton.mp same ▸ listed⟩
  exact congrArg₂ ScanWalk.mk single ends

end Arena

end Rankwise
