import Rankwise.Proofs.Textbook

/-!
# Plans that count

The plan that counts the rows of another one puts two operators above it: an aggregate with one call
that counts, and a projection to its only column (`Arena.countNodes`). By the book these make of any
rows one row that holds their number (`IsCount.makes`). An engine counts by the book if it builds
the whole plan in this way and if it is right about the numbers of rows that it knows
(`Textbook.Counts`).
-/

namespace Rankwise

variable {ε η : Type}

/-- The only column of a plan that counts. -/
def countField : Field := { name := countFunction, datatype := .uint64, nullable := false }

/-- Whether the expression is the call that counts. -/
def Expression.countsRows : Expression → Bool
  | aggregate _ function _ _ => function = countFunction
  | _ => false

namespace Arena

/-- The plan after one that counts the rows of a node was added to it. -/
def counting (arena : Arena) (root : NodeId) : Arena := ((Building.countPlan root).run.run arena).2

/-- Where the plan that counts ends. -/
def total (arena : Arena) : NodeId := ⟨arena.size + 3⟩

/-- Between these nodes lies a plan that counts. -/
def IsCount (arena : Arena) (root total : NodeId) : Prop :=
  ∃ call sum only mentioned,
    arena.expression call = .ok (.aggregate root countFunction mentioned false) ∧
    arena.operator sum = .ok (.aggregate root [] [call]) ∧
    arena.expression only = .ok (.column sum 0) ∧
    arena.operator total = .ok (.projection sum [only])

/-- What is added to a plan to count the rows of a node: the call, the aggregate, the reference to
its only column and the projection to it. -/
def countNodes (arena : Arena) (root : NodeId) (mentioned : List Nat) : List Node :=
  [⟨.ofField countField, .expression (.aggregate root countFunction mentioned false)⟩,
    ⟨.ofSchema { fields := [countField] }, .operator (.aggregate root [] [⟨arena.size⟩])⟩,
    ⟨.ofField countField, .expression (.column ⟨arena.size + 1⟩ 0)⟩,
    ⟨.ofField countField, .operator (.projection ⟨arena.size + 1⟩ [⟨arena.size + 2⟩])⟩]

variable {arena : Arena} {root : NodeId} {operator : Operator}

/-- The node that was added can be referred to according to its sort. -/
theorem Resolves.added (arena : Arena) (node : Node) (role : Role)
    (sort : node.isExpression = true ↔ role = .expression) :
    (arena.adding node).Resolves (role, ⟨arena.size⟩) :=
  ⟨node, List.getElem?_concat_length, sort⟩

/-- A node is added if all that it is built from is there. -/
theorem makes_push {node : Node} {id : NodeId} (same : id = ⟨arena.size⟩)
    (plain : arena.checkContent node.content = .ok ())
    (resolves : ∀ reference ∈ node.references, arena.Resolves reference) :
    Building.Makes (Building.push node) arena id (arena.adding node) :=
  (Building.Makes.push_iff node _).mpr ⟨check_iff.mpr ⟨resolves, plain⟩, same, rfl⟩

/-- A reference to a column of a relation is added if the relation has the column. -/
theorem makes_column {source id : NodeId} {index : Nat} {output : OutputSchema} {field : Field}
    (same : id = ⟨arena.size⟩) (relation : arena.Resolves (.source, source))
    (described : arena.output source = .ok output) (has : output.schema.field index = .ok field) :
    Building.Makes (Building.column source index) arena id
      (arena.adding ⟨.ofField field, .expression (.column source index)⟩) := by
  refine (Building.Makes.bindGet_iff _ _).mpr ?_
  refine (Building.Makes.bindLook_iff _ _ _).mpr ⟨output, described, ?_⟩
  refine (Building.Makes.bindLook_iff _ _ _).mpr ⟨field, has, ?_⟩
  exact makes_push same rfl (List.forall_mem_singleton.mpr relation)

/-- An operator that was found can be referred to as a relation. -/
theorem Resolves.of_operator (found : arena.operator root = .ok operator) (role : Role)
    (sort : role ≠ .expression) : arena.Resolves (role, root) := by
  obtain ⟨node, there, content⟩ := (operator_iff operator).mp found
  refine ⟨node, there, ?_⟩
  rw [Node.isExpression, content]
  exact iff_of_false Bool.false_ne_true sort

/-- A plan that counts the rows of an operator can be added. -/
theorem countPlan_made (found : arena.operator root = .ok operator) :
    Building.Makes (Building.countPlan root) arena arena.total (arena.counting root) ∧
      ∃ mentioned, columnsFit mentioned ∧
        (arena.counting root).nodes = arena.nodes ++ arena.countNodes root mentioned := by
  obtain ⟨node, there, -⟩ := (operator_iff operator).mp found
  have output : arena.output root = .ok node.output := (output_iff _).mpr ⟨node, there, rfl⟩
  let mentioned := if 0 < node.output.schema.size then [0] else []
  -- The four nodes that are pushed: a call, the sum of it, the only column of that, and its
  -- projection.
  let call : Node :=
    ⟨.ofField countField, .expression (.aggregate root countFunction mentioned false)⟩
  let sum : Node :=
    ⟨.ofSchema { fields := [countField] }, .operator (.aggregate root [] [⟨arena.size⟩])⟩
  let only : Node := ⟨.ofField countField, .expression (.column ⟨arena.size + 1⟩ 0)⟩
  let total : Node :=
    ⟨.ofField countField, .operator (.projection ⟨arena.size + 1⟩ [⟨arena.size + 2⟩])⟩
  let second := arena.adding call
  let third := second.adding sum
  let fourth := third.adding only
  let last := fourth.adding total
  have sizes : second.size = arena.size + 1 ∧ third.size = arena.size + 2 ∧
      fourth.size = arena.size + 3 := by
    simp [second, third, fourth, adding, size]
  obtain ⟨secondSize, thirdSize, fourthSize⟩ := sizes
  have callThere : second.Resolves (.expression, ⟨arena.size⟩) :=
    .added arena call .expression (iff_of_true rfl rfl)
  have sumThere (role : Role) (sort : role ≠ .expression) :
      third.Resolves (role, ⟨arena.size + 1⟩) :=
    secondSize ▸ .added second sum role (iff_of_false Bool.false_ne_true sort)
  have onlyThere : fourth.Resolves (.expression, ⟨arena.size + 2⟩) :=
    thirdSize ▸ .added third only .expression (iff_of_true rfl rfl)
  have called : Building.Makes (Building.push call) arena ⟨arena.size⟩ second :=
    makes_push rfl rfl (List.forall_mem_singleton.mpr (.of_operator found .source (by decide)))
  have summed : Building.Makes (Building.push sum) second ⟨arena.size + 1⟩ third := by
    refine makes_push (congrArg NodeId.mk secondSize.symm) rfl (List.forall_mem_cons.mpr ⟨?_, ?_⟩)
    · exact (Extends.adding arena call).resolves (.of_operator found .input (by decide))
    · exact List.forall_mem_singleton.mpr callThere
  have columned : Building.Makes (Building.column ⟨arena.size + 1⟩ 0) third ⟨arena.size + 2⟩
      fourth := by
    have described : third.output ⟨arena.size + 1⟩ = .ok sum.output :=
      (output_iff _).mpr ⟨sum, secondSize ▸ List.getElem?_concat_length, rfl⟩
    exact makes_column (congrArg NodeId.mk thirdSize.symm) (sumThere .source (by decide)) described rfl
  have projected : Building.Makes (Building.push total) fourth ⟨arena.size + 3⟩ last := by
    refine makes_push (congrArg NodeId.mk fourthSize.symm) rfl (List.forall_mem_cons.mpr ⟨?_, ?_⟩)
    · exact (Extends.adding third only).resolves (sumThere .input (by decide))
    · exact List.forall_mem_singleton.mpr onlyThere
  have made : Building.Makes (Building.countPlan root) arena arena.total last := by
    refine (Building.Makes.bindGet_iff _ _).mpr ?_
    refine (Building.Makes.bindLook_iff _ _ _).mpr ⟨_, output, ?_⟩
    refine (Building.Makes.bind_iff _ _ _).mpr ⟨_, _, called, ?_⟩
    refine (Building.Makes.bind_iff _ _ _).mpr ⟨_, _, summed, ?_⟩
    exact (Building.Makes.bind_iff _ _ _).mpr ⟨_, _, columned, projected⟩
  have same : arena.counting root = last := congrArg Prod.snd made
  rw [same]
  refine ⟨made, mentioned, ?_, ?_⟩
  · intro column member
    by_cases wide : 0 < node.output.schema.size
    · obtain rfl : column = 0 := by simpa [mentioned, wide] using member
      exact Nat.two_pow_pos 64
    · simp [mentioned, wide] at member
  · simp only [last, fourth, third, second, adding, List.append_assoc]
    rfl

/-- The plan that counts counts what the given plan gives. -/
theorem counting_isCount (found : arena.operator root = .ok operator) :
    (arena.counting root).IsCount root arena.total := by
  obtain ⟨-, mentioned, -, nodes⟩ := countPlan_made found
  have there (place : Nat) : (arena.counting root).nodes[arena.size + place]? =
      (arena.countNodes root mentioned)[place]? := by
    rw [nodes, size, List.getElem?_append_right (Nat.le_add_right _ _), Nat.add_sub_cancel_left]
  refine ⟨⟨arena.size⟩, ⟨arena.size + 1⟩, ⟨arena.size + 2⟩, mentioned, ?_, ?_, ?_, ?_⟩
  · exact (expression_iff _).mpr ⟨_, there 0, rfl⟩
  · exact (operator_iff _).mpr ⟨_, there 1, rfl⟩
  · exact (expression_iff _).mpr ⟨_, there 2, rfl⟩
  · exact (operator_iff _).mpr ⟨_, there 3, rfl⟩

/-- No other table is scanned by a plan that counts. -/
theorem scansAt_counting (found : arena.operator root = .ok operator) (place : NodeId)
    (table : LazyTable) (scans : (arena.counting root).ScansAt place table) :
    arena.ScansAt place table := by
  obtain ⟨-, mentioned, -, nodes⟩ := countPlan_made found
  obtain ⟨node, there, scanned⟩ := scans
  rw [nodes] at there
  rcases Nat.lt_or_ge place.index arena.nodes.length with inside | beyond
  · exact ⟨node, List.getElem?_append_left inside ▸ there, scanned⟩
  · have added := List.mem_of_getElem? (List.getElem?_append_right beyond ▸ there)
    have nothing : ∀ node ∈ arena.countNodes root mentioned, scanned? node.content = none := by
      simp [countNodes, scanned?]
    cases (nothing node added).symm.trans scanned

/-- The numbers in a plan that counts are machine words if there is room for its nodes. -/
theorem fits_counting (found : arena.operator root = .ok operator) (fits : arena.Fits)
    (room : arena.total.Fits) : (arena.counting root).Fits := by
  obtain ⟨-, mentioned, columns, nodes⟩ := countPlan_made found
  obtain ⟨node, there, -⟩ := (operator_iff operator).mp found
  have inside : root.index < arena.size := (List.getElem?_eq_some_iff.mp there).1
  have within (place : Nat) (before : place ≤ arena.size + 3) : NodeId.Fits ⟨place⟩ :=
    Nat.lt_of_le_of_lt before room
  have rooted : root.Fits := within root.index (by omega)
  intro node member
  rw [nodes] at member
  rcases List.mem_append.mp member with earlier | added
  · exact fits node earlier
  · have each : ∀ node ∈ arena.countNodes root mentioned, node.Fits := by
      refine List.forall_mem_cons.mpr ⟨⟨rooted, columns⟩, List.forall_mem_cons.mpr
        ⟨⟨rooted, List.forall_mem_nil _, ?_⟩, List.forall_mem_cons.mpr ⟨⟨within _ (by omega), ?_⟩,
          List.forall_mem_singleton.mpr ⟨within _ (by omega), ?_⟩⟩⟩⟩
      · exact List.forall_mem_singleton.mpr (within _ (by omega))
      · exact Nat.two_pow_pos 64
      · exact List.forall_mem_singleton.mpr (within _ (by omega))
    exact each node added

/-- A plan grows when one that counts is added, and stays one that was built. -/
theorem counting_grows (arena : Arena) (root : NodeId) :
    (arena.counting root).Extends arena ∧ (arena.IsBuilt → (arena.counting root).IsBuilt) := by
  have column (source : NodeId) (index : Nat) : Building.Grows (Building.column source index) :=
    .bind .get fun _ => .bind (.look _) fun _ => .bind (.look _) fun _ => .push _
  have counts : Building.Grows (Building.countPlan root) :=
    .bind .get fun _ => .bind (.look _) fun _ => .bind (.push _) fun _ => .bind (.push _) fun _ =>
      .bind (column _ _) fun _ => .push _
  exact counts arena

end Arena

namespace Textbook

/-- By the book the aggregate of one call that counts, for all rows at once, gives one row with
their number. -/
def counts? (arena : Arena) : Operator → Option (List Row → List Row)
  | .aggregate _ [] [call] =>
    match arena.expression call with
    | .ok expression =>
      if expression.countsRows then some fun rows => [[.ofCount rows.length]] else none
    | .error _ => none
  | _ => none

/-- What a textbook says about the operators of a plan and of one that counts its rows. -/
def practice (textbook : Textbook ε η) (arena : Arena) : Practice where
  change? operator := (textbook.change? operator).or (counts? arena operator)
  admits expression := expression.needsRowOnly || expression.countsRows

/-- The engine counts the rows of a plan by the book and without failing, if the tables that are
handed to the scans are of this kind. -/
structure Counts (textbook : Textbook ε η) (engine : Engine ε η) (arena : Arena) (root : NodeId)
    (handed : Batch → Prop) : Prop where
  /-- What is handed out in the end has the column of the numbers. -/
  shape : textbook.shape = { fields := [countField] }
  /-- A reference to a column reads it. -/
  columns : ∀ id source index, (arena.counting root).expression id = .ok (.column source index) →
    ∀ row : Row, textbook.value id row = row[index]?.getD .null
  builds : textbook.Builds (textbook.practice (arena.counting root)) engine (arena.counting root) handed
  finishes : textbook.Finishes engine (arena.counting root) arena.total
  /-- Handles need not be used. -/
  forgets : ∀ state entry others, textbook.holds state (entry :: others) → textbook.holds state others
  /-- The engine is right about the numbers of rows that it knows. -/
  rows : ∀ handle rows state count, textbook.holds state [(handle, .relation root rows)] →
    engine.rows handle state = some count → count = rows.length

end Textbook

namespace Arena

variable {arena later : Arena} {textbook : Textbook ε η} {scan root total : NodeId}
  {change : List Row → List Row}

/-- What is evaluated by the book is made by the practice of the textbook, whatever plans count and
also after the plan has grown. -/
theorem Yields.makes (yields : arena.Yields textbook scan root change)
    (further : later.Extends arena) (counter : Arena) :
    later.Makes (textbook.practice counter) scan root change := by
  induction yields with
  | scan operator found scans => exact .scan operator (further.operator found) scans
  | step id source operator change before found single changes own _ inductionHypothesis =>
    have changesToo : (textbook.practice counter).change? operator = some change :=
      congrArg (fun known => known.or (Textbook.counts? counter operator)) changes
    refine .step id source operator change before (further.operator found) single changesToo
      (fun part member => ?_) inductionHypothesis
    obtain ⟨formula, spells, rowWise⟩ := own part member
    exact ((spells.grown further).isOver rowWise).weaken fun _ needs =>
      Bool.or_eq_true_iff.mpr (.inl needs)

/-- Whatever the rows, the plan that counts makes one row of them that holds their number. -/
theorem IsCount.makes (counts : later.IsCount root total)
    (columns : ∀ id source index, later.expression id = .ok (.column source index) →
      ∀ row : Row, textbook.value id row = row[index]?.getD .null)
    (makes : later.Makes (textbook.practice later) scan root change) :
    later.Makes (textbook.practice later) scan total fun rows => [[.ofCount (change rows).length]] := by
  obtain ⟨call, sum, only, mentioned, called, summed, read, projected⟩ := counts
  have one : (textbook.practice later).change? (.aggregate root [] [call]) =
      some fun rows => [[.ofCount rows.length]] := by
    have known : Textbook.counts? later (.aggregate root [] [call]) =
        some fun rows => [[.ofCount rows.length]] := by
      rw [Textbook.counts?, called]
      exact if_pos (by simp [Expression.countsRows])
    exact known
  have callOver : later.IsOver (textbook.practice later).admits root call :=
    .intro call _ called rfl (fun _ same => (Option.some.inj same).symm) (List.forall_mem_nil _)
  have onlyOver : later.IsOver (textbook.practice later).admits sum only :=
    .intro only _ read rfl (fun _ same => (Option.some.inj same).symm) (List.forall_mem_nil _)
  have counted := Makes.step sum root _ _ _ summed rfl one (List.forall_mem_singleton.mpr callOver) makes
  have shown := Makes.step total sum _ _ _ projected rfl rfl (List.forall_mem_singleton.mpr onlyOver)
    counted
  have value (count : Scalar) : textbook.value only [count] = count := columns only sum 0 read [count]
  simpa only [List.map_cons, List.map_nil, value] using shown

end Arena

end Rankwise
