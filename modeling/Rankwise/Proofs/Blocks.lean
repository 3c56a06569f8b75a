import Mathlib.Algebra.GroupWithZero.Nat
import Rankwise.Proofs.Rows
import Rankwise.Proofs.Traversals

/-!
# Tables that are made and their blocks

Tables are made of columns, or as empty ones, and out of other tables: by choosing columns, by
cutting out rows, by splitting and by putting tables one below the other. However they were made,
columns, fields and the number of rows agree (`IsMade.consistent`), so nothing is read from outside
of a table.

The number of rows of each block is known beforehand (`rows_block`), and a block starts where the
blocks before it end (`sum_rows_blocks`). Main statement (`made_in_blocks`): a table is split into
as many blocks as were asked for, even ones up to a single row, and these make up the table again.
-/

namespace Rankwise.Batch

/-- Tables that come about by the operations on tables. -/
inductive IsMade : Batch → Prop
  | ofColumns (schema : Schema) (columns : List (List Scalar)) (batch : Batch)
      (accepted : Batch.ofColumns schema columns = .ok batch) : IsMade batch
  | empty (schema : Schema) : IsMade (Batch.empty schema)
  | project (batch : Batch) (indices : List Nat) (chosen : Batch) (made : IsMade batch)
      (found : batch.project indices = .ok chosen) : IsMade chosen
  | slice (batch : Batch) (offset count : Nat) (made : IsMade batch) :
      IsMade (batch.slice offset count)
  | block (batch : Batch) (count : Nat) (blocks : List Batch) (block : Batch) (made : IsMade batch)
      (split : batch.splitEven count = .ok blocks) (member : block ∈ blocks) : IsMade block
  | concat (schema : Schema) (parts : List Batch) (whole : Batch)
      (made : ∀ part ∈ parts, IsMade part) (joined : Batch.concat schema parts = .ok whole) :
      IsMade whole

/-! What each operation makes is consistent. -/

/-- The table without rows has columns of length zero. -/
theorem empty_consistent (schema : Schema) : (empty schema).Consistent := by
  rw [empty_eq]
  exact ofRows_consistent schema []

/-- Columns are accepted only if they are as many as the fields and all of one length. -/
theorem ofColumns_consistent (schema : Schema) (columns : List (List Scalar)) (batch : Batch)
    (accepted : ofColumns schema columns = .ok batch) : batch.Consistent := by
  unfold ofColumns at accepted
  split at accepted
  case isTrue => cases accepted
  case isFalse counted =>
    dsimp only at accepted
    split at accepted
    case h_1 => cases accepted
    case h_2 nowhere =>
      obtain rfl := Except.ok.inj accepted
      constructor
      · exact Decidable.not_not.mp counted
      · intro column member
        obtain ⟨index, inside, rfl⟩ := List.getElem_of_mem member
        have even := List.find?_eq_none.mp nowhere (columns[index], index)
          (List.mem_zipIdx_iff_getElem?.mpr (List.getElem?_eq_getElem inside))
        simpa using even

/-- All fields that are chosen are there. -/
theorem fields_of_project (batch : Batch) (indices : List Nat) (chosen : Batch)
    (found : batch.project indices = .ok chosen) :
    (∀ index ∈ indices, index < batch.schema.size) ∧
      chosen.schema.size = indices.length ∧ chosen.rows = batch.rows ∧
      chosen.columns = indices.map fun index => batch.columns[index]?.getD [] := by
  unfold project at found
  cases looked : indices.mapM batch.schema.field with
  | error failure =>
    rw [looked] at found
    cases found
  | ok fields =>
    rw [looked] at found
    obtain rfl := Except.ok.inj found
    obtain ⟨counted, each⟩ := mapM_ok looked
    refine ⟨fun index listed => ?_, counted, rfl, rfl⟩
    obtain ⟨field, here⟩ := each index listed
    by_contra outside
    simp [Schema.field, List.getElem?_eq_none (Nat.le_of_not_lt outside)] at here

/-- To choose among columns of one length gives columns of this length. -/
theorem project_consistent (batch : Batch) (consistent : batch.Consistent) (indices : List Nat)
    (chosen : Batch) (found : batch.project indices = .ok chosen) : chosen.Consistent := by
  obtain ⟨inside, width, height, columns⟩ := batch.fields_of_project indices chosen found
  obtain ⟨widths, heights⟩ := consistent
  constructor
  · rw [columns, width, List.length_map]
  · intro column member
    rw [columns] at member
    obtain ⟨index, listed, rfl⟩ := List.mem_map.mp member
    have there : index < batch.columns.length := widths ▸ inside index listed
    rw [List.getElem?_eq_getElem there, Option.getD_some, height]
    exact heights _ (List.getElem_mem there)

/-- The columns of both tables are joined, so they have one length again. -/
theorem append_consistent (batch next whole : Batch) (consistent : batch.Consistent)
    (consistentToo : next.Consistent) (joined : batch.append next = .ok whole) :
    whole.Consistent := by
  unfold append at joined
  split at joined
  case isTrue => cases joined
  case isFalse alike =>
    have types := Decidable.not_not.mp alike
    have joins := append_ofRows batch.schema next.schema types batch.rowList next.rowList
    rw [← batch.eq_ofRows consistent, ← next.eq_ofRows consistentToo, append, if_neg alike, joined]
      at joins
    obtain rfl := Except.ok.inj joins
    exact ofRows_consistent _ _

/-- Tables that are put below a consistent one, one after the other, leave it consistent. -/
theorem foldlM_append_consistent (parts : List Batch) (above whole : Batch)
    (consistentAbove : above.Consistent) (consistent : ∀ part ∈ parts, part.Consistent)
    (joined : parts.foldlM append above = .ok whole) : whole.Consistent := by
  induction parts generalizing above with
  | nil =>
    cases joined
    exact consistentAbove
  | cons part rest inductionHypothesis =>
    obtain ⟨here, others⟩ := List.forall_mem_cons.mp consistent
    rw [List.foldlM_cons] at joined
    cases first : above.append part with
    | error failure =>
      rw [first] at joined
      cases joined
    | ok middle =>
      rw [first] at joined
      have kept := append_consistent above part middle consistentAbove here first
      exact inductionHypothesis middle kept others joined

/-- Blocks are cut out of the table. -/
theorem mem_splitEven (batch : Batch) (count : Nat) (blocks : List Batch)
    (split : batch.splitEven count = .ok blocks) (block : Batch) (member : block ∈ blocks) :
    ∃ offset size, block = batch.slice offset size := by
  unfold splitEven at split
  split at split
  case isTrue => cases split
  case isFalse =>
    obtain rfl := Except.ok.inj split
    obtain ⟨index, -, rfl⟩ := List.mem_map.mp member
    exact ⟨_, _, rfl⟩

/-- However a table was made, there is one column per field and every column has the stated number
of rows. -/
theorem IsMade.consistent {batch : Batch} (made : batch.IsMade) : batch.Consistent := by
  induction made with
  | ofColumns schema columns batch accepted => exact ofColumns_consistent schema columns batch accepted
  | empty schema => exact empty_consistent schema
  | project batch indices chosen _ found inductionHypothesis =>
    exact batch.project_consistent inductionHypothesis indices chosen found
  | slice batch offset count _ inductionHypothesis =>
    exact batch.slice_consistent inductionHypothesis offset count
  | block batch count blocks block _ split member inductionHypothesis =>
    obtain ⟨offset, size, rfl⟩ := batch.mem_splitEven count blocks split block member
    exact batch.slice_consistent inductionHypothesis offset size
  | concat schema parts whole _ joined inductionHypothesis =>
    exact foldlM_append_consistent parts (Batch.empty schema) whole (empty_consistent schema)
      inductionHypothesis joined

/-! The sizes of blocks. -/

/-- No block starts behind the last row. -/
theorem blockStart_le (rows count index : Nat) (inside : index ≤ count) :
    blockStart rows count index ≤ rows := by
  have even : index * (rows / count) ≤ count * (rows / count) := Nat.mul_le_mul_right _ inside
  have whole := Nat.div_add_mod rows count
  unfold blockStart
  omega

/-- A block has the rows that are counted for it. -/
theorem rows_block (batch : Batch) (count index : Nat) (inside : index < count) :
    (batch.block count index).rows = blockSize batch.rows count index := by
  have ends := blockStart_le batch.rows count (index + 1) inside
  rw [blockStart_succ] at ends
  simp only [block, slice]
  omega

/-- Earlier blocks are not smaller than later ones, and larger by one row at most. -/
theorem blockSize_even (rows count earlier later : Nat) (before : earlier < later) :
    blockSize rows count later ≤ blockSize rows count earlier ∧
      blockSize rows count earlier ≤ blockSize rows count later + 1 := by
  unfold blockSize
  split <;> split <;> omega

/-- A block starts behind the rows of all blocks before it. -/
theorem sum_rows_blocks (batch : Batch) (count number : Nat) (inside : number ≤ count) :
    (((List.range number).map (batch.block count)).map rows).sum =
      blockStart batch.rows count number := by
  induction number with
  | zero => simp [blockStart]
  | succ number inductionHypothesis =>
    rw [List.range_succ, List.map_append, List.map_append, List.sum_append,
      inductionHypothesis (Nat.le_of_succ_le inside), blockStart_succ]
    simp [rows_block batch count number inside]

/-- What lies before an item of a list of blocks are the blocks with smaller numbers. -/
theorem blocks_before (batch : Batch) (count : Nat) (before after : List Batch) (block : Batch)
    (split : (List.range count).map (batch.block count) = before ++ block :: after) :
    before.length < count ∧ block = batch.block count before.length ∧
      before = (List.range before.length).map (batch.block count) := by
  have counted := congrArg List.length split
  simp only [List.length_map, List.length_range, List.length_append, List.length_cons] at counted
  have inside : before.length < count := by omega
  refine ⟨inside, ?_, ?_⟩
  · have here := congrArg (fun blocks => blocks[before.length]?) split
    simp only [List.getElem?_map, List.getElem?_range inside, Option.map_some,
      List.getElem?_append_right (Nat.le_refl _), Nat.sub_self,
      List.getElem?_cons_zero, Option.some.injEq] at here
    exact here.symm
  · have taken := congrArg (List.take before.length) split
    rw [← List.map_take, List.take_range, Nat.min_eq_left (Nat.le_of_lt inside), List.take_left]
      at taken
    exact taken.symm

/-- However a table was made, there is one column per field, all as long as the number of rows, so
that choosing columns that have fields and cutting out rows stay within the columns. Split into
blocks, it gives as many as were asked for. Earlier ones are not smaller than later ones and larger
by one row at most, each holds the rows that follow those of the blocks before it, and one below the
other they are the table again. -/
theorem made_in_blocks (batch : Batch) (made : batch.IsMade) :
    batch.Consistent ∧
      (∀ indices chosen, batch.project indices = .ok chosen →
        ∀ index ∈ indices, index < batch.columns.length) ∧
      (∀ offset count, ∀ column ∈ batch.columns,
        min offset batch.rows ≤ min (offset + count) batch.rows ∧
          min (offset + count) batch.rows ≤ column.length) ∧
      ∀ count, 0 < count → ∃ blocks, batch.splitEven count = .ok blocks ∧
        blocks.length = count ∧
        (blocks.map rows).Pairwise (fun earlier later => later ≤ earlier ∧ earlier ≤ later + 1) ∧
        (∀ before block after, blocks = before ++ block :: after →
          block.schema = batch.schema ∧
            block.columns = batch.columns.map fun column =>
              (column.drop (before.map rows).sum).take block.rows) ∧
        concat batch.schema blocks = .ok batch := by
  have consistent := made.consistent
  refine ⟨consistent, ?_, ?_, ?_⟩
  · intro indices chosen found index listed
    rw [consistent.1]
    exact (batch.fields_of_project indices chosen found).1 index listed
  · intro offset count column member
    rw [consistent.2 column member]
    omega
  · intro count positive
    -- The blocks have the sizes that their number asks for, lie one behind the other and make up
    -- the table.
    refine ⟨_, batch.splitEven_eq count positive, by simp, ?_, ?_, ?_⟩
    · have sizes : ((List.range count).map (batch.block count)).map rows =
          (List.range count).map (blockSize batch.rows count) := by
        rw [List.map_map]
        refine List.map_congr_left fun index inside => ?_
        exact rows_block batch count index (List.mem_range.mp inside)
      rw [sizes, List.pairwise_map]
      exact List.pairwise_lt_range.imp (blockSize_even batch.rows count _ _)
    · intro before block after split
      obtain ⟨inside, rfl, blocks⟩ := blocks_before batch count before after block split
      have start := sum_rows_blocks batch count before.length (Nat.le_of_lt inside)
      rw [← blocks] at start
      have below := blockStart_le batch.rows count before.length (Nat.le_of_lt inside)
      refine ⟨rfl, ?_⟩
      rw [start]
      simp only [Batch.block, slice]
      refine List.map_congr_left fun column _ => ?_
      rw [List.drop_take, Nat.min_eq_left below]
    · have joined := concat_rows batch.schema ((List.range count).map (batch.block count)) (by
        intro part member
        obtain ⟨index, -, rfl⟩ := List.mem_map.mp member
        exact ⟨batch.slice_consistent consistent _ _, rfl⟩)
      rw [joined, rowList_blocks batch count positive, ← batch.eq_ofRows consistent]

/-- Two rows without columns, split into three blocks: the last one is empty. -/
theorem bare_in_blocks :
    let bare : Batch := { schema := {}, columns := [], rows := 2 }
    bare.IsMade ∧ ∃ blocks, bare.splitEven 3 = .ok blocks ∧ blocks.map rows = [1, 1, 0] ∧
      concat bare.schema blocks = .ok bare := by
  intro bare
  have full : (⟨⟨[⟨"a", .int64, false⟩]⟩, [[.int64 1, .int64 2]], 2⟩ : Batch).IsMade :=
    .ofColumns ⟨[⟨"a", .int64, false⟩]⟩ [[.int64 1, .int64 2]] _ rfl
  have made : bare.IsMade := .project _ [] bare full rfl
  obtain ⟨-, -, -, splits⟩ := made_in_blocks bare made
  obtain ⟨blocks, split, -, -, -, joined⟩ := splits 3 (by decide)
  obtain rfl := Except.ok.inj split
  exact ⟨made, _, split, by decide, joined⟩

end Rankwise.Batch
