import Mathlib.Data.Nat.Basic
import Rankwise.Group.Call
import Rankwise.Proofs.Portions

/-!
# Tables by their rows

A table is held column by column. A consistent table is the table of its rows (`Batch.eq_ofRows`).
Blocks of a table are consecutive stretches of its rows and make up all of them
(`Batch.rowList_blocks`), and partitions of the same types are joined to the table of all of their
rows (`Group.joinPartitions_alike`).
-/

namespace Rankwise

/-- A row of a table, column by column. -/
abbrev Row := List Scalar

namespace Batch

/-- The row at a place. -/
def rowAt (batch : Batch) (index : Nat) : Row :=
  batch.columns.map fun column => column[index]?.getD .null

/-- The rows from the first to the last. -/
def rowList (batch : Batch) : List Row := (List.range batch.rows).map batch.rowAt

/-- The table of some rows. -/
def ofRows (schema : Schema) (rows : List Row) : Batch where
  schema
  columns := (List.range schema.size).map fun index => rows.map fun row => row[index]?.getD .null
  rows := rows.length

/-- The table of some rows is consistent. -/
theorem ofRows_consistent (schema : Schema) (rows : List Row) : (ofRows schema rows).Consistent := by
  constructor
  · simp [ofRows]
  · intro column member
    obtain ⟨index, -, rfl⟩ := List.mem_map.mp member
    exact List.length_map _

/-- A table has as many rows as it says. -/
theorem length_rowList (batch : Batch) : batch.rowList.length = batch.rows := by
  simp [rowList]

/-- Every row of a consistent table has a value for each field. -/
theorem length_of_mem_rowList (batch : Batch) (consistent : batch.Consistent) (row : Row)
    (member : row ∈ batch.rowList) : row.length = batch.schema.size := by
  obtain ⟨index, -, rfl⟩ := List.mem_map.mp member
  rw [rowAt, List.length_map]
  exact consistent.1

/-- A consistent table is the table of its rows. -/
theorem eq_ofRows (batch : Batch) (consistent : batch.Consistent) :
    batch = ofRows batch.schema batch.rowList := by
  obtain ⟨schema, columns, rows⟩ := batch
  obtain ⟨widths, heights⟩ := consistent
  simp only [ofRows, Batch.mk.injEq, true_and]
  refine ⟨?_, (length_rowList ⟨schema, columns, rows⟩).symm⟩
  apply List.ext_getElem
  · simpa using widths
  · intro index inside _
    have height : columns[index].length = rows := heights _ (List.getElem_mem inside)
    apply List.ext_getElem
    · simpa [rowList] using height
    · intro place there _
      have below : place < rows := height ▸ there
      simp [rowList, rowAt, inside, there]

/-- The rows of a table of rows are those rows, if each of them fits the schema. -/
theorem rowList_ofRows (schema : Schema) (rows : List Row)
    (wide : ∀ row ∈ rows, row.length = schema.size) : (ofRows schema rows).rowList = rows := by
  apply List.ext_getElem
  · simp [rowList, ofRows]
  · intro place inside there
    have width := wide _ (List.getElem_mem there)
    apply List.ext_getElem
    · simp [rowList, rowAt, ofRows, width]
    · intro index _ within
      simp [rowList, rowAt, ofRows, there, within]

/-- The empty table is the table of no rows. -/
theorem empty_eq (schema : Schema) : empty schema = ofRows schema [] := by
  simp [empty, ofRows, Schema.size, List.map_const']

/-- Tables of the same types are put one below the other. -/
theorem append_ofRows (schema other : Schema) (alike : other.datatypes = schema.datatypes)
    (above below : List Row) :
    (ofRows schema above).append (ofRows other below) = .ok (ofRows schema (above ++ below)) := by
  have width : other.size = schema.size := by
    simpa [Schema.datatypes, Schema.size] using congrArg List.length alike
  simp [append, ofRows, alike, width, List.zipWith_map]

/-- Tables of the same types make up the table of all of their rows. -/
theorem concat_rows (schema : Schema) (parts : List Batch)
    (tables : ∀ part ∈ parts, part.Consistent ∧ part.schema.datatypes = schema.datatypes) :
    concat schema parts = .ok (ofRows schema (parts.flatMap rowList)) := by
  have further (above : List Row) : parts.foldlM append (ofRows schema above) =
      .ok (ofRows schema (above ++ parts.flatMap rowList)) := by
    induction parts generalizing above with
    | nil => simp [pure, Except.pure]
    | cons part rest inductionHypothesis =>
      obtain ⟨⟨consistent, alike⟩, others⟩ := List.forall_mem_cons.mp tables
      have joined := append_ofRows schema part.schema alike above part.rowList
      rw [← part.eq_ofRows consistent] at joined
      rw [List.foldlM_cons, joined, List.flatMap_cons, ← List.append_assoc]
      exact inductionHypothesis others (above ++ part.rowList)
  rw [concat, empty_eq, further, List.nil_append]

/-! Blocks. -/

/-- The rows of a block are consecutive rows of the table. -/
theorem rowList_slice (batch : Batch) (offset count : Nat) :
    (batch.slice offset count).rowList = (batch.rowList.drop offset).take count := by
  apply List.ext_getElem
  · simp only [length_rowList, List.length_take, List.length_drop, slice]
    omega
  · intro place inside _
    have below : place < min (offset + count) batch.rows - min offset batch.rows := by
      rwa [length_rowList] at inside
    have start : min offset batch.rows = offset := by omega
    have within : offset + place < min (offset + count) batch.rows := by omega
    simp only [rowList, List.getElem_map, List.getElem_range, List.getElem_take, List.getElem_drop]
    simp only [rowAt, slice, List.map_map, Function.comp_def, start, List.getElem?_drop]
    refine List.map_congr_left fun column _ => ?_
    rw [List.getElem?_take_of_lt within]

/-- What is cut out of a consistent table is consistent. -/
theorem slice_consistent (batch : Batch) (consistent : batch.Consistent) (offset count : Nat) :
    (batch.slice offset count).Consistent := by
  obtain ⟨widths, heights⟩ := consistent
  constructor
  · simpa [slice] using widths
  · intro column member
    obtain ⟨whole, listed, rfl⟩ := List.mem_map.mp member
    have height := heights whole listed
    simp only [slice, List.length_drop, List.length_take]
    omega

/-- A block ends where the next one starts. -/
theorem blockStart_succ (rows count index : Nat) :
    blockStart rows count (index + 1) = blockStart rows count index + blockSize rows count index := by
  unfold blockStart blockSize
  rw [Nat.succ_mul]
  split <;> omega

/-- The last block ends where the table ends. -/
theorem blockStart_last (rows count : Nat) (positive : 0 < count) :
    blockStart rows count count = rows := by
  have rest := Nat.mod_lt rows positive
  unfold blockStart
  rw [Nat.min_eq_right (Nat.le_of_lt rest)]
  exact Nat.div_add_mod rows count

/-- The blocks of a table make up all of its rows. -/
theorem rowList_blocks (batch : Batch) (count : Nat) (positive : 0 < count) :
    ((List.range count).map (batch.block count)).flatMap rowList = batch.rowList := by
  have first (number : Nat) : ((List.range number).map (batch.block count)).flatMap rowList =
      batch.rowList.take (blockStart batch.rows count number) := by
    induction number with
    | zero => simp [blockStart]
    | succ number inductionHypothesis =>
      rw [List.range_succ, List.map_append, List.flatMap_append, inductionHypothesis,
        blockStart_succ, List.take_add]
      refine congrArg _ ?_
      show rowList (batch.slice _ _) ++ [] = _
      rw [List.append_nil, rowList_slice]
  rw [first, blockStart_last batch.rows count positive, ← length_rowList, List.take_length]

end Batch

/-- The partitions of a result have the same types, and each is consistent. -/
def Group.AreAlike (size : Nat) (partition : Nat → Batch) : Prop :=
  ∀ rank < size, (partition rank).Consistent ∧
    (partition rank).schema.datatypes = (partition 0).schema.datatypes

/-- The partitions of all ranks, one below the other. -/
def Group.whole (size : Nat) (partition : Nat → Batch) : Batch :=
  .ofRows (partition 0).schema (((List.range size).map partition).flatMap Batch.rowList)

/-- The rows of partitions of the same types, one below the other, are those of all ranks. -/
theorem Group.rowList_whole (size : Nat) (partition : Nat → Batch) (alike : AreAlike size partition) :
    (whole size partition).rowList = ((List.range size).map partition).flatMap Batch.rowList := by
  refine Batch.rowList_ofRows _ _ fun row member => ?_
  obtain ⟨part, listed, among⟩ := List.mem_flatMap.mp member
  obtain ⟨rank, inside, rfl⟩ := List.mem_map.mp listed
  obtain ⟨consistent, types⟩ := alike rank (List.mem_range.mp inside)
  have width : (partition rank).schema.size = (partition 0).schema.size := by
    simpa [Schema.datatypes, Schema.size] using congrArg List.length types
  exact width ▸ (partition rank).length_of_mem_rowList consistent row among

/-- Partitions of the same types are joined in the order of their ranks. -/
theorem Group.joinPartitions_alike (size : Nat) (manned : 0 < size) (partition : Nat → Batch)
    (alike : AreAlike size partition) :
    joinPartitions ((List.range size).map partition) = .ok (whole size partition) := by
  obtain ⟨others, rfl⟩ := Nat.exists_eq_succ_of_ne_zero (Nat.ne_of_gt manned)
  have tables : ∀ part ∈ (List.range (others + 1)).map partition,
      part.Consistent ∧ part.schema.datatypes = (partition 0).schema.datatypes := by
    intro part member
    obtain ⟨rank, inside, rfl⟩ := List.mem_map.mp member
    exact alike rank (List.mem_range.mp inside)
  have joined := Batch.concat_rows _ _ tables
  rw [whole]
  rw [List.range_succ_eq_map] at joined ⊢
  exact joined

/-- The blocks of a table are joined to the table. -/
theorem Group.whole_blocks (batch : Batch) (consistent : batch.Consistent) (size : Nat)
    (manned : 0 < size) : whole size (batch.block size) = batch := by
  rw [whole, Batch.rowList_blocks batch size manned]
  exact (batch.eq_ofRows consistent).symm

/-- The blocks of a consistent table are alike. -/
theorem Group.alike_blocks (batch : Batch) (consistent : batch.Consistent) (size : Nat) :
    AreAlike size (batch.block size) := fun _ _ =>
  ⟨batch.slice_consistent consistent _ _, rfl⟩

end Rankwise
