import Rankwise.Proofs.ReadingMessages

/-!
# Messages hold whole numbers alone

Every message is written as a structured value in which all numbers are integers that fit a word
(`Message.isWhole`): words as they are, doubles as their bit patterns, sizes and the tags of
commands as numbers without a sign.
-/

namespace Rankwise

open Json (isWhole_choice isWhole_array isWhole_strings isWhole_ofOption isWhole_named
  isWhole_natural)

/-- A datatype is written without fractions. -/
theorem Datatype.isWhole (datatype : Datatype) : datatype.encode.IsWhole := by
  cases datatype <;> trivial

/-- So is a scalar, a double as its bit pattern. -/
theorem Scalar.isWhole (scalar : Scalar) : scalar.encode.IsWhole := by
  cases scalar with
  | null => trivial
  | boolean | utf8 => exact (isWhole_choice _ _).mpr trivial
  | int32 value =>
    have least := value.le_toInt
    have greatest := value.toInt_lt
    exact (isWhole_choice _ _).mpr ⟨by omega, by omega⟩
  | int64 value | timestamp value =>
    have least := value.le_toInt
    have greatest := value.toInt_lt
    exact (isWhole_choice _ _).mpr ⟨by omega, by omega⟩
  | uint64 value => exact (isWhole_choice _ _).mpr (isWhole_natural _ value.toNat_lt)
  | float64 value => exact (isWhole_choice _ _).mpr (isWhole_natural _ value.bits.toNat_lt)

/-- So is a field. -/
theorem Field.isWhole (field : Field) : field.encode.IsWhole :=
  ⟨trivial, field.datatype.isWhole, trivial, trivial⟩

/-- So is a schema. -/
theorem Schema.isWhole (schema : Schema) : schema.encode.IsWhole := by
  refine ⟨(isWhole_array _).mpr (List.forall_mem_map.mpr ?_), trivial⟩
  exact fun field _ => field.isWhole

/-- So is a batch whose number of rows is a machine word. -/
theorem Batch.isWhole (batch : Batch) (fits : batch.Fits) : batch.encode.IsWhole := by
  refine ⟨batch.schema.isWhole, ?_, isWhole_natural _ fits, trivial⟩
  refine (isWhole_array _).mpr (List.forall_mem_map.mpr fun column _ => ?_)
  exact (isWhole_array _).mpr (List.forall_mem_map.mpr fun scalar _ => scalar.isWhole)

/-- So is the source of a table. -/
theorem TableSource.isWhole (source : TableSource) (fits : source.Fits) :
    source.encode.IsWhole := by
  cases source with
  | data batch => exact (isWhole_choice _ _).mpr (batch.isWhole fits)
  | path => exact (isWhole_choice _ _).mpr trivial

/-- So is the context of a table. -/
theorem TableContext.isWhole (context : TableContext) (fits : context.Fits) :
    context.encode.IsWhole := by
  refine ⟨(isWhole_named _ _).mpr fun entry member => entry.2.isWhole (fits.2 entry member), ?_, ?_,
    trivial⟩
  all_goals exact (isWhole_ofOption _ _).mpr fun _ _ => trivial

namespace Value

mutual

/-- A value is written without fractions. -/
theorem isWhole (value : Value) (fits : value.Fits) : value.encode.IsWhole := by
  cases value with
  | null => trivial
  | scalar value => exact (isWhole_choice _ _).mpr value.isWhole
  | table batch => exact (isWhole_choice _ _).mpr (batch.isWhole fits)
  | tuple items => exact (isWhole_choice _ _).mpr (itemsAreWhole items fits)
  | map entries => exact (isWhole_choice _ _).mpr (entriesAreWhole entries fits.2)
  | function name => exact (isWhole_choice _ _).mpr ⟨trivial, trivial⟩
  | context found => exact (isWhole_choice _ _).mpr (found.isWhole fits)
  | json found => exact (isWhole_choice _ _).mpr fits.2

/-- So are the items of a tuple. -/
theorem itemsAreWhole (items : List Value) (fit : ItemsFit items) :
    Json.ItemsAreWhole (encodeItems items) := by
  cases items with
  | nil => trivial
  | cons item rest => exact ⟨item.isWhole fit.1, itemsAreWhole rest fit.2⟩

/-- So are the entries of a map. -/
theorem entriesAreWhole (entries : Named Value) (fit : EntriesFit entries) :
    Json.MembersAreWhole (encodeEntries entries) := by
  cases entries with
  | nil => trivial
  | cons entry rest => exact ⟨entry.2.isWhole fit.1, entriesAreWhole rest fit.2⟩

end

end Value

/-- The description of a computation is written without fractions. -/
theorem Computation.isWhole (computation : Computation) : computation.encode.IsWhole :=
  ⟨trivial, isWhole_strings _, ⟨isWhole_strings _, isWhole_strings _, isWhole_strings _, trivial⟩,
    trivial⟩

namespace Distribution

mutual

/-- A distribution is written without any number. -/
theorem isWhole (shape : Distribution) : shape.encode.IsWhole := by
  cases shape with
  | replicated | distributed => trivial
  | tuple items => exact (isWhole_choice _ _).mpr (itemsAreWhole items)
  | map entries => exact (isWhole_choice _ _).mpr (entriesAreWhole entries)

/-- So are the items of a tuple. -/
theorem itemsAreWhole (items : List Distribution) : Json.ItemsAreWhole (encodeItems items) := by
  cases items with
  | nil => trivial
  | cons item rest => exact ⟨item.isWhole, itemsAreWhole rest⟩

/-- So are the entries of a map. -/
theorem entriesAreWhole (entries : Named Distribution) :
    Json.MembersAreWhole (encodeEntries entries) := by
  cases entries with
  | nil => trivial
  | cons entry rest => exact ⟨entry.2.isWhole, entriesAreWhole rest⟩

end

end Distribution

/-- A failure is written without fractions. -/
theorem RankFailure.isWhole (failure : RankFailure) : failure.encode.IsWhole := by
  refine ⟨trivial, trivial, (isWhole_array _).mpr (List.forall_mem_map.mpr fun _ _ => ?_), trivial⟩
  exact isWhole_strings _

/-- So is the way a table travels. -/
theorem Transfer.isWhole (transfer : Transfer) : transfer.encode.IsWhole := by
  cases transfer <;> trivial

/-- So is the shipment of a table. -/
theorem TableShipment.isWhole (shipment : TableShipment) : shipment.encode.IsWhole := by
  cases shipment with
  | path => exact (isWhole_choice _ _).mpr trivial
  | placeholder transfer => exact (isWhole_choice _ _).mpr transfer.isWhole

/-- So is the shipment of a context. -/
theorem ContextShipment.isWhole (shipment : ContextShipment) : shipment.encode.IsWhole := by
  refine ⟨(isWhole_named _ _).mpr fun entry _ => entry.2.isWhole, ?_, ?_, trivial⟩
  all_goals exact (isWhole_ofOption _ _).mpr fun _ _ => trivial

namespace Skeleton

mutual

/-- A skeleton is written without fractions. -/
theorem isWhole (skeleton : Skeleton) (fits : skeleton.Fits) : skeleton.encode.IsWhole := by
  cases skeleton with
  | value found => exact (isWhole_choice _ _).mpr (found.isWhole fits)
  | placeholder transfer => exact (isWhole_choice _ _).mpr transfer.isWhole
  | tuple items => exact (isWhole_choice _ _).mpr (itemsAreWhole items fits)
  | map entries => exact (isWhole_choice _ _).mpr (entriesAreWhole entries fits.2)
  | context shipment => exact (isWhole_choice _ _).mpr shipment.isWhole

/-- So are the items of a tuple. -/
theorem itemsAreWhole (items : List Skeleton) (fit : ItemsFit items) :
    Json.ItemsAreWhole (encodeItems items) := by
  cases items with
  | nil => trivial
  | cons item rest => exact ⟨item.isWhole fit.1, itemsAreWhole rest fit.2⟩

/-- So are the entries of a map. -/
theorem entriesAreWhole (entries : Named Skeleton) (fit : EntriesFit entries) :
    Json.MembersAreWhole (encodeEntries entries) := by
  cases entries with
  | nil => trivial
  | cons entry rest => exact ⟨entry.2.isWhole fit.1, entriesAreWhole rest fit.2⟩

end

end Skeleton

/-- What is told of a partition is written without fractions. -/
theorem PartitionMeta.isWhole (partition : PartitionMeta) (fits : partition.Fits) :
    partition.encode.IsWhole :=
  ⟨isWhole_natural _ fits, partition.schema.isWhole, trivial⟩

/-- Every message that fits is written without fractions. -/
theorem Message.isWhole (message : Message) (fits : message.Fits) : message.encode.IsWhole := by
  cases message with
  | command order =>
    have small : order.tag < 0x10000000000000000 := by cases order <;> decide
    exact (isWhole_choice _ _).mpr (isWhole_natural _ small)
  | environment found =>
    exact (isWhole_choice _ _).mpr ⟨(isWhole_named _ _).mpr fun _ _ => trivial, trivial⟩
  | arguments positional keyword =>
    have args := Skeleton.itemsAreWhole positional fits.1
    have kwargs := Skeleton.entriesAreWhole keyword fits.2.2
    rw [Skeleton.encodeItems_eq] at args
    rw [Skeleton.encodeEntries_eq] at kwargs
    exact (isWhole_choice _ _).mpr ⟨args, kwargs, trivial⟩
  | data batch => exact (isWhole_choice _ _).mpr (batch.isWhole fits)
  | resultId id => exact (isWhole_choice _ _).mpr trivial
  | computation description call =>
    exact (isWhole_choice _ _).mpr ⟨description.isWhole, trivial, trivial⟩
  | completed => trivial
  | status failure =>
    refine (isWhole_choice _ _).mpr ((isWhole_ofOption _ _).mpr ?_)
    exact fun found _ => found.isWhole
  | proceed goOn => exact (isWhole_choice _ _).mpr trivial
  | outputShape shape => exact (isWhole_choice _ _).mpr shape.isWhole
  | value found => exact (isWhole_choice _ _).mpr (found.isWhole fits)
  | partitionMeta found =>
    refine (isWhole_choice _ _).mpr ((isWhole_ofOption _ _).mpr ?_)
    exact fun partition member => partition.isWhole (fits partition member)
  | partition found =>
    refine (isWhole_choice _ _).mpr ((isWhole_ofOption _ _).mpr ?_)
    exact fun batch member => batch.isWhole (fits batch member)

end Rankwise
