import Rankwise.Proofs.ReadingTables
import Rankwise.Proofs.WholeNumbers

/-!
# Values are read back as they were written

`Fits` says what holds of every value by the types of its parts: sizes are machine words, entries
stand in the order of their names, and so do the members of structured values that are passed
through. Of these it asks in addition that they hold no doubles. Values, skeletons of arguments and
the shapes of outputs are trees of one kind, with tuples and maps over leaves of their own, and are
read alike (`Json.ReadsTrees`).
-/

namespace Rankwise

open Json (Reads Record Choice Decoder Written)

namespace Json

variable {α : Type}

/-- A decoder reads trees of leaves, tuples and maps. -/
structure ReadsTrees (decode : Decoder α) (leaf : Choice → Option α) (tuple : List α → α)
    (map : Named α → α) : Prop where
  leaf : ∀ room tree choice, choice.name ≠ "Tuple" → choice.name ≠ "Map" →
    Choice.open? room tree = some choice → decode room tree = leaf choice
  tuple : ∀ room items, decode (room + 2) (.object [(some "Tuple", .array items)]) =
    (items.mapM (decode room)).map tuple
  map : ∀ room (members : List (Option String × Written)),
    decode (room + 2) (.object [(some "Map", .object members)]) =
      (members.mapM fun (member : Option String × Written) => do
        return (← member.1, ← decode room member.2)).bind fun entries =>
          some (map (Named.ofList entries))

namespace ReadsTrees

variable {decode : Decoder α} {leaf : Choice → Option α} {tuple : List α → α} {map : Named α → α}

/-- A leaf that carries something is read back. -/
theorem reads_leaf {decoder : Decoder α} {payload : Json} {value : α}
    (trees : ReadsTrees decode leaf tuple map) (name : String)
    (known : name ≠ "Tuple" ∧ name ≠ "Map")
    (picks : ∀ room tree, leaf ⟨room, name, tree⟩ = Choice.carrying ⟨room, name, tree⟩ decoder)
    (reads : Reads decoder payload value) : Reads decode (.choice name payload) value := by
  intro arrangement room enough
  obtain ⟨rest, fits, opened⟩ := Choice.open?_choice name payload arrangement room enough
  rw [trees.leaf _ _ _ known.1 known.2 opened, picks, Choice.carrying, Option.bind_some]
  exact reads arrangement rest fits

/-- A leaf that carries nothing is read back. -/
theorem reads_bare (trees : ReadsTrees decode leaf tuple map) (name : String)
    (known : name ≠ "Tuple" ∧ name ≠ "Map") (value : α)
    (picks : ∀ room, leaf ⟨room, name, none⟩ = some value) :
    Reads decode (.string name) value := by
  rintro ⟨⟩ room _ <;> exact (trees.leaf room _ _ known.1 known.2 rfl).trans (picks room)

/-- A tuple is read back if its items are. -/
theorem reads_tuple (trees : ReadsTrees decode leaf tuple map) {items : List Json} {values : List α}
    (each : List.Forall₂ (Reads decode) items values) :
    Reads decode (.choice "Tuple" (.array items)) (tuple values) := by
  intro arrangement room enough
  have shape : arrangement.of (.choice "Tuple" (.array items)) =
      .choice "Tuple" (.array (items.map arrangement.of)) := by
    rw [← arrangement.of_array]
    cases arrangement <;> rfl
  rw [shape] at enough ⊢
  obtain ⟨room, rfl, within⟩ := room_of_opened enough
  have below : (array (items.map arrangement.of)).depth ≤ room :=
    Nat.le_trans (Nat.le_max_left _ _) within
  obtain ⟨room, rfl, fits⟩ := room_of_opened below
  have read := arrangement.mapM_items each room fits
  exact (trees.tuple room _).trans (congrArg (Option.map tuple) read)

/-- A map is read back if its entries are. -/
theorem reads_map (trees : ReadsTrees decode leaf tuple map) {encode : α → Json} (entries : Named α)
    (ordered : entries.Ordered) (each : ∀ entry ∈ entries, Reads decode (encode entry.2) entry.2) :
    Reads decode (.choice "Map" (.object (entries.mapValues encode))) (map entries) := by
  intro arrangement room enough
  have still := ordered.mapValues encode
  have shape : arrangement.of (.choice "Map" (.object (entries.mapValues encode))) =
      .choice "Map" (.object ((entries.mapValues encode).mapValues arrangement.of)) := by
    rw [← arrangement.of_ordered _ still]
    cases arrangement <;> rfl
  rw [shape] at enough ⊢
  obtain ⟨room, rfl, within⟩ := room_of_opened enough
  have below : (object ((entries.mapValues encode).mapValues arrangement.of)).depth ≤ room :=
    Nat.le_trans (Nat.le_max_left _ _) within
  obtain ⟨room, rfl, fits⟩ := room_of_opened below
  have read := arrangement.mapM_entries entries each room fits
  refine (trees.map room _).trans ((congrArg (Option.bind · _) read).trans ?_)
  rw [Option.bind_some, Named.ofList_of_ordered _ ordered]

end ReadsTrees

/-! Structured values that are passed through. -/

mutual

/-- The members of all objects stand in the order of their names. -/
def IsOrdered : Json → Prop
  | array items => ItemsAreOrdered items
  | object members => Named.Ordered members ∧ MembersAreOrdered members
  | _ => True

/-- The objects within the items are in order. -/
def ItemsAreOrdered : List Json → Prop
  | [] => True
  | item :: rest => IsOrdered item ∧ ItemsAreOrdered rest

/-- The objects within the members are in order. -/
def MembersAreOrdered : List (String × Json) → Prop
  | [] => True
  | (_, value) :: rest => IsOrdered value ∧ MembersAreOrdered rest

end

mutual

/-- A structured value whose objects are in order is read back as it is. -/
theorem reads (json : Json) (ordered : json.IsOrdered) : Reads decode json json := by
  cases json with
  | null | boolean | integer | double | string =>
    rintro ⟨⟩ room _ <;> cases room <;> rfl
  | array items =>
    intro arrangement room enough
    rw [arrangement.of_array, depth] at enough
    obtain ⟨room, rfl, fits⟩ := room_of_opened enough
    have read := arrangement.mapM_items (readsItems items ordered) room fits
    rw [arrangement.of_array, written, decode, read]
    rfl
  | object members =>
    intro arrangement room enough
    rw [arrangement.of_ordered _ ordered.1, depth] at enough
    obtain ⟨room, rfl, fits⟩ := room_of_opened enough
    have same : Named.mapValues id members = members := List.map_id members
    have read := arrangement.mapM_entries members (readsMembers members ordered.2) room
      (same.symm ▸ fits)
    rw [same] at read
    rw [arrangement.of_ordered _ ordered.1, written, decode, read]
    exact congrArg (some ∘ object) (Named.ofList_of_ordered members ordered.1)

/-- The items of an array are read as they stand. -/
theorem readsItems (items : List Json) (ordered : ItemsAreOrdered items) :
    List.Forall₂ (Reads decode) items items := by
  cases items with
  | nil => exact .nil
  | cons item rest => exact .cons (reads item ordered.1) (readsItems rest ordered.2)

/-- The members of an object are read as they stand. -/
theorem readsMembers (members : List (String × Json)) (ordered : MembersAreOrdered members) :
    ∀ entry ∈ members, Reads decode entry.2 entry.2 := by
  cases members with
  | nil => exact nofun
  | cons member rest =>
    exact List.forall_mem_cons.mpr ⟨reads member.2 ordered.1, readsMembers rest ordered.2⟩

end

end Json

namespace TableSource

/-- The number of rows is a machine word. -/
def Fits : TableSource → Prop
  | data batch => batch.Fits
  | path _ => True

/-- The source of a table is read back as itself. -/
theorem reads (source : TableSource) (fits : source.Fits) : Reads decode source.encode source := by
  cases source with
  | data batch =>
    exact Json.reads_choice "Data" (fun _ _ => rfl) ((batch.reads fits).andThen _ _ rfl)
  | path location =>
    exact Json.reads_choice "Path" (fun _ _ => rfl) ((Json.reads_string location).andThen _ _ rfl)

end TableSource

namespace TableContext

/-- The tables stand in the order of their names, and their sizes are machine words. -/
def Fits (context : TableContext) : Prop :=
  context.tables.Ordered ∧ ∀ entry ∈ context.tables, entry.2.Fits

/-- The context of a table is read back, with its tables and its plain data. -/
theorem reads (context : TableContext) (fits : context.Fits) :
    Reads decode context.encode context := by
  apply Json.reads_record ["tables", "catalog", "default_tz"] (by decide) _ rfl
  refine .field "tables" rfl (Json.reads_named context.tables fits.1
    fun entry member => entry.2.reads (fits.2 entry member)) ?_
  refine .text? "catalog" rfl ?_
  exact .text? "default_tz" rfl .done

end TableContext

namespace Value

mutual

/-- Sizes are machine words, entries stand in the order of their names, and structured values that
are passed through hold integers alone. -/
def Fits : Value → Prop
  | null | scalar _ | function _ => True
  | table batch => batch.Fits
  | tuple items => ItemsFit items
  | map entries => Named.Ordered entries ∧ EntriesFit entries
  | context found => found.Fits
  | json found => found.IsOrdered ∧ found.IsWhole

/-- The items are such values. -/
def ItemsFit : List Value → Prop
  | [] => True
  | item :: rest => Fits item ∧ ItemsFit rest

/-- The entries are such values. -/
def EntriesFit : Named Value → Prop
  | [] => True
  | (_, entry) :: rest => Fits entry ∧ EntriesFit rest

end

/-- The items of a tuple are written one by one. -/
theorem encodeItems_eq (items : List Value) : encodeItems items = items.map encode := by
  induction items with
  | nil => rfl
  | cons item rest inductionHypothesis => rw [encodeItems, inductionHypothesis, List.map_cons]

/-- The entries of a map are written one by one, each under its name. -/
theorem encodeEntries_eq (entries : Named Value) :
    encodeEntries entries = entries.mapValues encode := by
  induction entries with
  | nil => rfl
  | cons entry rest inductionHypothesis =>
    rw [encodeEntries, inductionHypothesis]
    rfl

/-- Values are written as trees whose leaves are plain data, tables and contexts. -/
theorem readsTrees : Json.ReadsTrees decode decodeLeaf tuple map where
  leaf room tree choice noTuple noMap opened := by
    match room with
    | 0 | 1 => rw [decode, opened, Option.bind_some]
    | room + 2 =>
      rw [decode, opened, Option.bind_some]
      split
      case h_1 named _ => exact absurd named noTuple
      case h_2 named _ => exact absurd named noMap
      case h_3 => rfl
  tuple _ _ := rfl
  map _ _ := rfl

mutual

/-- A value that fits is read back as itself. -/
theorem reads (value : Value) (fits : value.Fits) : Reads decode value.encode value := by
  cases value with
  | null => exact readsTrees.reads_bare "Null" (by decide) _ fun _ => rfl
  | scalar value =>
    exact readsTrees.reads_leaf "Scalar" (by decide) (fun _ _ => rfl) (value.reads.andThen _ _ rfl)
  | table batch =>
    exact readsTrees.reads_leaf "Table" (by decide) (fun _ _ => rfl)
      ((batch.reads fits).andThen _ _ rfl)
  | tuple items =>
    rw [encode, encodeItems_eq]
    exact readsTrees.reads_tuple (readsItems items fits)
  | map entries =>
    rw [encode, encodeEntries_eq]
    exact readsTrees.reads_map entries fits.1 (readsEntries entries fits.2)
  | function name =>
    have read : Reads decodeFunction (.object [("name", .string name)]) name := by
      apply Json.reads_record ["name"] (by decide) _ rfl
      intro record holds
      exact holds.field "name" rfl (Json.reads_string name)
    exact readsTrees.reads_leaf "Function" (by decide) (fun _ _ => rfl) (read.andThen _ _ rfl)
  | context found =>
    exact readsTrees.reads_leaf "Context" (by decide) (fun _ _ => rfl)
      ((found.reads fits).andThen _ _ rfl)
  | json found =>
    exact readsTrees.reads_leaf "Json" (by decide) (fun _ _ => rfl)
      ((Json.reads found fits.1).andThen _ _ rfl)

/-- So are the items of a tuple. -/
theorem readsItems (items : List Value) (fit : ItemsFit items) :
    List.Forall₂ (Reads decode) (items.map encode) items := by
  cases items with
  | nil => exact .nil
  | cons item rest => exact .cons (reads item fit.1) (readsItems rest fit.2)

/-- So are the entries of a map. -/
theorem readsEntries (entries : Named Value) (fit : EntriesFit entries) :
    ∀ entry ∈ entries, Reads decode (encode entry.2) entry.2 := by
  cases entries with
  | nil => exact nofun
  | cons entry rest =>
    exact List.forall_mem_cons.mpr ⟨reads entry.2 fit.1, readsEntries rest fit.2⟩

end

end Value

namespace Computation

/-- The options of a computation are read back as they are. -/
theorem Options.reads (options : Options) : Reads Options.decode options.encode options := by
  apply Json.reads_record ["replicated", "distributed_block", "propagate_env"] (by decide) _ rfl
  have texts (items : List String) : Reads (Decoder.list Decoder.string) (.strings items) items :=
    Json.reads_items items fun item _ => Json.reads_string item
  refine .field "replicated" rfl (texts options.replicated) ?_
  refine .field "distributed_block" rfl (texts options.distributedBlock) ?_
  exact .field "propagate_env" rfl (texts options.propagateEnvironment) .done

/-- The description of a computation is read back as itself. -/
theorem reads (computation : Computation) : Reads decode computation.encode computation := by
  apply Json.reads_record ["name", "params", "config"] (by decide) _ rfl
  refine .field "name" rfl (Json.reads_string computation.name) ?_
  refine .field "params" rfl
    (Json.reads_items computation.parameters fun item _ => Json.reads_string item) ?_
  exact .field "config" rfl (Options.reads computation.options) .done

end Computation

namespace Distribution

mutual

/-- Entries stand in the order of their names. -/
def IsOrdered : Distribution → Prop
  | replicated | distributed => True
  | tuple items => ItemsAreOrdered items
  | map entries => Named.Ordered entries ∧ EntriesAreOrdered entries

/-- The items are such shapes. -/
def ItemsAreOrdered : List Distribution → Prop
  | [] => True
  | item :: rest => IsOrdered item ∧ ItemsAreOrdered rest

/-- The entries are such shapes. -/
def EntriesAreOrdered : Named Distribution → Prop
  | [] => True
  | (_, entry) :: rest => IsOrdered entry ∧ EntriesAreOrdered rest

end

/-- The items of a tuple are written one by one. -/
theorem encodeItems_eq (items : List Distribution) : encodeItems items = items.map encode := by
  induction items with
  | nil => rfl
  | cons item rest inductionHypothesis => rw [encodeItems, inductionHypothesis, List.map_cons]

/-- The entries of a map are written one by one, each under its name. -/
theorem encodeEntries_eq (entries : Named Distribution) :
    encodeEntries entries = entries.mapValues encode := by
  induction entries with
  | nil => rfl
  | cons entry rest inductionHypothesis =>
    rw [encodeEntries, inductionHypothesis]
    rfl

/-- Distributions are written as trees whose leaves are truth values. -/
theorem readsTrees : Json.ReadsTrees decode decodeLeaf tuple map where
  leaf room tree choice noTuple noMap opened := by
    match room with
    | 0 | 1 => rw [decode, opened, Option.bind_some]
    | room + 2 =>
      rw [decode, opened, Option.bind_some]
      split
      case h_1 named _ => exact absurd named noTuple
      case h_2 named _ => exact absurd named noMap
      case h_3 => rfl
  tuple _ _ := rfl
  map _ _ := rfl

mutual

/-- A distribution whose entries stand in order is read back as itself. -/
theorem reads (shape : Distribution) (ordered : shape.IsOrdered) :
    Reads decode shape.encode shape := by
  cases shape with
  | replicated => exact readsTrees.reads_bare "Replicated" (by decide) _ fun _ => rfl
  | distributed => exact readsTrees.reads_bare "Distributed" (by decide) _ fun _ => rfl
  | tuple items =>
    rw [encode, encodeItems_eq]
    exact readsTrees.reads_tuple (readsItems items ordered)
  | map entries =>
    rw [encode, encodeEntries_eq]
    exact readsTrees.reads_map entries ordered.1 (readsEntries entries ordered.2)

/-- So are the items of a tuple. -/
theorem readsItems (items : List Distribution) (ordered : ItemsAreOrdered items) :
    List.Forall₂ (Reads decode) (items.map encode) items := by
  cases items with
  | nil => exact .nil
  | cons item rest => exact .cons (reads item ordered.1) (readsItems rest ordered.2)

/-- So are the entries of a map. -/
theorem readsEntries (entries : Named Distribution) (ordered : EntriesAreOrdered entries) :
    ∀ entry ∈ entries, Reads decode (encode entry.2) entry.2 := by
  cases entries with
  | nil => exact nofun
  | cons entry rest =>
    exact List.forall_mem_cons.mpr ⟨reads entry.2 ordered.1, readsEntries rest ordered.2⟩

end

end Distribution

end Rankwise
