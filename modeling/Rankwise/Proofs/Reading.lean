import Rankwise.Json.Decoder
import Rankwise.Proofs.Entries
import Rankwise.Wire.Value

/-!
# Reading back what was written

What is written to a text keeps the members of objects as they are given; what passes through a
structured value has them sorted by name. A decoder reads a value back (`Json.Reads`) if it finds
the value in the tree that stands for it, in either arrangement and in whatever room that tree fits
into. Each way to put trees together has its law: records, whose fields are found under their names
wherever sorting has put them (`reads_record`), choices (`reads_choice`), arrays and entries under
names.
-/

namespace Rankwise

namespace Json

variable {α β : Type}

/-- How the members of objects are arranged. -/
inductive Arrangement where
  | given
  | sorted

/-- The value with the members of its objects arranged. -/
def Arrangement.of : Arrangement → Json → Json
  | given, json => json
  | sorted, json => json.sorted

/-- The decoder finds the value in the tree, however it is arranged, in any room that the tree fits
into. -/
def Reads (decoder : Decoder α) (json : Json) (value : α) : Prop :=
  ∀ (arrangement : Arrangement) room, (arrangement.of json).depth ≤ room →
    decoder room (arrangement.of json).written = some value

/-- What is read back is read back out of the structured value itself. -/
theorem Reads.readValue {decoder : Decoder α} {json : Json} {value : α}
    (reads : Reads decoder json value) : readValue? decoder json.sorted = some value :=
  reads .sorted _ le_rfl

/-- A text is read back as itself. -/
theorem reads_string (content : String) : Reads Decoder.string (.string content) content := by
  rintro ⟨⟩ room _ <;> rfl

/-- A truth value is read back as itself. -/
theorem reads_boolean (value : Bool) : Reads Decoder.boolean (.boolean value) value := by
  rintro ⟨⟩ room _ <;> rfl

/-- An integer within the bounds asked for is read back as itself. -/
theorem reads_integer (least greatest value : Int) (inside : least ≤ value ∧ value ≤ greatest) :
    Reads (Decoder.integer least greatest) (.integer value) value := by
  rintro ⟨⟩ room _ <;> exact if_pos inside

/-- What is read is changed. -/
theorem Reads.andThen {decoder : Decoder α} {json : Json} {value : α} (next : α → Option β)
    (result : β) (reads : Reads decoder json value) (changed : next value = some result) :
    Reads (decoder.andThen next) json result := by
  intro arrangement room enough
  rw [Decoder.andThen, reads arrangement room enough, Option.bind_some, changed]

/-- A natural number that fits the word is read back as itself. -/
theorem reads_word (width value : Nat) (small : value < 2 ^ width) :
    Reads (Decoder.word width) (.natural value) value := by
  apply Reads.andThen _ _ (reads_integer _ _ _ _)
  · rfl
  · constructor
    · exact Int.natCast_nonneg value
    · have below : (value : Int) < ((Nat.pow 2 width : Nat) : Int) := Int.ofNat_lt.mpr small
      omega

/-- A size below `2 ^ 64` is read back as itself. -/
theorem reads_size (value : Nat) (small : value < 2 ^ 64) :
    Reads Decoder.size (.natural value) value := reads_word 64 value small

/-- A member is no deeper than the members together. -/
theorem depth_le_ofMembers (members : List (String × Json)) (entry : String × Json)
    (member : entry ∈ members) : entry.2.depth ≤ depthOfMembers members := by
  induction members with
  | nil => cases member
  | cons first rest inductionHypothesis =>
    rw [depthOfMembers]
    rcases List.mem_cons.mp member with rfl | later
    · exact Nat.le_max_left _ _
    · exact Nat.le_trans (inductionHypothesis later) (Nat.le_max_right _ _)

/-- To sort below a list of members sorts each value. -/
theorem sortedMembers_eq (members : List (String × Json)) :
    sortedMembers members = Named.mapValues sorted members := by
  induction members with
  | nil => rfl
  | cons member rest inductionHypothesis =>
    rw [sortedMembers, inductionHypothesis]
    rfl

/-- The members are written one by one, each under its own key. -/
theorem writtenMembers_eq (members : List (String × Json)) :
    writtenMembers members = members.map fun member => (some member.1, member.2.written) := by
  induction members with
  | nil => rfl
  | cons member rest inductionHypothesis =>
    rw [writtenMembers, inductionHypothesis, List.map_cons]

/-- To sort below a list of items sorts each item. -/
theorem sortedItems_eq (items : List Json) : sortedItems items = items.map sorted := by
  induction items with
  | nil => rfl
  | cons item rest inductionHypothesis =>
    rw [sortedItems, inductionHypothesis, List.map_cons]

namespace Arrangement

variable (arrangement : Arrangement)

/-- An arrangement of an array arranges its items. -/
theorem of_array (items : List Json) :
    arrangement.of (.array items) = .array (items.map arrangement.of) := by
  cases arrangement with
  | given => exact congrArg array (List.map_id items).symm
  | sorted => rw [of, Json.sorted, sortedItems_eq]; rfl

/-- Sorting leaves entries that are in order where they are. -/
theorem of_ordered (entries : Named Json) (ordered : entries.Ordered) :
    arrangement.of (.object entries) = .object (entries.mapValues arrangement.of) := by
  cases arrangement with
  | given => exact congrArg object (List.map_id entries).symm
  | sorted =>
    rw [of, Json.sorted, sortedMembers_eq, Named.ofList_of_ordered _ (ordered.mapValues _)]
    rfl

/-- However the members of an object are arranged, each name stands for the same. -/
theorem of_object (members : List (String × Json)) (distinct : (members.map Prod.fst).Nodup) :
    ∃ entries, arrangement.of (.object members) = .object entries ∧
      (entries.map Prod.fst).Nodup ∧ (∀ entry ∈ entries, entry.1 ∈ members.map Prod.fst) ∧
      ∀ name, entries.lookup name = (members.lookup name).map arrangement.of := by
  cases arrangement with
  | given =>
    refine ⟨members, rfl, distinct, fun entry => List.mem_map_of_mem, fun name => ?_⟩
    exact (Option.map_id' (x := members.lookup name)).symm
  | sorted =>
    have names : (Named.mapValues Json.sorted members).map Prod.fst = members.map Prod.fst := by
      rw [Named.mapValues, List.map_map]
      rfl
    refine ⟨Named.ofList (Named.mapValues Json.sorted members), ?_, (Named.ofList_ordered _).nodup,
      fun entry member => ?_, fun name => ?_⟩
    · rw [of, Json.sorted, sortedMembers_eq]
    · exact names ▸ List.mem_map_of_mem (Named.mem_ofList _ entry member)
    · rw [Named.lookup_ofList _ (names ▸ distinct), Named.lookup_mapValues]
      rfl

/-- Only the null value is written as the null value. -/
theorem eq_null {json : Json} (null : (arrangement.of json).written = .null) : json = .null := by
  cases arrangement <;> cases json <;> first | rfl | cases null

/-- Items are read back one by one. -/
theorem mapM_items {decoder : Decoder α} {items : List Json} {values : List α}
    (each : List.Forall₂ (Reads decoder) items values) (room : Nat)
    (fits : depthOfItems (items.map arrangement.of) ≤ room) :
    (writtenItems (items.map arrangement.of)).mapM (decoder room) = some values := by
  induction each with
  | nil => rfl
  | cons reads _ inductionHypothesis =>
    rw [List.map_cons, depthOfItems] at fits
    rw [List.map_cons, writtenItems, List.mapM_cons,
      reads arrangement room (Nat.le_trans (Nat.le_max_left _ _) fits),
      inductionHypothesis (Nat.le_trans (Nat.le_max_right _ _) fits)]
    rfl

/-- Entries are read back with their names. -/
theorem mapM_entries {decoder : Decoder α} {encode : α → Json} (entries : Named α)
    (each : ∀ entry ∈ entries, Reads decoder (encode entry.2) entry.2) (room : Nat)
    (fits : depthOfMembers ((entries.mapValues encode).mapValues arrangement.of) ≤ room) :
    (writtenMembers ((entries.mapValues encode).mapValues arrangement.of)).mapM
      (fun member => do return (← member.1, ← decoder room member.2)) = some entries := by
  induction entries with
  | nil => rfl
  | cons entry rest inductionHypothesis =>
    have first : (arrangement.of (encode entry.2)).depth ≤ room :=
      Nat.le_trans (Nat.le_max_left _ _) fits
    have here := each entry List.mem_cons_self arrangement room first
    have further := inductionHypothesis
      (fun other member => each other (List.mem_cons_of_mem entry member))
      (Nat.le_trans (Nat.le_max_right _ _) fits)
    show (List.mapM _ (_ :: _)) = _
    rw [List.mapM_cons]
    show (do
      let item ← (do
        return (← some entry.1, ← decoder room (arrangement.of (encode entry.2)).written))
      _ : Option _) = _
    rw [here]
    exact congrArg (Option.bind · fun others => some (entry :: others)) further

end Arrangement

/-- What opens an array or an object has room for it. -/
theorem room_of_opened {inner room : Nat} (enough : 1 + inner ≤ room) :
    ∃ rest, room = rest + 1 ∧ inner ≤ rest :=
  ⟨room - 1, by omega, by omega⟩

/-- An array is read back item by item. -/
theorem reads_list {decoder : Decoder α} {items : List Json} {values : List α}
    (each : List.Forall₂ (Reads decoder) items values) :
    Reads decoder.list (.array items) values := by
  intro arrangement room enough
  rw [arrangement.of_array, depth] at enough
  obtain ⟨room, rfl, fits⟩ := room_of_opened enough
  rw [arrangement.of_array, written, Decoder.list]
  exact arrangement.mapM_items each room fits

/-- A list is read back when each of its items is. -/
theorem reads_map {decoder : Decoder β} {encode : α → Json} {value : α → β} (items : List α)
    (each : ∀ item ∈ items, Reads decoder (encode item) (value item)) :
    Reads decoder.list (.array (items.map encode)) (items.map value) := by
  apply reads_list
  rw [List.forall₂_map_left_iff, List.forall₂_map_right_iff, List.forall₂_same]
  exact each

/-- Items of one kind are read back if each of them is. -/
theorem reads_items {decoder : Decoder α} {encode : α → Json} (items : List α)
    (each : ∀ item ∈ items, Reads decoder (encode item) item) :
    Reads decoder.list (.array (items.map encode)) items := by
  have mapped := reads_map items each
  rwa [List.map_id'] at mapped

/-- A pair is read back part by part. -/
theorem reads_pair {first : Decoder α} {second : Decoder β} {one other : Json} {value : α × β}
    (reads : Reads first one value.1) (readsToo : Reads second other value.2) :
    Reads (Decoder.pair first second) (.array [one, other]) value := by
  intro arrangement room enough
  rw [arrangement.of_array, depth] at enough
  obtain ⟨room, rfl, fits⟩ := room_of_opened enough
  rw [arrangement.of_array]
  have here := reads arrangement room (Nat.le_trans (Nat.le_max_left _ _) fits)
  have there := readsToo arrangement room
    (Nat.le_trans (Nat.le_max_left _ _) (Nat.le_trans (Nat.le_max_right _ _) fits))
  show (do
    return (← first room (arrangement.of one).written,
      ← second room (arrangement.of other).written)) = some value
  rw [here, there]
  rfl

/-- What may be null is read back. -/
theorem reads_optional {decoder : Decoder α} {encode : α → Json} {value : Option α}
    (reads : ∀ found ∈ value, Reads decoder (encode found) found)
    (something : ∀ found ∈ value, encode found ≠ .null) :
    Reads decoder.optional (.ofOption encode value) value := by
  intro arrangement room enough
  cases value with
  | none => cases arrangement <;> rfl
  | some value =>
    show Decoder.optional decoder room (arrangement.of (encode value)).written = _
    have read := reads value rfl arrangement room enough
    unfold Decoder.optional
    split
    case h_1 null => exact absurd (arrangement.eq_null null) (something value rfl)
    case h_2 => rw [read]; rfl

namespace Record

/-- The record that is being read has these fields. -/
def Holds (record : Record) (members : List (String × Json)) : Prop :=
  ∃ arrangement : Arrangement, ∀ name json, members.lookup name = some json →
    record.members.lookup name = some (arrangement.of json).written ∧
      (arrangement.of json).depth ≤ record.room

variable {record : Record} {members : List (String × Json)}

/-- A field is read back. -/
theorem Holds.field {decoder : Decoder α} {json : Json} {value : α} (holds : record.Holds members)
    (name : String) (listed : members.lookup name = some json)
    (reads : Reads decoder json value) : record.field name decoder = some value := by
  obtain ⟨arrangement, fields⟩ := holds
  obtain ⟨found, fits⟩ := fields name json listed
  rw [Record.field, found, Option.bind_some, reads arrangement _ fits]

/-- A field that may be null is read back. -/
theorem Holds.field? {decoder : Decoder α} {encode : α → Json} {value : Option α}
    (holds : record.Holds members) (name : String)
    (listed : members.lookup name = some (.ofOption encode value))
    (reads : ∀ found ∈ value, Reads decoder (encode found) found)
    (something : ∀ found ∈ value, encode found ≠ .null) :
    record.field? name decoder = some value := by
  obtain ⟨arrangement, fields⟩ := holds
  obtain ⟨found, fits⟩ := fields name _ listed
  rw [Record.field?, found]
  exact reads_optional reads something arrangement _ fits

/-- What is built from any record of these fields is this value. -/
def Gives (members : List (String × Json)) (build : Record → Option α) (value : α) : Prop :=
  ∀ record : Record, record.Holds members → build record = some value

namespace Gives

variable {β : Type} {value : α} {build : β → Record → Option α}

/-- Nothing more has to be read. -/
theorem done : Gives members (fun _ => some value) value := fun _ _ => rfl

/-- A field is read, and what is built from it is built from the others. -/
theorem field {decoder : Decoder β} {json : Json} {content : β} (name : String)
    (listed : members.lookup name = some json) (reads : Reads decoder json content)
    (rest : Gives members (build content) value) :
    Gives members (fun record => (record.field name decoder).bind fun found => build found record)
      value := by
  intro record holds
  show (record.field name decoder).bind _ = _
  rw [holds.field name listed reads, Option.bind_some]
  exact rest record holds

/-- A field that may be null is read, and what is built from it is built from the others. -/
theorem field? {β : Type} {build : Option β → Record → Option α} {decoder : Decoder β}
    {encode : β → Json} {content : Option β} (name : String)
    (listed : members.lookup name = some (.ofOption encode content))
    (reads : ∀ found ∈ content, Reads decoder (encode found) found)
    (something : ∀ found ∈ content, encode found ≠ .null)
    (rest : Gives members (build content) value) :
    Gives members (fun record => (record.field? name decoder).bind fun found => build found record)
      value := by
  intro record holds
  show (record.field? name decoder).bind _ = _
  rw [holds.field? name listed reads something, Option.bind_some]
  exact rest record holds

/-- A text that may be null is read, and what is built from it is built from the others. -/
theorem text? {build : Option String → Record → Option α} {content : Option String} (name : String)
    (listed : members.lookup name = some (.ofOption .string content))
    (rest : Gives members (build content) value) :
    Gives members
      (fun record => (record.field? name Decoder.string).bind fun found => build found record) value :=
  field? name listed (fun found _ => reads_string found) (fun _ _ same => by cases same) rest

end Gives

/-- The written members under their names. -/
theorem mapM_names (members : List (String × Json)) :
    ((members.map fun member => (some member.1, member.2.written)).mapM fun member =>
      member.1.map fun name => (name, member.2)) =
        some (Named.mapValues written members) := by
  induction members with
  | nil => rfl
  | cons member rest inductionHypothesis =>
    rw [List.map_cons, List.mapM_cons, inductionHypothesis]
    rfl

/-- Names without repetition have no duplicate to erase. -/
theorem eraseDups_of_nodup (names : List String) (distinct : names.Nodup) :
    names.eraseDups = names := by
  induction names with
  | nil => rfl
  | cons name rest inductionHypothesis =>
    obtain ⟨fresh, distinctRest⟩ := List.nodup_cons.mp distinct
    have kept : rest.filter (fun other => !other == name) = rest := by
      rw [List.filter_eq_self]
      intro other member
      have apart : other ≠ name := fun same => fresh (same ▸ member)
      simpa using apart
    rw [List.eraseDups_cons, kept, inductionHypothesis distinctRest]

/-- An object with distinct names is opened as the record of its fields. -/
theorem open?_object (members : List (String × Json)) (distinct : (members.map Prod.fst).Nodup)
    (arrangement : Arrangement) (room : Nat)
    (enough : (arrangement.of (.object members)).depth ≤ room) :
    ∃ record, open? (members.map Prod.fst) room (arrangement.of (.object members)).written =
      some record ∧ record.Holds members := by
  obtain ⟨entries, shape, single, mentioned, lookup⟩ := arrangement.of_object members distinct
  rw [shape, depth] at enough
  obtain ⟨room, rfl, fits⟩ := room_of_opened enough
  refine ⟨{ room, members := Named.mapValues written entries }, ?_, arrangement, ?_⟩
  · have known : (Named.mapValues written entries).filter
        (fun entry => (members.map Prod.fst).contains entry.1) =
          Named.mapValues written entries := by
      rw [List.filter_eq_self]
      intro entry member
      obtain ⟨before, listed, rfl⟩ := List.mem_map.mp member
      simpa using mentioned before listed
    have once : ((Named.mapValues written entries).map Prod.fst).Nodup := by
      rw [Named.mapValues, List.map_map]
      exact single
    rw [shape, written, writtenMembers_eq, open?, mapM_names]
    simp only [Option.bind_eq_bind, Option.bind_some]
    rw [known, eraseDups_of_nodup _ once, List.length_map, if_pos rfl]
  · intro name json listed
    have found : entries.lookup name = some (arrangement.of json) := by
      rw [lookup, listed]
      rfl
    constructor
    · rw [Named.lookup_mapValues, found]
      rfl
    · have member : (name, arrangement.of json) ∈ entries := by
        obtain ⟨before, after, here, -⟩ := List.lookup_eq_some_iff.mp found
        exact here ▸ List.mem_append_right before List.mem_cons_self
      exact Nat.le_trans (depth_le_ofMembers entries _ member) fits

end Record

/-- A record is read back if its fields are. -/
theorem reads_record (fields : List String) (distinct : fields.Nodup)
    (members : List (String × Json)) (named : members.map Prod.fst = fields)
    (build : Record → Option α) (value : α) (builds : Record.Gives members build value) :
    Reads (fun room tree => (Record.open? fields room tree).bind build) (.object members)
      value := by
  subst named
  intro arrangement room enough
  obtain ⟨record, opened, holds⟩ := Record.open?_object members distinct arrangement room enough
  show (Record.open? _ room _).bind build = _
  rw [opened, Option.bind_some, builds record holds]

/-- A choice with a payload is opened. -/
theorem Choice.open?_choice (name : String) (payload : Json) (arrangement : Arrangement) (room : Nat)
    (enough : (arrangement.of (.choice name payload)).depth ≤ room) :
    ∃ rest, (arrangement.of payload).depth ≤ rest ∧
      open? room (arrangement.of (.choice name payload)).written =
        some ⟨rest, name, some (arrangement.of payload).written⟩ := by
  have shape : arrangement.of (.choice name payload) = .choice name (arrangement.of payload) := by
    cases arrangement <;> rfl
  rw [shape] at enough ⊢
  obtain ⟨room, rfl, fits⟩ := room_of_opened enough
  exact ⟨room, Nat.le_trans (Nat.le_max_left _ _) fits, rfl⟩

/-- A choice is read back if the decoder to which its payload is left reads the payload. -/
theorem reads_choice {pick : Choice → Option α} {decoder : Decoder α} {payload : Json} {value : α}
    (name : String)
    (picks : ∀ room tree, pick ⟨room, name, tree⟩ = Choice.carrying ⟨room, name, tree⟩ decoder)
    (reads : Reads decoder payload value) :
    Reads (fun room tree => (Choice.open? room tree).bind pick) (.choice name payload) value := by
  intro arrangement room enough
  obtain ⟨rest, fits, opened⟩ := Choice.open?_choice name payload arrangement room enough
  show (Choice.open? room _).bind pick = _
  rw [opened, Option.bind_some, picks, Choice.carrying, Option.bind_some]
  exact reads arrangement rest fits

/-- A choice without a payload is read back. -/
theorem reads_bare (name : String) (pick : Choice → Option α) (value : α)
    (picks : ∀ room, pick ⟨room, name, none⟩ = some value) :
    Reads (fun room tree => (Choice.open? room tree).bind pick) (.string name) value := by
  rintro ⟨⟩ room _ <;> exact picks room

/-- One of several choices without payloads is read back. -/
theorem reads_oneOf (choices : List (String × α)) (name : String) (value : α)
    (listed : choices.lookup name = some value) :
    Reads (Decoder.oneOf choices) (.string name) value := by
  apply reads_bare
  intro room
  rw [listed]
  rfl

/-- Entries under names are read back. -/
theorem reads_named {decoder : Decoder α} {encode : α → Json} (entries : Named α)
    (ordered : entries.Ordered) (each : ∀ entry ∈ entries, Reads decoder (encode entry.2) entry.2) :
    Reads (Decoder.named decoder) (Named.encode encode entries) entries := by
  intro arrangement room enough
  have still := ordered.mapValues encode
  rw [Named.encode, arrangement.of_ordered _ still, depth] at enough
  obtain ⟨room, rfl, fits⟩ := room_of_opened enough
  rw [Named.encode, arrangement.of_ordered _ still, written, Decoder.named]
  rw [arrangement.mapM_entries entries each room fits]
  exact congrArg some (Named.ofList_of_ordered _ ordered)

end Json

/-- A result id is read back as itself. -/
theorem ResultId.reads (id : ResultId) : Json.Reads decode id.encode id :=
  (Json.reads_string id.text).andThen _ _ rfl

end Rankwise
