import Rankwise.Json.Decoder
import Rankwise.Proofs.Lexing
import Rankwise.Proofs.WholeNumbers

/-!
# The trees of written values

A value without doubles, whose integers fit words, is written to a text of which the tree is the
tree of the value itself (`Json.ofText?_text`): the tokens that the text spells are put together
again, part by part (`Written.Stands`). Blanks, doubles and unmatched escapes do not come up in such
texts.
-/

namespace Rankwise.Json

namespace Written

namespace Builder

/-- The tree that the machine comes to when it goes on with some tokens. -/
def rest? (builder : Builder) (tokens : List Token) : Option Written :=
  (tokens.foldlM step builder).bind finish

/-- To go on with a token and others is to take one step and go on from there. -/
theorem rest?_cons (builder : Builder) (token : Token) (tokens : List Token) :
    builder.rest? (token :: tokens) = (builder.step token).bind (rest? · tokens) := by
  rw [rest?, List.foldlM_cons]
  show Option.bind (Option.bind _ _) _ = _
  rw [Option.bind_assoc]
  rfl

end Builder

/-- The tokens stand for the tree wherever a value may come. -/
def Stands (tokens : List Token) (tree : Written) : Prop :=
  ∀ opened rest, ∀ expected ∈ [Expected.value, .firstItem],
    Builder.rest? { opened, expected } (tokens ++ rest) = (Builder.place opened tree).rest? rest

/-- The tokens stand for a member of an object. -/
def StandsMember (tokens : List Token) (member : Option String × Written) : Prop :=
  ∃ value, tokens = .string member.1 :: .colon :: value ∧ Stands value member.2

/-- A token that is a value of its own stands for it wherever a value may come. -/
theorem stands_token {token : Token} {tree : Written} (known : token ≠ .closeArray)
    (begins : ∀ opened, Builder.begin opened token = some (Builder.place opened tree)) :
    Stands [token] tree := by
  intro opened rest expected either
  have step : Builder.step { opened, expected } token = some (Builder.place opened tree) := by
    simp only [List.mem_cons, List.not_mem_nil, or_false] at either
    rcases either with rfl | rfl
    · exact begins opened
    · cases token <;> first | exact absurd rfl known | exact begins opened
  rw [List.singleton_append, Builder.rest?_cons, step, Option.bind_some]

/-- Parts with a separator between them are the first one and the others, each behind a separator.
-/
theorem intercalate_cons {α : Type} (separator : α) (first : List α) (others : List (List α)) :
    [separator].intercalate (first :: others) = first ++ others.flatMap (separator :: ·) := by
  induction others generalizing first with
  | nil => rw [List.intercalate_singleton, List.flatMap_nil, List.append_nil]
  | cons second others inductionHypothesis =>
    rw [List.intercalate_cons_cons, inductionHypothesis, List.flatMap_cons, List.append_assoc]
    rfl

/-- The items of an array behind the first ones. -/
theorem rest?_items {parts : List (List Token)} {trees : List Written}
    (each : List.Forall₂ Stands parts trees) (opened : List Opened) (done : List Written)
    (rest : List Token) :
    Builder.rest? { opened := .array done :: opened, expected := .more }
        (parts.flatMap (.comma :: ·) ++ .closeArray :: rest) =
      (Builder.place opened (.array (done.reverse ++ trees))).rest? rest := by
  induction each generalizing done with
  | nil =>
    rw [List.append_nil]
    rfl
  | cons first others inductionHypothesis =>
    rw [List.flatMap_cons, List.cons_append, List.cons_append, List.append_assoc,
      Builder.rest?_cons]
    refine (first _ _ .value List.mem_cons_self).trans ?_
    refine (inductionHypothesis _).trans ?_
    rw [List.reverse_cons, List.append_assoc]
    rfl

/-- Items that stand for trees stand, between brackets, for the array of these. -/
theorem stands_array {parts : List (List Token)} {trees : List Written}
    (each : List.Forall₂ Stands parts trees) :
    Stands (.openArray :: ([.comma].intercalate parts ++ [.closeArray])) (.array trees) := by
  intro opened rest expected either
  have opens : Builder.step { opened, expected } .openArray =
      some { opened := .array [] :: opened, expected := .firstItem } := by
    simp only [List.mem_cons, List.not_mem_nil, or_false] at either
    rcases either with rfl | rfl <;> rfl
  rw [List.cons_append, Builder.rest?_cons, opens, Option.bind_some, List.append_assoc]
  cases each with
  | nil => rfl
  | cons first others =>
    rw [intercalate_cons, List.append_assoc]
    refine (first _ _ .firstItem (List.mem_cons_of_mem _ List.mem_cons_self)).trans ?_
    exact rest?_items others opened _ rest

/-- A member of an object is put to the ones that were there. -/
theorem rest?_member {part : List Token} {member : Option String × Written}
    (stands : StandsMember part member) (opened : List Opened)
    (done : List (Option String × Written)) (rest : List Token) (expected : Expected)
    (either : expected ∈ [.firstName done, .name done]) :
    Builder.rest? { opened, expected } (part ++ rest) =
      Builder.rest? { opened := .object (member :: done) none :: opened, expected := .more }
        rest := by
  obtain ⟨value, rfl, stands⟩ := stands
  have named : Builder.step { opened, expected } (.string member.1) =
      some { opened, expected := .colon done member.1 } := by
    simp only [List.mem_cons, List.not_mem_nil, or_false] at either
    rcases either with rfl | rfl <;> rfl
  rw [List.cons_append, List.cons_append, Builder.rest?_cons, named, Option.bind_some,
    Builder.rest?_cons]
  exact stands _ rest .value List.mem_cons_self

/-- The members of an object behind the first ones. -/
theorem rest?_members {parts : List (List Token)} {members : List (Option String × Written)}
    (each : List.Forall₂ StandsMember parts members) (opened : List Opened)
    (done : List (Option String × Written)) (rest : List Token) :
    Builder.rest? { opened := .object done none :: opened, expected := .more }
        (parts.flatMap (.comma :: ·) ++ .closeObject :: rest) =
      (Builder.place opened (.object (done.reverse ++ members))).rest? rest := by
  induction each generalizing done with
  | nil =>
    rw [List.append_nil]
    rfl
  | cons first others inductionHypothesis =>
    rw [List.flatMap_cons, List.cons_append, List.cons_append, List.append_assoc,
      Builder.rest?_cons]
    refine (rest?_member first opened done _ (.name done)
      (List.mem_cons_of_mem _ List.mem_cons_self)).trans ?_
    refine (inductionHypothesis _).trans ?_
    rw [List.reverse_cons, List.append_assoc]
    rfl

/-- Members that stand for trees stand, between braces, for the object of these. -/
theorem stands_object {parts : List (List Token)} {members : List (Option String × Written)}
    (each : List.Forall₂ StandsMember parts members) :
    Stands (.openObject :: ([.comma].intercalate parts ++ [.closeObject])) (.object members) := by
  intro opened rest expected either
  have opens : Builder.step { opened, expected } .openObject =
      some { opened, expected := .firstName [] } := by
    simp only [List.mem_cons, List.not_mem_nil, or_false] at either
    rcases either with rfl | rfl <;> rfl
  rw [List.cons_append, Builder.rest?_cons, opens, Option.bind_some, List.append_assoc]
  cases each with
  | nil => rfl
  | cons first others =>
    rw [intercalate_cons, List.append_assoc]
    refine (rest?_member first opened [] _ (.firstName []) List.mem_cons_self).trans ?_
    exact rest?_members others opened _ rest

end Written

mutual

/-- The text of a value spells tokens that stand for the tree of the value. -/
theorem spelled (json : Json) (whole : json.IsWhole) :
    ∃ tokens, Spells json.text.toList tokens ∧ Written.Stands tokens json.written := by
  cases json with
  | null => exact ⟨_, spells_null, Written.stands_token nofun fun _ => rfl⟩
  | boolean value => exact ⟨_, spells_boolean value, Written.stands_token nofun fun _ => rfl⟩
  | integer value =>
    obtain ⟨numeral, worth, spells⟩ := spells_integer value whole
    refine ⟨_, spells, Written.stands_token nofun fun opened => ?_⟩
    rw [Written.Builder.begin, worth, written]
  | double => cases whole
  | string value => exact ⟨_, spells_quoted value, Written.stands_token nofun fun _ => rfl⟩
  | array items =>
    obtain ⟨parts, spell, stand⟩ := spelledItems items whole
    refine ⟨_, ?_, Written.stands_array stand⟩
    rw [text, String.toList_append, String.toList_append, String.toList_intercalate]
    exact (spells_intercalate spell).enclosed (by decide) (fun _ => rfl) fun _ => rfl
  | object members =>
    obtain ⟨parts, spell, stand⟩ := spelledMembers members whole
    refine ⟨_, ?_, Written.stands_object stand⟩
    rw [text, String.toList_append, String.toList_append, String.toList_intercalate]
    exact (spells_intercalate spell).enclosed (by decide) (fun _ => rfl) fun _ => rfl

/-- So are the items of an array spelled out. -/
theorem spelledItems (items : List Json) (whole : ItemsAreWhole items) :
    ∃ parts, List.Forall₂ Spells ((itemTexts items).map String.toList) parts ∧
      List.Forall₂ Written.Stands parts (writtenItems items) := by
  cases items with
  | nil => exact ⟨[], .nil, .nil⟩
  | cons item rest =>
    obtain ⟨tokens, spells, stands⟩ := spelled item whole.1
    obtain ⟨parts, spell, stand⟩ := spelledItems rest whole.2
    exact ⟨tokens :: parts, .cons spells spell, .cons stands stand⟩

/-- So are the members of an object. -/
theorem spelledMembers (members : List (String × Json)) (whole : MembersAreWhole members) :
    ∃ parts, List.Forall₂ Spells ((memberTexts members).map String.toList) parts ∧
      List.Forall₂ Written.StandsMember parts (writtenMembers members) := by
  cases members with
  | nil => exact ⟨[], .nil, .nil⟩
  | cons member rest =>
    obtain ⟨name, value⟩ := member
    obtain ⟨tokens, spells, stands⟩ := spelled value whole.1
    obtain ⟨parts, spell, stand⟩ := spelledMembers rest whole.2
    refine ⟨(.string (some name) :: .colon :: tokens) :: parts, .cons ?_ spell,
      .cons ⟨tokens, rfl, stands⟩ stand⟩
    rw [String.toList_append, String.toList_append]
    exact (spells_quoted name).join spells (by decide) fun _ => rfl

end

/-- The text of a value is the text of its tree. -/
theorem ofText?_text (json : Json) (whole : json.IsWhole) :
    Written.ofText? (json.text.toList.map some) = some json.written := by
  obtain ⟨tokens, spells, stands⟩ := spelled json whole
  have found : tokens? (json.text.toList.map some) = some tokens := by
    have read := spells [] [] trivial
    rw [List.append_nil, List.append_nil] at read
    exact read.trans (congrArg some (List.reverse_reverse tokens))
  have built : Written.ofTokens? tokens = some json.written := by
    have read := stands [] [] .value List.mem_cons_self
    rwa [List.append_nil] at read
  rw [Written.ofText?, found, Option.bind_some, built]

end Rankwise.Json
