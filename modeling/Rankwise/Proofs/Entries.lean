import Mathlib.Data.List.Induction
import Mathlib.Data.List.Nodup
import Mathlib.Data.String.Basic
import Rankwise.Named

/-!
# Laws of entries under names

Inserting puts a value under its name and leaves all other names alone; lists that were made by
inserting are ordered, and ordered lists stay as they are.
-/

namespace Rankwise

namespace Named

variable {α β : Type}

/-- What is inserted is found under its name, and other names are left alone. -/
theorem lookup_insert (name : String) (value : α) (entries : Named α) (other : String) :
    (insert name value entries).lookup other =
      if other = name then some value else entries.lookup other := by
  induction entries with
  | nil =>
    by_cases same : other = name
    · simp [insert, same]
    · simp [insert, same]
  | cons entry rest inductionHypothesis =>
    rw [insert]
    split
    case isTrue before =>
      by_cases same : other = name
      · simp [same]
      · rw [List.lookup_cons, beq_false_of_ne same, if_neg same]
    case isFalse =>
      split
      case isTrue here =>
        by_cases same : other = name
        · simp [same]
        · rw [List.lookup_cons, beq_false_of_ne same, if_neg same, List.lookup_cons,
            beq_false_of_ne (here ▸ same)]
      case isFalse apart =>
        rw [List.lookup_cons, List.lookup_cons, inductionHypothesis]
        by_cases same : other = entry.1
        · subst same
          have elsewhere : ¬ entry.1 = name := Ne.symm apart
          simp [elsewhere]
        · rw [beq_false_of_ne same]

/-- Of entries with distinct names, each is found under its name in the ordered list. -/
theorem lookup_ofList (pairs : List (String × α)) (distinct : (pairs.map Prod.fst).Nodup)
    (name : String) : (ofList pairs).lookup name = pairs.lookup name := by
  have general (pairs : List (String × α)) (distinct : (pairs.map Prod.fst).Nodup)
      (entries : Named α) :
      (pairs.foldl (fun entries pair => insert pair.1 pair.2 entries) entries).lookup name =
        (pairs.lookup name).or (entries.lookup name) := by
    induction pairs generalizing entries with
    | nil => rfl
    | cons pair rest inductionHypothesis =>
      obtain ⟨fresh, distinctRest⟩ := List.nodup_cons.mp distinct
      rw [List.foldl_cons, inductionHypothesis distinctRest, lookup_insert, List.lookup_cons]
      by_cases same : name = pair.1
      · subst same
        have absent : rest.lookup pair.1 = none := by
          rw [List.lookup_eq_none_iff]
          intro other member
          have apart : other.1 ≠ pair.1 := fun equal => fresh (equal ▸ List.mem_map_of_mem member)
          simpa using Ne.symm apart
        simp [absent]
      · rw [beq_false_of_ne same, if_neg same]
  exact (general pairs distinct []).trans (Option.or_none)

/-- Of several pairs with one name the last one counts. -/
theorem lookup_ofList_reverse (pairs : List (String × α)) (name : String) :
    (ofList pairs).lookup name = pairs.reverse.lookup name := by
  induction pairs using List.reverseRecOn with
  | nil => rfl
  | append_singleton earlier pair inductionHypothesis =>
    have added : ofList (earlier ++ [pair]) = insert pair.1 pair.2 (ofList earlier) :=
      List.foldl_append
    rw [added, lookup_insert, inductionHypothesis, List.reverse_concat, List.lookup_cons]
    by_cases same : name = pair.1
    · subst same
      rw [if_pos rfl, beq_self_eq_true]
    · rw [if_neg same, beq_false_of_ne same]

/-- Behind an insertion there is the new entry and none that was not there. -/
theorem mem_insert (name : String) (value : α) (entries : Named α) (other : String × α)
    (member : other ∈ insert name value entries) : other = (name, value) ∨ other ∈ entries := by
  induction entries with
  | nil => exact .inl (List.mem_singleton.mp member)
  | cons entry rest inductionHypothesis =>
    rw [insert] at member
    split at member
    case isTrue => exact List.mem_cons.mp member
    case isFalse =>
      split at member
      case isTrue =>
        rcases List.mem_cons.mp member with here | later
        · exact .inl here
        · exact .inr (List.mem_cons_of_mem entry later)
      case isFalse =>
        rcases List.mem_cons.mp member with here | later
        · exact .inr (here ▸ List.mem_cons_self)
        · rcases inductionHypothesis later with here | there
          · exact .inl here
          · exact .inr (List.mem_cons_of_mem entry there)

/-- Inserting keeps the order. -/
theorem insert_ordered (name : String) (value : α) (entries : Named α)
    (ordered : entries.Ordered) : Ordered (insert name value entries) := by
  induction entries with
  | nil => exact List.pairwise_singleton _ _
  | cons entry rest inductionHypothesis =>
    obtain ⟨before, orderedRest⟩ := List.pairwise_cons.mp ordered
    rw [insert]
    split
    case isTrue first =>
      refine List.pairwise_cons.mpr ⟨?_, ordered⟩
      intro later member
      rcases List.mem_cons.mp member with rfl | further
      · exact first
      · exact lt_trans first (before later further)
    case isFalse notFirst =>
      split
      case isTrue same =>
        refine List.pairwise_cons.mpr ⟨?_, orderedRest⟩
        intro later member
        exact same ▸ before later member
      case isFalse apart =>
        refine List.pairwise_cons.mpr ⟨?_, inductionHypothesis orderedRest⟩
        intro later member
        rcases mem_insert name value rest later member with rfl | further
        · exact lt_of_le_of_ne (not_lt.mp notFirst) (Ne.symm apart)
        · exact before later further

/-- Entries that were inserted one after the other are in order. -/
theorem ofList_ordered (pairs : List (String × α)) : (ofList pairs).Ordered := by
  have general (pairs : List (String × α)) (entries : Named α) (ordered : entries.Ordered) :
      Ordered (pairs.foldl (fun entries pair => insert pair.1 pair.2 entries) entries) := by
    induction pairs generalizing entries with
    | nil => exact ordered
    | cons pair rest inductionHypothesis =>
      exact inductionHypothesis _ (insert_ordered pair.1 pair.2 entries ordered)
  exact general pairs [] List.Pairwise.nil

/-- All entries were among the pairs. -/
theorem mem_ofList (pairs : List (String × α)) (entry : String × α) (member : entry ∈ ofList pairs) :
    entry ∈ pairs := by
  have general (pairs : List (String × α)) (entries : Named α)
      (member : entry ∈ pairs.foldl (fun entries pair => insert pair.1 pair.2 entries) entries) :
      entry ∈ pairs ∨ entry ∈ entries := by
    induction pairs generalizing entries with
    | nil => exact .inr member
    | cons pair rest inductionHypothesis =>
      rcases inductionHypothesis _ member with later | there
      · exact .inl (List.mem_cons_of_mem pair later)
      · rcases mem_insert pair.1 pair.2 entries entry there with here | before
        · exact .inl (here ▸ List.mem_cons_self)
        · exact .inr before
  rcases general pairs [] member with listed | none
  · exact listed
  · exact absurd none List.not_mem_nil

/-- No name occurs twice in ordered entries. -/
theorem Ordered.nodup {entries : Named α} (ordered : entries.Ordered) :
    (entries.map Prod.fst).Nodup := by
  refine (List.pairwise_map.mpr ordered).imp ?_
  intro earlier later before
  exact ne_of_lt before

/-- Changing values keeps the order. -/
theorem Ordered.mapValues {entries : Named α} (ordered : entries.Ordered) (change : α → β) :
    Ordered (Named.mapValues change entries) := by
  unfold Ordered Named.mapValues
  rwa [List.pairwise_map]

/-- An entry with a name behind all others is put at the end. -/
theorem insert_last (name : String) (value : α) (entries : Named α)
    (last : ∀ entry ∈ entries, entry.1 < name) :
    insert name value entries = entries ++ [(name, value)] := by
  induction entries with
  | nil => rfl
  | cons entry rest inductionHypothesis =>
    have before := last entry List.mem_cons_self
    rw [insert, if_neg (lt_asymm before), if_neg (ne_of_gt before), List.cons_append,
      inductionHypothesis fun later member => last later (List.mem_cons_of_mem entry member)]

/-- Ordered entries stay as they are. -/
theorem ofList_of_ordered (entries : Named α) (ordered : entries.Ordered) :
    ofList entries = entries := by
  have general (entries earlier : Named α) (ordered : Ordered (earlier ++ entries)) :
      entries.foldl (fun entries pair => insert pair.1 pair.2 entries) earlier =
        earlier ++ entries := by
    induction entries generalizing earlier with
    | nil => exact (List.append_nil earlier).symm
    | cons entry rest inductionHypothesis =>
      have before := (List.pairwise_append.mp ordered).2.2
      rw [List.foldl_cons, insert_last _ _ earlier fun other member =>
        before other member entry List.mem_cons_self]
      rw [inductionHypothesis, List.append_assoc]
      · rfl
      · rw [List.append_assoc]
        exact ordered
  exact general entries [] ordered

/-- In ordered entries every entry is found under its name. -/
theorem lookup_of_mem (entries : Named α) (ordered : entries.Ordered) (name : String) (value : α)
    (member : (name, value) ∈ entries) : entries.lookup name = some value := by
  induction entries with
  | nil => cases member
  | cons entry rest inductionHypothesis =>
    obtain ⟨before, orderedRest⟩ := List.pairwise_cons.mp ordered
    rcases List.mem_cons.mp member with rfl | later
    · simp
    · have apart : name ≠ entry.1 := fun same =>
        String.lt_irrefl entry.1 (show entry.1 < entry.1 from same ▸ before _ later)
      rw [List.lookup_cons, beq_false_of_ne apart]
      exact inductionHypothesis orderedRest later

/-- An entry is there exactly if it is found under its name. -/
theorem Ordered.mem_iff_lookup {entries : Named α} (ordered : entries.Ordered) (name : String)
    (value : α) : (name, value) ∈ entries ↔ entries.lookup name = some value := by
  constructor
  · exact lookup_of_mem entries ordered name value
  · intro found
    obtain ⟨earlier, later, split, -⟩ := List.lookup_eq_some_iff.mp found
    rw [split]
    exact List.mem_append_right earlier List.mem_cons_self

/-- Ordered entries that list the same are the same. -/
theorem Ordered.ext {entries others : Named α} (ordered : entries.Ordered)
    (orderedToo : others.Ordered) (same : ∀ entry, entry ∈ entries ↔ entry ∈ others) :
    entries = others := by
  have distinct {entries : Named α} (ordered : entries.Ordered) : entries.Nodup :=
    ordered.nodup.of_map Prod.fst
  refine ((List.perm_ext_iff_of_nodup (distinct ordered) (distinct orderedToo)).mpr
    same).eq_of_pairwise ?_ ordered orderedToo
  intro entry other _ _ before after
  exact absurd after (lt_asymm before)

/-- What is found under a name is changed like the values. -/
theorem lookup_mapValues (entries : Named α) (change : α → β) (name : String) :
    (entries.mapValues change).lookup name = (entries.lookup name).map change := by
  induction entries with
  | nil => rfl
  | cons entry rest inductionHypothesis =>
    rw [mapValues, List.map_cons, List.lookup_cons, List.lookup_cons]
    cases name == entry.1
    · exact inductionHypothesis
    · rfl

end Named

end Rankwise
