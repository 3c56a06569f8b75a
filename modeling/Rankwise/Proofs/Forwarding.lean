import Mathlib.Data.List.Perm.Basic
import Rankwise.Group.Environment
import Rankwise.Proofs.Entries

/-!
# What is handed on to the workers

Each variable of the surroundings contributes itself if its name is allowed, and `librarySource`
contributes its value under `libraryVariable` too. So two variables can have a say in
`libraryVariable`, and then the later one in the list counts. Everything else is handed on the same
however the surroundings are listed.
-/

namespace Rankwise.Environment

/-- A variable is allowed if its name starts in one of the ways of `forwardedStarts` or is asked
for. -/
def IsAllowed (asked : List String) (name : String) : Prop :=
  (∃ start ∈ forwardedStarts, start.toList <+: name.toList) ∨ name ∈ asked

/-- What the workers are to see of the surroundings: an allowed variable with its own value, and
under `libraryVariable` the value of `librarySource` when that is set. -/
def Belongs (environment : List (String × String)) (asked : List String) (name value : String) :
    Prop :=
  if name = libraryVariable ∧ librarySource ∈ environment.map Prod.fst then
    (librarySource, value) ∈ environment
  else (name, value) ∈ environment ∧ IsAllowed asked name

/-- Two variables have a say in `libraryVariable` and say different things. -/
def Disputed (environment : List (String × String)) (asked : List String) : Prop :=
  libraryVariable ∈ asked ∧ ∃ chosen own, chosen ≠ own ∧
    (librarySource, chosen) ∈ environment ∧ (libraryVariable, own) ∈ environment

/-- Two variables have a say in `libraryVariable`, say different things, and the one that is not
meant to count is listed later. -/
def Overridden (environment : List (String × String)) (asked : List String) : Prop :=
  libraryVariable ∈ asked ∧ ∃ chosen own, chosen ≠ own ∧
    [(librarySource, chosen), (libraryVariable, own)].Sublist environment

/-- Where one variable overrides the other, they are at odds. -/
theorem Overridden.disputed {environment : List (String × String)} {asked : List String}
    (overridden : Overridden environment asked) : Disputed environment asked := by
  obtain ⟨askedFor, chosen, own, different, inOrder⟩ := overridden
  exact ⟨askedFor, chosen, own, different, inOrder.subset List.mem_cons_self,
    inOrder.subset (List.mem_cons_of_mem _ List.mem_cons_self)⟩

/-- Whether two variables are at odds does not depend on how the surroundings are listed. -/
theorem Disputed.perm {environment other : List (String × String)} {asked : List String}
    (disputed : Disputed environment asked) (rearranged : environment.Perm other) :
    Disputed other asked := by
  obtain ⟨askedFor, chosen, own, different, source, ownSet⟩ := disputed
  exact ⟨askedFor, chosen, own, different, rearranged.mem_iff.mp source,
    rearranged.mem_iff.mp ownSet⟩

/-- Exactly the variables that are allowed are forwarded under their own names. -/
theorem isForwarded_iff (asked : List String) (name : String) :
    isForwarded asked name = true ↔ IsAllowed asked name := by
  simp only [isForwarded, IsAllowed, Bool.or_eq_true, List.any_eq_true, List.isPrefixOf_iff_prefix,
    List.contains_iff_mem]

/-- The variable that stands in for the library path is always allowed. -/
theorem librarySource_allowed (asked : List String) : IsAllowed asked librarySource :=
  .inl ⟨"LAZYDIST_", by decide, by decide⟩

/-- The name `libraryVariable` does not start in any of the ways of `forwardedStarts`. -/
theorem libraryVariable_allowed (asked : List String) :
    IsAllowed asked libraryVariable ↔ libraryVariable ∈ asked := by
  constructor
  · have different : ∀ start ∈ forwardedStarts, ¬ start.toList <+: libraryVariable.toList := by
      decide
    rintro (⟨start, listed, starts⟩ | member)
    · exact absurd starts (different start listed)
    · exact member
  · exact .inr

/-- The variable that stands in for the library path has another name than the library path. -/
theorem librarySource_ne : librarySource ≠ libraryVariable := by decide

/-! ## What each variable contributes -/

/-- The pairs that a variable contributes, in the order in which they are entered. -/
def contributions (asked : List String) (entry : String × String) : List (String × String) :=
  (if entry.1 = librarySource then [(libraryVariable, entry.2)] else []) ++
    if isForwarded asked entry.1 then [entry] else []

/-- All pairs that the surroundings contribute. -/
def contributed (environment : List (String × String)) (asked : List String) :
    List (String × String) :=
  environment.flatMap (contributions asked)

/-- A step of the selection enters what its variable contributes. -/
theorem forward_eq (asked : List String) (chosen : Named String) (entry : String × String) :
    forward asked chosen entry =
      (contributions asked entry).foldl (fun entries pair => Named.insert pair.1 pair.2 entries)
        chosen := by
  obtain ⟨name, value⟩ := entry
  by_cases allowed : isForwarded asked name = true
  · by_cases source : name = librarySource
    · subst source
      simp [forward, contributions, allowed]
    · simp [forward, contributions, source, allowed]
  · by_cases source : name = librarySource
    · subst source
      simp [forward, contributions, allowed]
    · simp [forward, contributions, source, allowed]

/-- The whole selection enters everything that is contributed. -/
theorem forwarded_eq (environment : List (String × String)) (asked : List String) :
    forwarded environment asked = Named.ofList (contributed environment asked) := by
  have steps : forward asked = fun chosen entry => (contributions asked entry).foldl
      (fun entries pair => Named.insert pair.1 pair.2 entries) chosen :=
    funext fun chosen => funext fun entry => forward_eq asked chosen entry
  unfold forwarded Named.ofList contributed
  rw [steps, List.foldl_flatMap]

/-- What is forwarded is in order. -/
theorem forwarded_ordered (environment : List (String × String)) (asked : List String) :
    (forwarded environment asked).Ordered := by
  rw [forwarded_eq]
  exact Named.ofList_ordered _

/-- A variable contributes its value under its own name if it is allowed, and that of
`librarySource` under `libraryVariable` as well. -/
theorem mem_contributions (asked : List String) (entry : String × String) (name value : String) :
    (name, value) ∈ contributions asked entry ↔
      (entry = (librarySource, value) ∧ name = libraryVariable) ∨
        (entry = (name, value) ∧ IsAllowed asked name) := by
  obtain ⟨own, kept⟩ := entry
  rw [contributions, List.mem_append, ← isForwarded_iff]
  refine or_congr ?_ ?_
  · by_cases source : own = librarySource
    · simp [source, and_comm, eq_comm]
    · simp [source]
  · by_cases allowed : isForwarded asked own = true
    · rw [if_pos allowed, List.mem_singleton]
      constructor
      · rintro ⟨rfl, rfl⟩
        exact ⟨rfl, allowed⟩
      · rintro ⟨same, -⟩
        exact same.symm
    · rw [if_neg allowed]
      refine iff_of_false List.not_mem_nil ?_
      rintro ⟨same, forwards⟩
      exact allowed (by rw [(Prod.mk.inj same).1]; exact forwards)

/-- All variables together contribute what each of them contributes. -/
theorem mem_contributed (environment : List (String × String)) (asked : List String)
    (name value : String) :
    (name, value) ∈ contributed environment asked ↔
      ((librarySource, value) ∈ environment ∧ name = libraryVariable) ∨
        ((name, value) ∈ environment ∧ IsAllowed asked name) := by
  unfold contributed
  simp only [List.mem_flatMap, mem_contributions]
  constructor
  · rintro ⟨entry, listed, ⟨rfl, same⟩ | ⟨rfl, allowed⟩⟩
    · exact .inl ⟨listed, same⟩
    · exact .inr ⟨listed, allowed⟩
  · rintro (⟨listed, same⟩ | ⟨listed, allowed⟩)
    · exact ⟨_, listed, .inl ⟨rfl, same⟩⟩
    · exact ⟨_, listed, .inr ⟨rfl, allowed⟩⟩

/-! ## Which contribution counts -/

variable {environment : List (String × String)} {asked : List String} {name value : String}

/-- The last contribution to a name counts. -/
theorem mem_forwarded_last (earlier later : List (String × String))
    (last : contributed environment asked = earlier ++ (name, value) :: later)
    (unsaid : ∀ other, (name, other) ∉ later) (other : String) :
    (name, other) ∈ forwarded environment asked ↔ other = value := by
  have nothing : later.reverse.lookup name = none := by
    refine List.lookup_eq_none_iff.mpr fun pair member => ?_
    refine bne_iff_ne.mpr fun same => ?_
    exact unsaid pair.2 (same ▸ List.mem_reverse.mp member)
  rw [(forwarded_ordered environment asked).mem_iff_lookup, forwarded_eq,
    Named.lookup_ofList_reverse, last, List.reverse_append, List.reverse_cons, List.append_assoc,
    List.lookup_append, nothing, Option.none_or, List.singleton_append, List.lookup_cons,
    beq_self_eq_true]
  exact Option.some_inj.trans eq_comm

/-- A name for which nothing but one value is contributed has this value. -/
theorem mem_forwarded_of_agreed
    (agreed : ∀ one other, (name, one) ∈ contributed environment asked →
      (name, other) ∈ contributed environment asked → one = other) (value : String) :
    (name, value) ∈ forwarded environment asked ↔ (name, value) ∈ contributed environment asked := by
  constructor
  · rw [forwarded_eq]
    exact Named.mem_ofList _ _
  · intro member
    rw [(forwarded_ordered environment asked).mem_iff_lookup, forwarded_eq,
      Named.lookup_ofList_reverse]
    cases found : (contributed environment asked).reverse.lookup name with
    | none =>
      have unequal := List.lookup_eq_none_iff.mp found (name, value) (List.mem_reverse.mpr member)
      exact absurd unequal (by simp)
    | some other =>
      obtain ⟨earlier, later, split, -⟩ := List.lookup_eq_some_iff.mp found
      have listed : (name, other) ∈ (contributed environment asked).reverse := by
        rw [split]
        exact List.mem_append_right earlier List.mem_cons_self
      rw [agreed other value (List.mem_reverse.mp listed) member]

/-- Behind the second of two variables neither of their names occurs again. -/
theorem split_of_sublist (distinct : (environment.map Prod.fst).Nodup)
    {one other : String × String} (inOrder : [one, other].Sublist environment) :
    ∃ earlier later, environment = earlier ++ other :: later ∧
      one.1 ∉ later.map Prod.fst ∧ other.1 ∉ later.map Prod.fst := by
  obtain ⟨upTo, beyond, split, first, second⟩ := List.cons_sublist_iff.mp inOrder
  obtain ⟨between, later, splitBeyond⟩ := List.append_of_mem (List.singleton_sublist.mp second)
  refine ⟨upTo ++ between, later, ?_, ?_⟩
  · rw [split, splitBeyond, List.append_assoc]
  · rw [split, splitBeyond, List.map_append, List.map_append, List.map_cons] at distinct
    obtain ⟨-, distinctBeyond, apart⟩ := List.nodup_append.mp distinct
    obtain ⟨-, distinctLater, -⟩ := List.nodup_append.mp distinctBeyond
    refine ⟨fun again => ?_, (List.nodup_cons.mp distinctLater).1⟩
    exact apart one.1 (List.mem_map_of_mem first) one.1
      (List.mem_append_right _ (List.mem_cons_of_mem _ again)) rfl

/-- Variables of other names contribute nothing under `libraryVariable`. -/
theorem notMem_contributed_library {later : List (String × String)}
    (noSource : librarySource ∉ later.map Prod.fst)
    (noOwn : libraryVariable ∉ later.map Prod.fst) (other : String) :
    (libraryVariable, other) ∉ contributed later asked := by
  rw [mem_contributed]
  rintro (⟨listed, -⟩ | ⟨listed, -⟩)
  · exact noSource (List.mem_map_of_mem listed)
  · exact noOwn (List.mem_map_of_mem listed)

/-- What the surroundings contribute is contributed in their order. -/
theorem contributed_append_cons (earlier later : List (String × String))
    (entry : String × String) :
    contributed (earlier ++ entry :: later) asked =
      contributed earlier asked ++ (contributions asked entry ++ contributed later asked) := by
  unfold contributed
  rw [List.flatMap_append, List.flatMap_cons]

/-- When `libraryVariable` is asked for and listed behind `librarySource`, its own value counts. -/
theorem mem_forwarded_own (distinct : (environment.map Prod.fst).Nodup)
    (askedFor : libraryVariable ∈ asked) {chosen own : String}
    (inOrder : [(librarySource, chosen), (libraryVariable, own)].Sublist environment)
    (other : String) :
    (libraryVariable, other) ∈ forwarded environment asked ↔ other = own := by
  obtain ⟨earlier, later, split, noSource, noOwn⟩ := split_of_sublist distinct inOrder
  have own_only : contributions asked (libraryVariable, own) = [(libraryVariable, own)] := by
    have allowed := (isForwarded_iff asked _).mpr ((libraryVariable_allowed asked).mpr askedFor)
    rw [contributions, if_neg librarySource_ne.symm, if_pos allowed, List.nil_append]
  refine mem_forwarded_last (contributed earlier asked) (contributed later asked) ?_
    (notMem_contributed_library noSource noOwn) other
  rw [split, contributed_append_cons, own_only, List.singleton_append]

/-- When `librarySource` is listed behind `libraryVariable`, its value counts. -/
theorem mem_forwarded_chosen (distinct : (environment.map Prod.fst).Nodup) {chosen own : String}
    (inOrder : [(libraryVariable, own), (librarySource, chosen)].Sublist environment)
    (other : String) :
    (libraryVariable, other) ∈ forwarded environment asked ↔ other = chosen := by
  obtain ⟨earlier, later, split, noOwn, noSource⟩ := split_of_sublist distinct inOrder
  have both : contributions asked (librarySource, chosen) =
      [(libraryVariable, chosen), (librarySource, chosen)] := by
    have allowed := (isForwarded_iff asked _).mpr (librarySource_allowed asked)
    rw [contributions, if_pos rfl, if_pos allowed, List.singleton_append]
  refine mem_forwarded_last (contributed earlier asked)
    ((librarySource, chosen) :: contributed later asked) ?_ ?_ other
  · rw [split, contributed_append_cons, both, List.cons_append, List.singleton_append]
  · intro another member
    rcases List.mem_cons.mp member with same | further
    · exact librarySource_ne (Prod.mk.inj same).1.symm
    · exact notMem_contributed_library noSource noOwn another further

/-! ## The whole selection -/

/-- With distinct names a variable has one value. -/
theorem value_unique (distinct : (environment.map Prod.fst).Nodup) {one other : String}
    (member : (name, one) ∈ environment) (memberToo : (name, other) ∈ environment) :
    one = other := by
  have same := List.inj_on_of_nodup_map distinct member memberToo rfl
  exact (Prod.mk.inj same).2

/-- For any other name than `libraryVariable` the variable of this name is handed on if it is
allowed. -/
theorem mem_forwarded_other (distinct : (environment.map Prod.fst).Nodup)
    (different : name ≠ libraryVariable) (value : String) :
    (name, value) ∈ forwarded environment asked ↔ Belongs environment asked name value := by
  have only (value : String) : (name, value) ∈ contributed environment asked ↔
      (name, value) ∈ environment ∧ IsAllowed asked name := by
    rw [mem_contributed, or_iff_right fun both => different both.2]
  rw [mem_forwarded_of_agreed (fun one other member memberToo =>
    value_unique distinct ((only one).mp member).1 ((only other).mp memberToo).1), only, Belongs,
    if_neg fun both => different both.1]

/-- Without a dispute at most one value is contributed for `libraryVariable`. -/
theorem agreed_of_undisputed (distinct : (environment.map Prod.fst).Nodup)
    (undisputed : ¬ Disputed environment asked) (one other : String)
    (member : (libraryVariable, one) ∈ contributed environment asked)
    (memberToo : (libraryVariable, other) ∈ contributed environment asked) : one = other := by
  simp only [mem_contributed, and_true, libraryVariable_allowed] at member memberToo
  rcases member with chosen | ⟨own, askedFor⟩
  · rcases memberToo with chosenToo | ⟨own, askedFor⟩
    · exact value_unique distinct chosen chosenToo
    · by_contra different
      exact undisputed ⟨askedFor, one, other, different, chosen, own⟩
  · rcases memberToo with chosen | ⟨ownToo, -⟩
    · by_contra different
      exact undisputed ⟨askedFor, other, one, Ne.symm different, chosen, own⟩
    · exact value_unique distinct own ownToo

/-- Without a dispute `libraryVariable` is handed on as it belongs. -/
theorem mem_forwarded_undisputed (distinct : (environment.map Prod.fst).Nodup)
    (undisputed : ¬ Disputed environment asked) (value : String) :
    (libraryVariable, value) ∈ forwarded environment asked ↔
      Belongs environment asked libraryVariable value := by
  rw [mem_forwarded_of_agreed (agreed_of_undisputed distinct undisputed), mem_contributed, Belongs,
    and_iff_left rfl]
  by_cases source : librarySource ∈ environment.map Prod.fst
  · rw [if_pos ⟨rfl, source⟩]
    refine or_iff_left_of_imp fun ⟨own, allowed⟩ => ?_
    obtain ⟨⟨_, chosen⟩, listed, rfl⟩ := List.mem_map.mp source
    -- both are set, so they say the same
    have same : chosen = value := by
      by_contra different
      exact undisputed
        ⟨(libraryVariable_allowed asked).mp allowed, chosen, value, different, listed, own⟩
    exact same ▸ listed
  · rw [if_neg fun both => source both.2]
    exact or_iff_right fun chosen => source (List.mem_map_of_mem chosen)

/-- Of two different members of a list one comes first. -/
theorem sublist_of_mem {one other : String × String} (member : one ∈ environment)
    (memberToo : other ∈ environment) (different : one ≠ other) :
    [one, other].Sublist environment ∨ [other, one].Sublist environment := by
  obtain ⟨earlier, later, rfl⟩ := List.append_of_mem member
  rcases List.mem_append.mp memberToo with before | here
  · exact .inr ((List.singleton_sublist.mpr before).append
      (List.singleton_sublist.mpr List.mem_cons_self))
  · have after := List.mem_of_ne_of_mem (Ne.symm different) here
    exact .inl (((List.singleton_sublist.mpr after).cons_cons one).trans
      (List.sublist_append_right earlier _))

/-- What is handed on is what belongs there, unless `libraryVariable` is overridden. -/
theorem forwarded_belongs_iff (distinct : (environment.map Prod.fst).Nodup) :
    (∀ name value, (name, value) ∈ forwarded environment asked ↔
      Belongs environment asked name value) ↔ ¬ Overridden environment asked := by
  constructor
  · rintro belongs ⟨askedFor, chosen, own, different, inOrder⟩
    have source : (librarySource, chosen) ∈ environment := inOrder.subset List.mem_cons_self
    have held := (belongs libraryVariable own).mp
      ((mem_forwarded_own distinct askedFor inOrder own).mpr rfl)
    rw [Belongs, if_pos ⟨rfl, List.mem_map_of_mem source⟩] at held
    exact different (value_unique distinct source held)
  · intro kept name value
    by_cases library : name = libraryVariable
    · subst library
      by_cases disputed : Disputed environment asked
      · obtain ⟨askedFor, chosen, own, different, source, ownSet⟩ := disputed
        have apart : (librarySource, chosen) ≠ (libraryVariable, own) := fun same =>
          librarySource_ne (Prod.mk.inj same).1
        rcases sublist_of_mem source ownSet apart with inOrder | inOrder
        · exact absurd ⟨askedFor, chosen, own, different, inOrder⟩ kept
        · rw [mem_forwarded_chosen distinct inOrder, Belongs,
            if_pos ⟨rfl, List.mem_map_of_mem source⟩]
          constructor
          · rintro rfl
            exact source
          · exact fun listed => value_unique distinct listed source
      · exact mem_forwarded_undisputed distinct disputed value
    · exact mem_forwarded_other distinct library value

/-- The order of the surroundings does not matter, unless `libraryVariable` is disputed. -/
theorem forwarded_perm_iff (distinct : (environment.map Prod.fst).Nodup) :
    (∀ other : List (String × String), other.Perm environment →
      forwarded other asked = forwarded environment asked) ↔ ¬ Disputed environment asked := by
  constructor
  · rintro same ⟨askedFor, chosen, own, different, source, ownSet⟩
    have apart : (libraryVariable, own) ≠ (librarySource, chosen) := fun equal =>
      librarySource_ne (Prod.mk.inj equal).1.symm
    -- the two of them moved to the front, once in either order
    have listed := (List.mem_erase_of_ne apart).mpr ownSet
    have front := (List.perm_cons_erase source).trans ((List.perm_cons_erase listed).cons _)
    have turned := front.trans (List.Perm.swap _ _ _)
    have distinctFront := (front.map Prod.fst).nodup_iff.mp distinct
    have distinctTurned := (turned.map Prod.fst).nodup_iff.mp distinct
    have ownCounts := (mem_forwarded_own distinctFront askedFor
      (((List.nil_sublist _).cons_cons _).cons_cons _) own).mpr rfl
    rw [same _ front.symm, ← same _ turned.symm, mem_forwarded_chosen distinctTurned
      (((List.nil_sublist _).cons_cons _).cons_cons _)] at ownCounts
    exact different ownCounts.symm
  · intro undisputed other rearranged
    have distinctOther := (rearranged.map Prod.fst).nodup_iff.mpr distinct
    have keeps := (forwarded_belongs_iff distinct).mpr fun overridden =>
      undisputed overridden.disputed
    have keepsOther := (forwarded_belongs_iff distinctOther).mpr fun overridden =>
      undisputed (overridden.disputed.perm rearranged)
    refine (forwarded_ordered other asked).ext (forwarded_ordered environment asked) ?_
    rintro ⟨name, value⟩
    rw [keepsOther, keeps, Belongs, Belongs]
    simp only [(rearranged.map Prod.fst).mem_iff, rearranged.mem_iff]

/-- Which variables are handed on, for every list of variables with distinct names.

They are listed by name. Every other name than `libraryVariable` is there exactly if its variable is
set and allowed, with its own value. `libraryVariable` has the value of `librarySource` when that is
set, and else its own if it is asked for, unless its own value is asked for, differs and is listed
later: then its own value is handed on. The order of the list matters exactly when the two variables
are set to different values and `libraryVariable` is asked for. -/
theorem forwarded_exact (environment : List (String × String)) (asked : List String)
    (distinct : (environment.map Prod.fst).Nodup) :
    (forwarded environment asked).Ordered ∧
      (∀ name value, name ≠ libraryVariable →
        ((name, value) ∈ forwarded environment asked ↔ Belongs environment asked name value)) ∧
      (Overridden environment asked → ∀ value,
        (libraryVariable, value) ∈ forwarded environment asked ↔
          (libraryVariable, value) ∈ environment) ∧
      ((∀ name value, (name, value) ∈ forwarded environment asked ↔
        Belongs environment asked name value) ↔ ¬ Overridden environment asked) ∧
      ((∀ other : List (String × String), other.Perm environment →
        forwarded other asked = forwarded environment asked) ↔ ¬ Disputed environment asked) := by
  refine ⟨forwarded_ordered environment asked,
    fun name value different => mem_forwarded_other distinct different value, ?_,
    forwarded_belongs_iff distinct, forwarded_perm_iff distinct⟩
  rintro ⟨askedFor, chosen, own, -, inOrder⟩ value
  have ownSet : (libraryVariable, own) ∈ environment :=
    inOrder.subset (List.mem_cons_of_mem _ List.mem_cons_self)
  rw [mem_forwarded_own distinct askedFor inOrder]
  constructor
  · rintro rfl
    exact ownSet
  · exact fun listed => value_unique distinct listed ownSet

/-- Both variables are set to different values, and `libraryVariable` is asked for too. -/
def rivals : List (String × String) := [(librarySource, "/x"), (libraryVariable, "/y")]

/-- Without `libraryVariable` being asked for, every order gives the value of `librarySource`. -/
theorem rivals_forwarded_exact :
    (rivals.map Prod.fst).Nodup ∧ ¬ Disputed rivals [] ∧
      ∀ other : List (String × String), other.Perm rivals →
        forwarded other [] = [(libraryVariable, "/x"), (librarySource, "/x")] := by
  have distinct : (rivals.map Prod.fst).Nodup := by decide
  have undisputed : ¬ Disputed rivals [] := fun disputed => List.not_mem_nil disputed.1
  have anyOrder := (forwarded_exact rivals [] distinct).2.2.2.2.mpr undisputed
  have listed : forwarded rivals [] = [(libraryVariable, "/x"), (librarySource, "/x")] := by
    decide
  exact ⟨distinct, undisputed, fun other rearranged => (anyOrder other rearranged).trans listed⟩

/-- With `libraryVariable` asked for, the value of `librarySource` is handed on under this name in
one order and not in the other. -/
theorem rivals_reordered :
    (rivals.map Prod.fst).Nodup ∧ Overridden rivals [libraryVariable] ∧
      Belongs rivals [libraryVariable] libraryVariable "/x" ∧
      forwarded rivals [libraryVariable] = [(libraryVariable, "/y"), (librarySource, "/x")] ∧
      forwarded rivals.reverse [libraryVariable] =
        [(libraryVariable, "/x"), (librarySource, "/x")] := by
  have overridden : Overridden rivals [libraryVariable] :=
    ⟨List.mem_cons_self, "/x", "/y", by decide, List.Sublist.refl _⟩
  refine ⟨by decide, overridden, ?_, by decide, by decide⟩
  rw [Belongs, if_pos ⟨rfl, by decide⟩]
  decide

end Rankwise.Environment
