import Mathlib.Data.List.Forall2
import Rankwise.Group.RankFailure

/-!
# What becomes of the failures of ranks

The coordinator combines what the ranks reported. It goes well if no rank failed, and the common
failure of all ranks is given as it was reported. Otherwise every rank that failed is listed once
behind the failure that is given, the highest first (`causes_foldl`, `mem_reported`), with what it
reported and its rank behind that.

The first field with a key is the one that is read. So a rank is found under its key exactly if its
report does not give another rank there (`field?_onRank`). Main statement: `combine_exact`.
-/

namespace Rankwise.RankFailure

variable {statuses : List (Option RankFailure)}

/-- Every rank failed, and in the same way as rank 0, which reported `first`. -/
def IsCommon (statuses : List (Option RankFailure)) (first : RankFailure) : Prop :=
  statuses.head? = some (some first) ∧
    ∀ status ∈ statuses, ∃ report, status = some report ∧ SameFailure report first

/-- The ranks that failed and what they reported, by increasing rank. -/
def reported (statuses : List (Option RankFailure)) : List (Nat × RankFailure) :=
  statuses.zipIdx.filterMap fun (status, rank) => status.map (rank, ·)

/-- The failures gathered are the reports, each with its rank attached. -/
theorem failing_eq (statuses : List (Option RankFailure)) :
    failing statuses = (reported statuses).map fun (rank, report) => report.onRank rank := by
  unfold failing reported
  rw [List.map_filterMap]
  congr 1
  funext ⟨status, rank⟩
  cases status <;> simp

/-- A rank is listed with a report exactly if that is what it reported. -/
theorem mem_reported (rank : Nat) (report : RankFailure) :
    (rank, report) ∈ reported statuses ↔ statuses[rank]? = some (some report) := by
  unfold reported
  rw [List.mem_filterMap]
  constructor
  · rintro ⟨⟨status, index⟩, member, listed⟩
    obtain ⟨_, rfl, same⟩ := Option.map_eq_some_iff.mp listed
    cases same
    exact List.mem_zipIdx_iff_getElem?.mp member
  · intro there
    exact ⟨(some report, rank), List.mem_zipIdx_iff_getElem?.mpr there, rfl⟩

/-- The reports stand in the order of the ranks. -/
theorem reported_increasing (statuses : List (Option RankFailure)) :
    (reported statuses).Pairwise fun lower higher => lower.1 < higher.1 := by
  have numbered : (statuses.zipIdx.map Prod.snd).Pairwise (· < ·) := by
    rw [List.zipIdx_map_snd]
    exact List.pairwise_lt_range'
  rw [reported, List.pairwise_filterMap]
  refine (List.pairwise_map.mp numbered).imp ?_
  rintro ⟨_, rank⟩ ⟨_, later⟩ before _ listed _ listedToo
  obtain ⟨_, rfl, rfl⟩ := Option.map_eq_some_iff.mp listed
  obtain ⟨_, rfl, rfl⟩ := Option.map_eq_some_iff.mp listedToo
  exact before

/-- There are as many reports as ranks that failed. -/
theorem length_reported (statuses : List (Option RankFailure)) :
    (reported statuses).length = statuses.countP Option.isSome := by
  have counted : (statuses.zipIdx.map Prod.fst).countP Option.isSome =
      statuses.countP Option.isSome := by
    rw [List.zipIdx_map_fst]
  rw [reported, List.length_filterMap_eq_countP, ← counted, List.countP_map]
  congr 1
  funext ⟨status, rank⟩
  simp

/-- Each failure is put before those that were put behind one another so far, and nothing is put
behind the furthest. -/
theorem causes_foldl (rest : List Failure) (top : Failure) :
    let behind := rest.foldl (fun behind failure => failure.causedBy behind) top
    behind.origin = top.origin ∧
      behind.toReport :: behind.causes =
        rest.reverse.map Failure.toReport ++ top.toReport :: top.causes := by
  -- What is behind the next failure is the one before it, so the top changes with every step.
  induction rest generalizing top with
  | nil => simp
  | cons failure rest inductionHypothesis =>
    obtain ⟨known, causes⟩ := inductionHypothesis (failure.causedBy top)
    constructor
    · exact known
    · rw [List.foldl_cons, causes]
      simp

/-- Failures behind which there is nothing are listed from the last to the first. -/
theorem someFailed_eq (failures : List Failure)
    (bare : ∀ failure ∈ failures, failure.causes = [] ∧ failure.origin = none) :
    someFailed failures =
      { kind := .remote, message := "Some ranks failed",
        fields := [("failed_ranks", toString failures.length)],
        causes := failures.reverse.map Failure.toReport } := by
  cases failures with
  | nil => rfl
  | cons top rest =>
    obtain ⟨alone, unknown⟩ := bare top List.mem_cons_self
    obtain ⟨origin, causes⟩ := causes_foldl rest top
    rw [someFailed, chain]
    dsimp only
    rw [Failure.causedBy, causes, origin, alone, unknown, List.reverse_cons, List.map_append]
    rfl

/-- What is given if ranks failed in different ways. -/
theorem someFailed_failing (statuses : List (Option RankFailure)) :
    someFailed (failing statuses) =
      { kind := .remote, message := "Some ranks failed",
        fields := [("failed_ranks", toString (statuses.countP Option.isSome))],
        causes := (reported statuses).reverse.map fun (rank, report) =>
          (report.onRank rank).toReport } := by
  have bare : ∀ failure ∈ failing statuses, failure.causes = [] ∧ failure.origin = none := by
    rw [failing_eq]
    intro failure member
    obtain ⟨item, -, rfl⟩ := List.mem_map.mp member
    exact ⟨rfl, rfl⟩
  rw [someFailed_eq _ bare, failing_eq, List.length_map, length_reported, ← List.map_reverse,
    List.map_map]
  rfl

/-- The common failure of all ranks is found exactly if there is one. -/
theorem common?_eq_some_iff (first : RankFailure) :
    common? statuses = some first ↔ IsCommon statuses first := by
  unfold IsCommon
  cases statuses with
  | nil => simp [common?]
  | cons status rest =>
    cases status with
    | none => simp [common?]
    | some report =>
      simp only [common?, Option.ite_none_right_eq_some, List.all_eq_true, Option.any_eq_true,
        decide_eq_true_eq, List.head?_cons, Option.some.injEq, List.forall_mem_cons]
      constructor
      · rintro ⟨others, rfl⟩
        exact ⟨rfl, ⟨_, rfl, rfl, rfl⟩, others⟩
      · rintro ⟨rfl, -, others⟩
        exact ⟨others, rfl⟩

/-- A rank is found with its failure exactly if the report of the rank does not give another one. -/
theorem field?_onRank (report : RankFailure) (rank : Nat) :
    (report.onRank rank).field? "rank" = some (toString rank) ↔
      ∀ shown, report.toFailure.field? "rank" = some shown → shown = toString rank := by
  have first : (report.onRank rank).field? "rank" =
      (report.toFailure.field? "rank").or (some (toString rank)) := by
    simp only [onRank, Failure.withField, Report.field?, List.lookup_append]
    rfl
  rw [first]
  cases report.toFailure.field? "rank" <;> simp

/-- Over whatever the ranks reported: it goes well exactly if no rank failed. If all failed in the
same way, what rank 0 reported is given, with nothing behind it. Otherwise the number of ranks that
failed is given, and behind it each of them, the highest first, with all that it reported and its
rank; and the rank is read from there exactly if the report does not give another rank of its own.
-/
theorem combine_exact (statuses : List (Option RankFailure)) :
    (combine statuses = .ok () ↔ ∀ status ∈ statuses, status = none) ∧
      (∀ first, IsCommon statuses first →
        combine statuses = .error
          { kind := .ofName first.kind, message := first.message, fields := first.fields }) ∧
      ((∃ status ∈ statuses, status ≠ none) → (∀ first, ¬ IsCommon statuses first) →
        ∃ listed : List (Nat × RankFailure),
          listed.Pairwise (fun higher lower => lower.1 < higher.1) ∧
            (∀ rank report, (rank, report) ∈ listed ↔ statuses[rank]? = some (some report)) ∧
            ∃ failure, combine statuses = .error failure ∧ failure.origin = none ∧
              failure.toReport =
                { kind := .remote, message := "Some ranks failed",
                  fields := [("failed_ranks", toString (statuses.countP Option.isSome))] } ∧
              List.Forall₂ (fun (rank, report) cause =>
                  cause =
                    { kind := .ofName report.kind, message := report.message,
                      fields := report.fields ++ [("rank", toString rank)] } ∧
                  (cause.field? "rank" = some (toString rank) ↔
                    ∀ shown, report.fields.lookup "rank" = some shown → shown = toString rank))
                listed failure.causes) := by
  have fineIff : statuses.all Option.isNone = true ↔ ∀ status ∈ statuses, status = none := by
    simp
  refine ⟨?_, ?_, ?_⟩
  · rw [← fineIff]
    unfold combine
    split_ifs with fine
    · simp [fine]
    · cases common? statuses <;> simp [fine]
  · intro first common
    have failed : ¬ statuses.all Option.isNone = true := by
      rw [fineIff]
      intro fine
      have here := fine _ (List.mem_of_head? common.1)
      cases here
    rw [combine, if_neg failed, (common?_eq_some_iff first).mpr common]
    rfl
  · intro failed different
    have unlike : common? statuses = none := by
      refine Option.eq_none_iff_forall_ne_some.mpr fun first found => ?_
      exact different first ((common?_eq_some_iff first).mp found)
    have notFine : ¬ statuses.all Option.isNone = true := by
      rw [fineIff]
      obtain ⟨status, member, given⟩ := failed
      exact fun fine => given (fine status member)
    -- The causes are stacked up by rank, so the last rank that failed is on top.
    have combined : combine statuses = .error (someFailed (failing statuses)) := by
      rw [combine, if_neg notFine, unlike]
    rw [someFailed_failing] at combined
    refine ⟨(reported statuses).reverse, ?_, ?_, _, combined, rfl, rfl, ?_⟩
    · exact List.pairwise_reverse.mpr (reported_increasing statuses)
    · intro rank report
      rw [List.mem_reverse, mem_reported]
    · rw [List.forall₂_map_right_iff, List.forall₂_same]
      rintro ⟨rank, report⟩ -
      exact ⟨rfl, field?_onRank report rank⟩

/-- Two ranks that failed in the same way with different fields, and rank 1 of three, which did not
say on which rank it failed. -/
theorem combine_plain :
    let boom : RankFailure := ⟨"Plan", "boom", [("column", "b")]⟩
    combine [some boom, some { boom with fields := [] }] =
        .error { kind := .plan, message := "boom", fields := [("column", "b")] } ∧
      ∃ failure cause, combine [none, some boom, none] = .error failure ∧
        failure.causes = [cause] ∧ cause.field? "rank" = some "1" := by
  intro boom
  obtain ⟨-, common, -⟩ := combine_exact [some boom, some { boom with fields := [] }]
  obtain ⟨-, -, mixed⟩ := combine_exact [none, some boom, none]
  constructor
  · refine common boom ⟨rfl, ?_⟩
    simp [SameFailure]
  · have different : ∀ first, ¬ IsCommon [none, some boom, none] first := by
      rintro first ⟨head, -⟩
      cases head
    obtain ⟨listed, -, known, failure, failed, -, -, causes⟩ :=
      mixed ⟨some boom, by simp, by simp⟩ different
    cases failed
    have member := (known 1 boom).mpr rfl
    cases causes with
    | cons here others =>
      cases others
      obtain rfl := List.mem_singleton.mp member
      exact ⟨_, _, rfl, rfl, here.2.mpr (by simp [boom])⟩

/-- Rank 0 of two failed with a report that names rank 7: this is the rank that is read. -/
theorem combine_misnamed :
    let statuses : List (Option RankFailure) := [some ⟨"General", "boom", [("rank", "7")]⟩, none]
    ∃ failure cause, combine statuses = .error failure ∧ failure.causes = [cause] ∧
      cause.field? "rank" = some "7" ∧ cause.field? "rank" ≠ some (toString 0) :=
  ⟨_, _, rfl, rfl, by decide, by decide⟩

end Rankwise.RankFailure
