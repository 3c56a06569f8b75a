/-!
# Going over lists

Something that may fail is done with each item of a list. It goes well if it goes well with each
item (`mapM_isOk`, and with known results `mapM_eq_ok`), and only then (`mapM_ok`). It fails as one
of the items makes it fail (`mapM_error`).
-/

namespace Rankwise

variable {α β ε : Type} {items : List α} {step : α → Except ε β}

/-- A traversal in which every step succeeds gives the results of the steps. -/
theorem mapM_eq_ok {result : α → β} (each : ∀ item ∈ items, step item = .ok (result item)) :
    items.mapM step = .ok (items.map result) := by
  induction items with
  | nil => rfl
  | cons item rest inductionHypothesis =>
    obtain ⟨here, others⟩ := List.forall_mem_cons.mp each
    rw [List.mapM_cons, here, inductionHypothesis others]
    rfl

/-- A traversal in which every step succeeds gives some results. -/
theorem mapM_isOk (each : ∀ item ∈ items, ∃ result, step item = .ok result) :
    ∃ results, items.mapM step = .ok results := by
  induction items with
  | nil => exact ⟨[], rfl⟩
  | cons item rest inductionHypothesis =>
    obtain ⟨⟨result, here⟩, others⟩ := List.forall_mem_cons.mp each
    obtain ⟨results, further⟩ := inductionHypothesis others
    exact ⟨result :: results, by rw [List.mapM_cons, here, further]; rfl⟩

/-- Where it goes well there is one result for each item. -/
theorem mapM_ok {results : List β} (found : items.mapM step = .ok results) :
    results.length = items.length ∧ ∀ item ∈ items, ∃ result, step item = .ok result := by
  induction items generalizing results with
  | nil =>
    cases found
    simp
  | cons item rest inductionHypothesis =>
    rw [List.mapM_cons] at found
    cases first : step item with
    | error stop =>
      rw [first] at found
      cases found
    | ok result =>
      rw [first] at found
      cases others : rest.mapM step with
      | error stop =>
        rw [others] at found
        cases found
      | ok further =>
        rw [others] at found
        cases found
        obtain ⟨counted, each⟩ := inductionHypothesis others
        constructor
        · simp [counted]
        · exact List.forall_mem_cons.mpr ⟨⟨result, first⟩, each⟩

/-- A traversal that stops has stopped at one of its items. -/
theorem mapM_error {stop : ε} (stopped : items.mapM step = .error stop) :
    ∃ item ∈ items, step item = .error stop := by
  induction items with
  | nil => cases stopped
  | cons item rest inductionHypothesis =>
    rw [List.mapM_cons] at stopped
    cases first : step item with
    | error other =>
      rw [first] at stopped
      cases stopped
      exact ⟨item, List.mem_cons_self, first⟩
    | ok value =>
      rw [first] at stopped
      cases others : rest.mapM step with
      | error other =>
        rw [others] at stopped
        cases stopped
        obtain ⟨later, member, failed⟩ := inductionHypothesis others
        exact ⟨later, List.mem_cons_of_mem item member, failed⟩
      | ok values =>
        rw [others] at stopped
        cases stopped

end Rankwise
