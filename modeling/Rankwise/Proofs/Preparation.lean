import Rankwise.Proofs.Handover

/-!
# Prepared calls

A call that could be prepared ships every argument as it should be shipped. So the coordinator hands
each rank what it is to receive of all arguments (`Group.hands_prepared`), and a worker that is
handed just that between the skeletons and the computation comes to the arguments of its rank
(`Worker.takes_prepared`).
-/

namespace Rankwise

namespace CallArguments

variable (arguments : CallArguments) (computation : Computation)

/-- Names in the maps and contexts of all arguments are distinct. -/
def IsOrdered : Prop :=
  (∀ argument ∈ arguments.positional, argument.IsOrdered) ∧
    ∀ entry ∈ arguments.keyword, entry.2.IsOrdered

/-- The positional arguments, each with whether its parameter is replicated. -/
def flagged : List (Bool × Argument) :=
  arguments.positional.zipIdx.map fun (argument, index) =>
    (computation.isReplicated (computation.parameterName index), argument)

/-- The named arguments, each with whether its parameter is replicated. -/
def flaggedKeyword : List (String × Bool × Argument) :=
  arguments.keyword.map fun (name, argument) => (name, computation.isReplicated name, argument)

/-- The messages that bring the arguments to a rank, besides their skeletons. -/
def parcels (size rank : Nat) : List Message :=
  ((arguments.flagged computation).flatMap fun entry => entry.2.parcels entry.1 size rank) ++
    (arguments.flaggedKeyword computation).flatMap fun entry =>
      entry.2.2.parcels entry.2.1 size rank

/-- What a rank receives of the arguments. -/
def portion (size rank : Nat) (store : ResultStore) : Arguments where
  positional := (arguments.flagged computation).map fun entry =>
    entry.2.portion entry.1 size rank store
  keyword := (arguments.flaggedKeyword computation).map fun entry =>
    (entry.1, entry.2.2.portion entry.2.1 size rank store)

/-- The results that stand for parts of the arguments, in order. -/
def mentioned : List ResultId :=
  (arguments.positional.flatMap Argument.mentioned) ++
    arguments.keyword.flatMap fun entry => entry.2.mentioned

/-- The results that stand for frames among the arguments, in order. -/
def named : List ResultId :=
  (arguments.positional.flatMap Argument.named) ++
    arguments.keyword.flatMap fun entry => entry.2.named

/-- The positional arguments that are marked as replicated or not are the positional arguments. -/
theorem flagged_arguments :
    (arguments.flagged computation).map Prod.snd = arguments.positional := by
  simp [flagged, Function.comp_def]

/-- The named arguments that are marked as replicated or not are the named arguments. -/
theorem flaggedKeyword_arguments :
    (arguments.flaggedKeyword computation).map (fun entry => (entry.1, entry.2.2)) =
      arguments.keyword := by
  simp [flaggedKeyword, Function.comp_def]

/-- What is collected of the marked positional arguments is collected of the arguments. -/
theorem flatMap_flagged {α : Type} (content : Argument → List α) :
    ((arguments.flagged computation).flatMap fun entry => content entry.2) =
      arguments.positional.flatMap content := by
  rw [← List.flatMap_map Prod.snd, flagged_arguments]

/-- What is collected of the marked named arguments is collected of the arguments. -/
theorem flatMap_flaggedKeyword {α : Type} (content : Argument → List α) :
    ((arguments.flaggedKeyword computation).flatMap fun entry => content entry.2.2) =
      arguments.keyword.flatMap fun entry => content entry.2 := by
  rw [← flaggedKeyword_arguments arguments computation, List.flatMap_map]

end CallArguments

namespace PreparedCall

variable (isLive : Handle → Bool) (computation : Computation) (arguments : CallArguments)

/-- The parts of a call that is prepared. -/
structure Fits (prepared : PreparedCall) : Prop where
  name : prepared.computation.name = computation.name
  positional : prepared.positional = (arguments.flagged computation).map
    fun entry => (entry.2, entry.2.shipment entry.1)
  keyword : prepared.keyword = (arguments.flaggedKeyword computation).map
    fun entry => (entry.1, entry.2.2, entry.2.2.shipment entry.2.1)
  skeletons : ∃ positional keyword,
    (prepared.positional.mapM fun (argument, shipment) =>
      Shipment.skeleton argument shipment) = .ok positional ∧
    (prepared.keyword.mapM fun (name, argument, shipment) => do
      return (name, ← Shipment.skeleton argument shipment)) = .ok keyword ∧
    prepared.skeletons = .arguments positional keyword

/-- Positional arguments that can be shipped are shipped each in its own way. -/
theorem shipPositional_ok (positional : List (Argument × Shipment)) (noted later : List String)
    (found : (shipPositional isLive computation arguments.positional).run noted =
      .ok (positional, later)) :
    positional = (arguments.flagged computation).map
      fun entry => (entry.2, entry.2.shipment entry.1) := by
  rw [CallArguments.flagged, List.map_map]
  refine Shipment.Looking.mapM_ok _ _ (fun (argument, index) shipped noted later found => ?_)
    _ _ _ _ found
  obtain ⟨shipment, _, looked, last⟩ := Shipment.Looking.bind_ok found
  rw [← Shipment.Looking.pure_ok last, Shipment.ofArgument_ok isLive _ _ argument shipment _ _ looked]
  rfl

/-- Named arguments that can be shipped are shipped each in its own way. -/
theorem shipKeyword_ok (keyword : List (String × Argument × Shipment)) (noted later : List String)
    (found : (shipKeyword isLive computation arguments.keyword).run noted = .ok (keyword, later)) :
    keyword = (arguments.flaggedKeyword computation).map
      fun entry => (entry.1, entry.2.2, entry.2.2.shipment entry.2.1) := by
  rw [CallArguments.flaggedKeyword, List.map_map]
  refine Shipment.Looking.mapM_ok _ _ (fun (name, argument) shipped noted later found => ?_)
    _ _ _ _ found
  obtain ⟨shipment, _, looked, last⟩ := Shipment.Looking.bind_ok found
  rw [← Shipment.Looking.pure_ok last, Shipment.ofArgument_ok isLive _ _ argument shipment _ _ looked]
  rfl

/-- What comes of two steps comes of the second after the first. -/
theorem bind_ok {α β : Type} {first : Except Failure α} {second : α → Except Failure β}
    {result : β} (found : (first >>= second) = .ok result) :
    ∃ value, first = .ok value ∧ second value = .ok result := by
  cases first with
  | error failure => cases found
  | ok value => exact ⟨value, rfl, found⟩

/-- A call that could be prepared ships every argument as it should be shipped. -/
theorem prepare_ok (prepared : PreparedCall)
    (found : prepare isLive computation arguments = .ok prepared) :
    prepared.Fits computation arguments := by
  obtain ⟨⟨positional, noted⟩, shipped, found⟩ := bind_ok found
  obtain ⟨⟨keyword, later⟩, shippedKeyword, found⟩ := bind_ok found
  obtain ⟨skeletons, made, found⟩ := bind_ok found
  obtain ⟨keywordSkeletons, madeKeyword, found⟩ := bind_ok found
  obtain rfl := Except.ok.inj found
  exact {
    name := rfl
    positional := shipPositional_ok isLive computation arguments positional [] noted shipped
    keyword := shipKeyword_ok isLive computation arguments keyword noted later shippedKeyword
    skeletons := ⟨skeletons, keywordSkeletons, made, madeKeyword, rfl⟩ }

end PreparedCall

namespace Worker

/-- What a worker makes of the data of the positional arguments. -/
theorem takes_positional (flagged : List (Bool × Argument))
    (ordered : ∀ entry ∈ flagged, entry.2.IsOrdered) :
    ∃ skeletons, ((flagged.map fun entry => (entry.2, entry.2.shipment entry.1)).mapM
        fun (argument, shipment) => Shipment.skeleton argument shipment) = .ok skeletons ∧
      ∀ worker store intake, Receives (receiveArguments worker skeletons) store intake
        (flagged.flatMap fun entry => entry.2.parcels entry.1 worker.size worker.rank)
        (flagged.map fun entry => entry.2.portion entry.1 worker.size worker.rank store)
        (intake.after worker.rank store (flagged.flatMap fun entry => entry.2.mentioned)
          (flagged.flatMap fun entry => entry.2.named)) := by
  induction flagged with
  | nil =>
    refine ⟨[], rfl, fun worker store intake => ?_⟩
    show Receives (Pure.pure []) store intake [] [] (intake.after worker.rank store [] [])
    rw [Intake.after_nil]
    exact Receives.pure [] store intake
  | cons entry rest inductionHypothesis =>
    obtain ⟨skeleton, made, taken⟩ :=
      takes_argument entry.1 entry.2 (ordered _ List.mem_cons_self)
    obtain ⟨skeletons, madeRest, takenRest⟩ :=
      inductionHypothesis fun other member => ordered other (List.mem_cons_of_mem _ member)
    refine ⟨skeleton :: skeletons, ?_, fun worker store intake => ?_⟩
    · rw [List.map_cons, List.mapM_cons, madeRest]
      simp only [made]
      rfl
    · have others := takenRest worker store
        (intake.after worker.rank store entry.2.mentioned entry.2.named)
      rw [Intake.after_after] at others
      exact Receives.bind (taken worker store intake) (Receives.map _ others)

/-- What a worker makes of the data of the named arguments. -/
theorem takes_keyword (flagged : List (String × Bool × Argument))
    (ordered : ∀ entry ∈ flagged, entry.2.2.IsOrdered) :
    ∃ skeletons, ((flagged.map fun entry =>
          (entry.1, entry.2.2, entry.2.2.shipment entry.2.1)).mapM
        fun (name, argument, shipment) => do
          return (name, ← Shipment.skeleton argument shipment)) = .ok skeletons ∧
      ∀ worker store intake, Receives (receiveEntries worker skeletons) store intake
        (flagged.flatMap fun entry => entry.2.2.parcels entry.2.1 worker.size worker.rank)
        (flagged.map fun entry =>
          (entry.1, entry.2.2.portion entry.2.1 worker.size worker.rank store))
        (intake.after worker.rank store (flagged.flatMap fun entry => entry.2.2.mentioned)
          (flagged.flatMap fun entry => entry.2.2.named)) := by
  induction flagged with
  | nil =>
    refine ⟨[], rfl, fun worker store intake => ?_⟩
    show Receives (Pure.pure []) store intake [] [] (intake.after worker.rank store [] [])
    rw [Intake.after_nil]
    exact Receives.pure [] store intake
  | cons entry rest inductionHypothesis =>
    obtain ⟨skeleton, made, taken⟩ :=
      takes_argument entry.2.1 entry.2.2 (ordered _ List.mem_cons_self)
    obtain ⟨skeletons, madeRest, takenRest⟩ :=
      inductionHypothesis fun other member => ordered other (List.mem_cons_of_mem _ member)
    refine ⟨(entry.1, skeleton) :: skeletons, ?_, fun worker store intake => ?_⟩
    · rw [List.map_cons, List.mapM_cons, madeRest]
      simp only [made]
      rfl
    · have others := takenRest worker store
        (intake.after worker.rank store entry.2.2.mentioned entry.2.2.named)
      rw [Intake.after_after] at others
      exact Receives.bind (taken worker store intake) (Receives.map _ others)

/-- Receives all arguments of a call. -/
def receiveAll (worker : Worker) (positional : List Skeleton) (keyword : Named Skeleton) :
    Receiving (List Value × Named Value) := do
  let positional ← worker.receiveArguments positional
  return (positional, ← worker.receiveEntries keyword)

/-- A worker that is handed the data of a prepared call comes to the arguments of its rank. -/
theorem takes_prepared (computation : Computation) (arguments : CallArguments)
    (prepared : PreparedCall) (fits : prepared.Fits computation arguments)
    (ordered : arguments.IsOrdered) :
    ∃ positional keyword, prepared.skeletons = .arguments positional keyword ∧
      ∀ worker store, Receives (receiveAll worker positional keyword) store {}
        (arguments.parcels computation worker.size worker.rank)
        ((arguments.portion computation worker.size worker.rank store).positional,
          (arguments.portion computation worker.size worker.rank store).keyword)
        (Intake.after {} worker.rank store arguments.mentioned arguments.named) := by
  obtain ⟨positional, keyword, made, madeKeyword, same⟩ := fits.skeletons
  obtain ⟨skeletons, found, taken⟩ := takes_positional (arguments.flagged computation)
    fun entry member => ordered.1 entry.2 (by
      rw [← arguments.flagged_arguments computation]
      exact List.mem_map_of_mem member)
  obtain ⟨keywordSkeletons, foundKeyword, takenKeyword⟩ :=
    takes_keyword (arguments.flaggedKeyword computation)
      fun entry member => ordered.2 (entry.1, entry.2.2) (by
        rw [← arguments.flaggedKeyword_arguments computation]
        exact List.mem_map_of_mem (f := fun entry => (entry.1, entry.2.2)) member)
  rw [fits.positional, found] at made
  rw [fits.keyword, foundKeyword] at madeKeyword
  obtain rfl := Except.ok.inj made
  obtain rfl := Except.ok.inj madeKeyword
  refine ⟨skeletons, keywordSkeletons, same, fun worker store => ?_⟩
  have second := takenKeyword worker store (Intake.after {} worker.rank store
    ((arguments.flagged computation).flatMap fun entry => entry.2.mentioned)
    ((arguments.flagged computation).flatMap fun entry => entry.2.named))
  rw [Intake.after_after] at second
  have whole : Receives (receiveAll worker skeletons keywordSkeletons) store {} _ _ _ :=
    Receives.bind (taken worker store {}) (Receives.map _ second)
  rw [arguments.flatMap_flagged, arguments.flatMap_flagged, arguments.flatMap_flaggedKeyword,
    arguments.flatMap_flaggedKeyword] at whole
  exact whole

end Worker

namespace Group

variable (group : Group) (fleet : Fleet)

/-- Talk that hands messages for each of some things. -/
theorem hands_forM {α : Type} (items : List α) (talk : α → Talk Unit)
    (parcels : α → Nat → List Message)
    (each : ∀ item ∈ items, Hands group fleet (talk item) (parcels item)) :
    Hands group fleet (items.forM talk) fun rank => items.flatMap fun item => parcels item rank := by
  induction items with
  | nil => exact Hands.nothing
  | cons item rest inductionHypothesis =>
    exact Hands.bind (each item List.mem_cons_self)
      (inductionHypothesis fun other member => each other (List.mem_cons_of_mem _ member))

/-- What is sent of the arguments of a prepared call besides the skeletons. -/
theorem hands_prepared (sized : fleet.size group.link = group.size) (manned : 0 < group.size)
    (computation : Computation) (arguments : CallArguments) (prepared : PreparedCall)
    (fits : prepared.Fits computation arguments) (ordered : arguments.IsOrdered) :
    Hands group fleet (do
        prepared.positional.forM fun (argument, shipment) => sendData argument shipment
        prepared.keyword.forM fun (_, argument, shipment) => sendData argument shipment)
      fun rank => arguments.parcels computation group.size rank := by
  rw [fits.positional, fits.keyword]
  simp only [List.forM_eq_forM, List.forM_map]
  refine Hands.bind (hands_forM group fleet _ _ _ fun entry member => ?_)
    (hands_forM group fleet _ _ _ fun entry member => ?_)
  · refine hands_argument group fleet entry.1 sized manned entry.2 (ordered.1 _ ?_)
    rw [← arguments.flagged_arguments computation]
    exact List.mem_map_of_mem member
  · refine hands_argument group fleet entry.2.1 sized manned entry.2.2
      (ordered.2 (entry.1, entry.2.2) ?_)
    rw [← arguments.flaggedKeyword_arguments computation]
    exact List.mem_map_of_mem (f := fun entry => (entry.1, entry.2.2)) member

end Group

end Rankwise
