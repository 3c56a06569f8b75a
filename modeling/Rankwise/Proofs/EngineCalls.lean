import Mathlib.Data.Finset.Basic
import Mathlib.Data.Finset.Range
import Rankwise.Plan.Conversion

/-!
# Calls to an engine

A handle that an engine gives is named by the number of the call that gave it. A `Ledger` lists for
each call the handles that were passed in it, with those that went over to the new node. It is
`Orderly` if no handle was passed after it had gone over and every handle was given before it was
passed.

`Engine.strict` is an engine that keeps such a ledger and refuses to be passed a handle that has
gone over.
-/

namespace Rankwise

/-- A handle that is passed to an engine. -/
inductive Passing where
  /-- The handle goes over to the node that is built. -/
  | owned (number : Nat)
  /-- The node that is built refers to the handle. -/
  | borrowed (number : Nat)
deriving DecidableEq, Repr

namespace Passing

/-- The number of the handle. -/
def number : Passing → Nat
  | owned number | borrowed number => number

/-- The number of the handle, if it goes over. -/
def taken? : Passing → Option Nat
  | owned number => some number
  | borrowed _ => none

/-- Whether none of the handles has gone over when it is passed, if these have gone over before. -/
def accepts (taken : List Nat) : List Passing → Bool
  | [] => true
  | passing :: rest =>
    decide (passing.number ∉ taken) && accepts (taken ++ passing.taken?.toList) rest

end Passing

/-- The handles that were passed in each call. -/
abbrev Ledger := List (List Passing)

namespace Ledger

/-- The handles that have gone over. -/
def taken (ledger : Ledger) : List Nat := ledger.flatten.filterMap Passing.taken?

/-- The handles that were given and have not gone over. -/
def opened (ledger : Ledger) : Finset Nat :=
  (Finset.range ledger.length).filter (· ∉ ledger.taken)

/-- No handle is passed after it has gone over, and each was given by an earlier call. -/
structure Orderly (ledger : Ledger) : Prop where
  unclashing : ledger.flatten.Pairwise fun earlier later => earlier ≠ .owned later.number
  known : ∀ (place : Nat) (passings : List Passing), ledger[place]? = some passings →
    ∀ passing ∈ passings, passing.number < place

/-- These handles can be passed in the next call. -/
structure Fits (ledger : Ledger) (passings : List Passing) : Prop where
  unclashing : passings.Pairwise fun earlier later => earlier ≠ .owned later.number
  opened : ∀ passing ∈ passings, passing.number ∈ ledger.opened

/-- Every handle but the last one goes over exactly once, to a node that is built later. -/
structure IsTree (ledger : Ledger) (root : Nat) : Prop where
  last : root + 1 = ledger.length
  never : root ∉ ledger.taken
  once : ∀ number < root, ledger.taken.count number = 1

end Ledger

namespace EngineArgument

variable {η : Type}

mutual

/-- The handles that are passed with an argument, in order. -/
def passings : EngineArgument (Nat × η) → List Passing
  | owned handle => [.owned handle.1]
  | borrowed handle => [.borrowed handle.1]
  | list items => passingsOf items
  | _ => []

/-- The handles that are passed with some arguments. -/
def passingsOf : List (EngineArgument (Nat × η)) → List Passing
  | [] => []
  | item :: rest => passings item ++ passingsOf rest

end

mutual

/-- The argument without the numbers of its handles. -/
def bare : EngineArgument (Nat × η) → EngineArgument η
  | owned handle => owned handle.2
  | borrowed handle => borrowed handle.2
  | list items => list (bareAll items)
  | scalar value => scalar value
  | text content => text content
  | index value => index value
  | indices values => indices values
  | boolean value => boolean value
  | options entries => options entries
  | table batch => table batch
  | absent => absent

/-- The arguments without the numbers of their handles. -/
def bareAll : List (EngineArgument (Nat × η)) → List (EngineArgument η)
  | [] => []
  | item :: rest => bare item :: bareAll rest

end

end EngineArgument

/-- The action with a ledger beside the state, which it leaves as it is. -/
def Ledger.beside {ε α : Type} (action : StateM ε α) : StateM (ε × Ledger) α :=
  fun (state, ledger) => ((action.run state).1, (action.run state).2, ledger)

/-- The tables for an engine with a ledger. -/
def Resolver.beside {ε : Type} (resolver : Resolver (StateM ε)) :
    Resolver (StateM (ε × Ledger)) where
  table batch := Ledger.beside (resolver.table batch)
  lazyTable table := Ledger.beside (resolver.lazyTable table)

namespace Engine

variable {ε η : Type}

/-- A handle is passed that has gone over. -/
def alreadyTaken (name : String) : Failure where
  kind := .internal
  message := "Handle already transferred"
  fields := [("node", name)]

/-- The engine with numbered handles and a ledger of its calls. It refuses a call in which a handle
is passed that has gone over. -/
def strict (engine : Engine ε η) : Engine (ε × Ledger) (Nat × η) where
  create name output arguments := ExceptT.mk fun (state, ledger) =>
    let passings := EngineArgument.passingsOf arguments
    if Passing.accepts ledger.taken passings then
      let ran := (engine.create name output (EngineArgument.bareAll arguments)).run.run state
      (ran.1.map (ledger.length, ·), ran.2, ledger ++ [passings])
    else
      (.error (alreadyTaken name), state, ledger ++ [passings])
  optimize handle :=
    ExceptT.mk (Ledger.beside (Except.map (handle.1, ·) <$> (engine.optimize handle.2).run))
  execute handle kind schema := ExceptT.mk (Ledger.beside (engine.execute handle.2 kind schema).run)
  size handle state := engine.size handle.2 state.1
  rows handle state := engine.rows handle.2 state.1

end Engine

/-! What passing some handles does to the ledger. -/

/-- Handles are accepted if none has gone over before, and none does so among them before it is
passed. -/
theorem Passing.accepts_of_unclashing {taken : List Nat} {passings : List Passing}
    (unclashing : passings.Pairwise fun earlier later => earlier ≠ .owned later.number)
    (still : ∀ passing ∈ passings, passing.number ∉ taken) : accepts taken passings = true := by
  induction passings generalizing taken with
  | nil => rfl
  | cons passing rest inductionHypothesis =>
    obtain ⟨here, further⟩ := List.pairwise_cons.mp unclashing
    obtain ⟨stillHere, stillFurther⟩ := List.forall_mem_cons.mp still
    rw [accepts, Bool.and_eq_true, decide_eq_true_iff]
    refine ⟨stillHere, inductionHypothesis further fun later member => ?_⟩
    intro found
    rcases List.mem_append.mp found with before | now
    · exact stillFurther later member before
    · cases passing with
      | owned number =>
        obtain rfl := List.mem_singleton.mp now
        exact here later member rfl
      | borrowed number => cases now

namespace Ledger

variable {ledger : Ledger} {passings : List Passing} {number : Nat}

/-- Behind a further call the handles that go over in it have gone over, too. -/
@[simp] theorem taken_enter (ledger : Ledger) (passings : List Passing) :
    taken (ledger ++ [passings]) = ledger.taken ++ passings.filterMap Passing.taken? := by
  simp [taken]

/-- A handle is open if it was given and has not gone over. -/
theorem mem_opened : number ∈ ledger.opened ↔ number < ledger.length ∧ number ∉ ledger.taken := by
  rw [opened, Finset.mem_filter, Finset.mem_range]

/-- A handle has gone over if it was passed to go over in some call. -/
theorem mem_taken : number ∈ ledger.taken ↔ .owned number ∈ ledger.flatten := by
  rw [taken, List.mem_filterMap]
  constructor
  · rintro ⟨passing, member, same⟩
    cases passing with
    | owned other =>
      cases same
      exact member
    | borrowed other => cases same
  · intro member
    exact ⟨_, member, rfl⟩

/-- Handles that fit are accepted. -/
theorem Fits.accepts (fits : ledger.Fits passings) : Passing.accepts ledger.taken passings = true :=
  Passing.accepts_of_unclashing fits.unclashing fun passing member =>
    (mem_opened.mp (fits.opened passing member)).2

/-- The handle that the next call gives is new. -/
theorem length_not_mem_opened (ledger : Ledger) : ledger.length ∉ ledger.opened := by
  rw [mem_opened]
  exact fun found => Nat.lt_irrefl _ found.1

namespace Orderly

/-- Without calls nothing is out of order. -/
theorem empty : Orderly [] := ⟨.nil, fun _ _ found => nomatch found⟩

/-- Only handles that were given have gone over. -/
theorem lt_of_taken (orderly : ledger.Orderly) (taken : number ∈ ledger.taken) :
    number < ledger.length := by
  obtain ⟨passings, member, passed⟩ := List.mem_flatten.mp (mem_taken.mp taken)
  obtain ⟨place, inside, rfl⟩ := List.mem_iff_getElem.mp member
  exact (orderly.known place _ (List.getElem?_eq_getElem inside) _ passed).trans inside

/-- A further call that fits leaves the ledger in order. -/
theorem enter (orderly : ledger.Orderly) (fits : ledger.Fits passings) :
    Orderly (ledger ++ [passings]) := by
  constructor
  · rw [List.flatten_append, List.flatten_singleton, List.pairwise_append]
    refine ⟨orderly.unclashing, fits.unclashing, ?_⟩
    rintro earlier before later now rfl
    exact (mem_opened.mp (fits.opened later now)).2 (mem_taken.mpr before)
  · intro place found there passing member
    rw [List.getElem?_append] at there
    split at there
    case isTrue => exact orderly.known place found there passing member
    case isFalse beyond =>
      obtain ⟨inside, rfl⟩ := List.getElem?_eq_some_iff.mp there
      have least : place - ledger.length = 0 := Nat.lt_one_iff.mp inside
      have same : passing ∈ passings := by simpa [least] using member
      have known := (mem_opened.mp (fits.opened passing same)).1
      omega

/-- A call opens the handle that it gives and closes those that go over. -/
theorem opened_enter (orderly : ledger.Orderly) (fits : ledger.Fits passings) :
    opened (ledger ++ [passings]) =
      insert ledger.length (ledger.opened \ (passings.filterMap Passing.taken?).toFinset) := by
  have new : ledger.length ∉ taken (ledger ++ [passings]) := by
    rw [taken_enter, List.mem_append]
    rintro (before | now)
    · exact Nat.lt_irrefl _ (orderly.lt_of_taken before)
    · obtain ⟨passing, member, same⟩ := List.mem_filterMap.mp now
      have known := (mem_opened.mp (fits.opened passing member)).1
      cases passing with
      | owned other =>
        cases same
        exact Nat.lt_irrefl _ known
      | borrowed other => cases same
  ext number
  rw [mem_opened, Finset.mem_insert, Finset.mem_sdiff, mem_opened, List.mem_toFinset, taken_enter,
    List.length_append, List.length_singleton, List.mem_append]
  rw [taken_enter, List.mem_append] at new
  constructor
  · rintro ⟨inside, still⟩
    by_cases last : number = ledger.length
    · exact .inl last
    · exact .inr ⟨⟨by omega, fun before => still (.inl before)⟩, fun now => still (.inr now)⟩
  · rintro (rfl | ⟨⟨inside, before⟩, now⟩)
    · exact ⟨Nat.lt_succ_self _, new⟩
    · exact ⟨by omega, fun either => either.elim before now⟩

/-- No handle has gone over twice. -/
theorem nodup_taken (orderly : ledger.Orderly) : ledger.taken.Nodup := by
  rw [taken, List.Nodup, List.pairwise_filterMap]
  refine orderly.unclashing.imp fun {earlier later} unlike first here second there same => ?_
  subst same
  cases earlier with
  | borrowed number => cases here
  | owned number =>
    cases later with
    | borrowed other => cases there
    | owned other =>
      cases here
      cases there
      exact unlike rfl

/-- If a single handle is left then all others have gone over. -/
theorem isTree (orderly : ledger.Orderly) {root : Nat} (left : ledger.opened = {root}) :
    ledger.IsTree root := by
  have opened (number : Nat) :
      number < ledger.length ∧ number ∉ ledger.taken ↔ number = root := by
    rw [← mem_opened, left, Finset.mem_singleton]
  obtain ⟨inside, never⟩ := (opened root).mpr rfl
  -- What the last call gave cannot have been passed in any call.
  have last : ledger.length - 1 ∉ ledger.taken := by
    intro taken
    obtain ⟨passings, member, passed⟩ := List.mem_flatten.mp (mem_taken.mp taken)
    obtain ⟨place, before, rfl⟩ := List.mem_iff_getElem.mp member
    have known := orderly.known place _ (List.getElem?_eq_getElem before) _ passed
    have number : (Passing.owned (ledger.length - 1)).number = ledger.length - 1 := rfl
    omega
  have lastOpened := (opened _).mp ⟨by omega, last⟩
  refine ⟨by omega, never, fun number before => ?_⟩
  refine List.count_eq_one_of_mem orderly.nodup_taken ?_
  by_contra still
  have same := (opened number).mp ⟨before.trans inside, still⟩
  exact Nat.ne_of_lt before same

end Orderly

end Ledger

end Rankwise
