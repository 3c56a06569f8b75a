import Mathlib.Data.Set.Insert
import Mathlib.Logic.Relation
import Rankwise.Proofs.Courses
import Rankwise.Proofs.Ownership
import Rankwise.Proofs.Unfolding
import Rankwise.Proofs.WellFormedPlans

/-!
# What is built in each scope

Within a scope an operator is made at most once, and what it is made from was made in the same scope
or further inside (`Makings.IsScoped`). Each relation of a join or of a set operation is made in a
scope of its own, so whatever its handle leads to lies in that scope: nothing of the other relation
is used again, and nothing from outside (`PlanCall.convert_unfolds`).

While a node is converted, the operators above it in its scope are busy. The invariant of a scope
(`Makings.Accounts`) is that exactly the operators that were made in it are known, none of which is
busy, and that something was made inside of it only for operators that are known or busy. So nothing
was made yet for a join whose conversion begins, and its two scopes are entered once only.
-/

namespace Rankwise

namespace Half

/-- The other one of two relations. -/
def other : Half → Half
  | left => right
  | right => left

end Half

/-- The scopes of the two relations, and those of different nodes, have nothing in common. -/
theorem Scope.eq_of_prefixes {scope further : Scope} {entry another : NodeId × Half}
    (first : scope ++ [entry] <+: further) (second : scope ++ [another] <+: further) :
    entry = another := by
  have shorter : scope ++ [entry] <+: scope ++ [another] :=
    List.prefix_of_prefix_length_le first second (by simp)
  have same := shorter.eq_of_length (by simp)
  simpa using same

/-- What is around a scope does not lie inside of it. -/
theorem Scope.not_inside_of_around {outer scope : Scope} {entry : NodeId × Half}
    (around : outer <+: scope) : ¬ scope ++ [entry] <+: outer := by
  intro inside
  have longer := inside.length_le.trans around.length_le
  rw [List.length_append, List.length_singleton] at longer
  omega

namespace Makings

/-- The handle with this number was made for this node and in this scope. -/
def Made (makings : Makings) (scope : Scope) (id : NodeId) (number : Nat) : Prop :=
  ∃ making, makings[number]? = some making ∧ making.scope = scope ∧ making.id = id

/-- The handle with this number was made in this scope or further inside. -/
def Inside (makings : Makings) (scope : Scope) (number : Nat) : Prop :=
  ∃ making, makings[number]? = some making ∧ scope <+: making.scope

/-- Nothing was made in this scope or further inside. -/
def Untouched (makings : Makings) (scope : Scope) : Prop := ∀ number, ¬ makings.Inside scope number

/-- The first handle was made from the second one, which it took over or was lent. -/
def Uses (makings : Makings) (number other : Nat) : Prop :=
  ∃ making, makings[number]? = some making ∧ ∃ passing ∈ making.passings, passing.number = other

/-- The node was made from handles in its own scope or further inside. If it combines two relations,
these are its handles, and each was made in a scope of its own. -/
structure Fits (arena : Arena) (makings : Makings) (making : Making) : Prop where
  inside : ∀ passing ∈ making.passings, makings.Inside making.scope passing.number
  apart : ∀ operator, arena.operator making.id = .ok operator → operator.combinesTwo = true →
    ∃ left right first second, operator.inputs = [left, right] ∧
      making.passings = [.owned first, .owned second] ∧
      makings.Made (making.scope ++ [(making.id, .left)]) left first ∧
      makings.Made (making.scope ++ [(making.id, .right)]) right second

/-- Nodes were made from what was made for them, and operators once only in each scope. -/
structure IsScoped (arena : Arena) (makings : Makings) : Prop where
  fits : ∀ making ∈ makings, Fits arena makings making
  once : ∀ scope id operator, arena.operator id = .ok operator → ∀ number other,
    makings.Made scope id number → makings.Made scope id other → number = other

/-- More was made, all of it in this scope or further inside. -/
def Grows (scope : Scope) (makings later : Makings) : Prop :=
  ∃ added, later = makings ++ added ∧ ∀ making ∈ added, scope <+: making.scope

/-- Whatever the handle leads to was made for this relation of the node, and nothing of it for the
other relation or in a scope around both. -/
def OnItsOwn (makings : Makings) (scope : Scope) (id : NodeId) (half : Half) (number : Nat) : Prop :=
  ∀ reached, Relation.ReflTransGen makings.Uses number reached →
    makings.Inside (scope ++ [(id, half)]) reached ∧
      ¬ makings.Inside (scope ++ [(id, half.other)]) reached ∧
      ∀ outer, outer <+: scope → ∀ child, ¬ makings.Made outer child reached

variable {arena : Arena} {makings later latest : Makings} {making : Making}
  {scope inner : Scope} {id : NodeId} {number other : Nat}

/-- What was made in a scope was made inside of it. -/
theorem Made.inside (made : makings.Made scope id number) : makings.Inside scope number := by
  obtain ⟨making, there, rfl, -⟩ := made
  exact ⟨making, there, List.prefix_rfl⟩

/-- What was made inside a scope was made inside every scope around it. -/
theorem Inside.outer (inside : makings.Inside inner number) (beyond : scope <+: inner) :
    makings.Inside scope number := by
  obtain ⟨making, there, further⟩ := inside
  exact ⟨making, there, beyond.trans further⟩

/-- The scope in which a handle was made lies inside each that it was made inside of. -/
theorem Inside.around (inside : makings.Inside scope number)
    (there : makings[number]? = some making) : scope <+: making.scope := by
  obtain ⟨same, thereToo, further⟩ := inside
  exact Option.some.inj (thereToo.symm.trans there) ▸ further

/-- What is made inside a scope leads to what is made inside of it only. -/
theorem IsScoped.leads (isScoped : IsScoped arena makings) (inside : makings.Inside scope number)
    (leads : Relation.ReflTransGen makings.Uses number other) : makings.Inside scope other := by
  induction leads with
  | refl => exact inside
  | tail _ uses inductionHypothesis =>
    obtain ⟨making, there, passing, member, rfl⟩ := uses
    have fits := isScoped.fits making (List.mem_of_getElem? there)
    exact (fits.inside passing member).outer (inductionHypothesis.around there)

/-- What was made for one relation of a node leads to nothing made for the other one. -/
theorem IsScoped.onItsOwn {half : Half} (isScoped : IsScoped arena makings)
    (inside : makings.Inside (scope ++ [(id, half)]) number) :
    makings.OnItsOwn scope id half number := by
  intro reached leads
  have within := isScoped.leads inside leads
  refine ⟨within, ?_, fun outer around child made => ?_⟩
  · rintro ⟨making, there, second⟩
    have equal := (Prod.mk.inj (Scope.eq_of_prefixes (within.around there) second)).2
    cases half <;> cases equal
  · obtain ⟨making, there, rfl, rfl⟩ := made
    exact Scope.not_inside_of_around around (within.around there)

/-! Growing. -/

namespace Grows

/-- Nothing more may be made. -/
theorem refl : makings.Grows scope makings := ⟨[], by simp, nofun⟩

/-- What is made in two steps is made in the scope of both. -/
theorem trans (first : makings.Grows scope later) (second : later.Grows scope latest) :
    makings.Grows scope latest := by
  obtain ⟨added, rfl, within⟩ := first
  obtain ⟨further, rfl, withinToo⟩ := second
  exact ⟨added ++ further, List.append_assoc _ _ _, List.forall_mem_append.mpr ⟨within, withinToo⟩⟩

/-- What is made inside a scope is made inside every scope around it. -/
theorem outer (grows : makings.Grows inner later) (beyond : scope <+: inner) :
    makings.Grows scope later := by
  obtain ⟨added, rfl, within⟩ := grows
  exact ⟨added, rfl, fun making member => beyond.trans (within making member)⟩

/-- What there was stays in its place. -/
theorem stays (grows : makings.Grows scope later) {found : Making}
    (there : makings[number]? = some found) : later[number]? = some found := by
  obtain ⟨added, rfl, -⟩ := grows
  rwa [List.getElem?_append_left (List.getElem?_eq_some_iff.mp there).1]

/-- What was made before is still made. -/
theorem made (grows : makings.Grows inner later) (made : makings.Made scope id number) :
    later.Made scope id number := by
  obtain ⟨making, there, here⟩ := made
  exact ⟨making, grows.stays there, here⟩

/-- It still lies inside the scope. -/
theorem inside (grows : makings.Grows inner later) (inside : makings.Inside scope number) :
    later.Inside scope number := by
  obtain ⟨making, there, here⟩ := inside
  exact ⟨making, grows.stays there, here⟩

/-- What was there is there still, or it is new and was made in the scope or further inside. -/
theorem cases (grows : makings.Grows scope later) {found : Making}
    (there : later[number]? = some found) :
    makings[number]? = some found ∨ scope <+: found.scope := by
  obtain ⟨added, rfl, within⟩ := grows
  rw [List.getElem?_append] at there
  split at there
  · exact .inl there
  · exact .inr (within found (List.mem_of_getElem? there))

/-- Making something for one relation makes nothing for the other one. -/
theorem untouched {half another : Half} (grows : makings.Grows (scope ++ [(id, half)]) later)
    (different : half ≠ another)
    (untouched : makings.Untouched (scope ++ [(id, another)])) :
    later.Untouched (scope ++ [(id, another)]) := by
  rintro number ⟨making, there, within⟩
  rcases grows.cases there with before | further
  · exact untouched number ⟨making, before, within⟩
  · exact different (Prod.mk.inj (Scope.eq_of_prefixes further within)).2

/-- A node that fits goes on fitting. -/
theorem fits (grows : makings.Grows scope later) (fits : Fits arena makings making) :
    Fits arena later making := by
  refine ⟨fun passing member => grows.inside (fits.inside passing member),
    fun operator found two => ?_⟩
  obtain ⟨left, right, first, second, inputs, passed, leftly, rightly⟩ :=
    fits.apart operator found two
  exact ⟨left, right, first, second, inputs, passed, grows.made leftly, grows.made rightly⟩

end Grows

/-! One more is made. -/

/-- One more handle is made in its own scope. -/
theorem grows_concat : makings.Grows making.scope (makings ++ [making]) :=
  ⟨[making], rfl, by simp⟩

/-- A number finds an earlier making or, just behind them, the new one. -/
theorem getElem?_concat_iff {found : Making} :
    (makings ++ [making])[number]? = some found ↔
      makings[number]? = some found ∨ number = makings.length ∧ making = found := by
  rcases Nat.lt_trichotomy number makings.length with less | rfl | more
  · simp [List.getElem?_append_left less, less.ne]
  · simp
  · have beyond : (makings ++ [making]).length ≤ number := by simpa using Nat.succ_le_of_lt more
    simp [List.getElem?_eq_none beyond, List.getElem?_eq_none more.le, more.ne']

/-- A handle was made before, or it is the new one. -/
theorem made_concat : Made (makings ++ [making]) scope id number ↔
    makings.Made scope id number ∨
      number = makings.length ∧ making.scope = scope ∧ making.id = id := by
  simp only [Made, getElem?_concat_iff]
  constructor
  · rintro ⟨found, there | ⟨same, rfl⟩, here⟩
    · exact .inl ⟨found, there, here⟩
    · exact .inr ⟨same, here⟩
  · rintro (⟨found, there, here⟩ | ⟨same, here⟩)
    · exact ⟨found, .inl there, here⟩
    · exact ⟨making, .inr ⟨same, rfl⟩, here⟩

/-- Nodes that fit can be made, operators that were not made in the scope yet. -/
theorem IsScoped.concat (isScoped : IsScoped arena makings) (fits : Fits arena makings making)
    (new : ∀ operator, arena.operator making.id = .ok operator →
      ∀ number, ¬ makings.Made making.scope making.id number) :
    IsScoped arena (makings ++ [making]) := by
  have grows : makings.Grows making.scope (makings ++ [making]) := grows_concat
  refine ⟨fun found member => grows.fits ?_, fun scope id operator known number other first second => ?_⟩
  · rcases List.mem_append.mp member with member | member
    · exact isScoped.fits found member
    · exact List.mem_singleton.mp member ▸ fits
  · rcases made_concat.mp first with first | ⟨rfl, rfl, rfl⟩
    · rcases made_concat.mp second with second | ⟨rfl, rfl, rfl⟩
      · exact isScoped.once scope id operator known number other first second
      · exact absurd first (new operator known number)
    · rcases made_concat.mp second with second | ⟨rfl, -, -⟩
      · exact absurd second (new operator known other)
      · rfl

/-! The invariant of a scope. -/

/-- The operators that were made in this scope are known, none of which is busy, and something was
made inside of it for operators only that are known or busy. -/
structure Accounts {η : Type} (arena : Arena) (scope : Scope) (busy : Set NodeId)
    (built : Built (Nat × η)) (makings : Makings) : Prop where
  known : ∀ entry ∈ built, entry.1 ∉ busy ∧ makings.Made scope entry.1 entry.2.1
  listed : ∀ id operator number, arena.operator id = .ok operator → makings.Made scope id number →
    ∃ handle, (id, handle) ∈ built
  nested : ∀ id half number, makings.Inside (scope ++ [(id, half)]) number →
    id ∈ busy ∨ ∃ handle, (id, handle) ∈ built

namespace Accounts

variable {η : Type} {busy : Set NodeId} {built : Built (Nat × η)} {handle : Nat × η} {node : Node}
  {half : Half}

/-- It holds where nothing was made yet. -/
theorem fresh (untouched : makings.Untouched scope) :
    Accounts arena scope ∅ ([] : Built (Nat × η)) makings where
  known := nofun
  listed _ _ number _ made := absurd made.inside (untouched number)
  nested _ _ number inside := absurd (inside.outer (List.prefix_append _ _)) (untouched number)

/-- A handle that is known was made for its node in the scope. -/
theorem made (accounts : Accounts arena scope busy built makings)
    (there : built.lookup id = some handle) : makings.Made scope id handle.1 := by
  obtain ⟨before, after, rfl, -⟩ := List.lookup_eq_some_iff.mp there
  exact (accounts.known _ (List.mem_append_right before List.mem_cons_self)).2

/-- What is made inside for an operator that is busy leaves it as it is. -/
theorem lasts (accounts : Accounts arena scope busy built makings) (involved : id ∈ busy)
    (grows : makings.Grows (scope ++ [(id, half)]) later) :
    Accounts arena scope busy built later := by
  refine ⟨fun entry member => ?_, fun another operator number found made => ?_,
    fun another side number inside => ?_⟩
  · exact ⟨(accounts.known entry member).1, grows.made (accounts.known entry member).2⟩
  · obtain ⟨making, there, rfl, rfl⟩ := made
    rcases grows.cases there with before | further
    · exact accounts.listed _ operator number found ⟨making, before, rfl, rfl⟩
    · exact absurd further (Scope.not_inside_of_around List.prefix_rfl)
  · obtain ⟨making, there, within⟩ := inside
    rcases grows.cases there with before | further
    · exact accounts.nested another side number ⟨making, before, within⟩
    · obtain ⟨rfl, -⟩ := Prod.mk.inj (Scope.eq_of_prefixes further within)
      exact .inl involved

/-- What is busy while a node is made, if these are busy above it. -/
def engaged (node : Node) (id : NodeId) (busy : Set NodeId) : Set NodeId :=
  if node.isExpression then busy else insert id busy

/-- A node that holds an operator is no expression. -/
theorem isExpression_eq_false (found : arena.nodes[id.index]? = some node) {operator : Operator}
    (known : arena.operator id = .ok operator) : node.isExpression = false := by
  obtain ⟨same, there, content⟩ := (Arena.operator_iff operator).mp known
  obtain rfl := Option.some.inj (there.symm.trans found)
  rw [Node.isExpression, content]

/-- An operator is busy while it is made. -/
theorem mem_engaged (found : arena.nodes[id.index]? = some node) {operator : Operator}
    (known : arena.operator id = .ok operator) : id ∈ engaged node id busy := by
  rw [engaged, if_neg (by simp [isExpression_eq_false found known])]
  exact Set.mem_insert id busy

/-- A node that is not known is none of those that are. -/
theorem ne_of_lookup_none (new : built.lookup id = none) {entry : NodeId × Nat × η}
    (member : entry ∈ built) : entry.1 ≠ id := by
  rintro rfl
  simpa using List.lookup_eq_none_iff.mp new entry member

/-- A node can become busy while it is not built. -/
theorem begun (accounts : Accounts arena scope busy built makings) (new : built.lookup id = none) :
    Accounts arena scope (engaged node id busy) built makings := by
  unfold engaged
  split
  · exact accounts
  · refine ⟨fun entry member => ⟨?_, (accounts.known entry member).2⟩, accounts.listed,
      fun another half number inside => ?_⟩
    · exact Set.mem_insert_iff.not.mpr
        (not_or.mpr ⟨ne_of_lookup_none new member, (accounts.known entry member).1⟩)
    · exact (accounts.nested another half number inside).imp_left (Set.mem_insert_of_mem id)

/-- Nothing was made yet inside the scopes of a node that is neither built nor busy. -/
theorem untouched (accounts : Accounts arena scope busy built makings) (new : built.lookup id = none)
    (idle : id ∉ busy) : makings.Untouched (scope ++ [(id, half)]) := by
  intro number inside
  rcases accounts.nested id half number inside with involved | ⟨handle, member⟩
  · exact idle involved
  · exact ne_of_lookup_none new member rfl

/-- A node is no longer busy when it was made. -/
theorem concluded {passings : List Passing} (found : arena.nodes[id.index]? = some node)
    (accounts : Accounts arena scope (engaged node id busy) built makings) (idle : id ∉ busy)
    (number : handle.1 = makings.length) :
    Accounts arena scope busy (Converting.keeping node id handle built)
      (makings ++ [⟨scope, id, passings⟩]) := by
  have grows : makings.Grows scope (makings ++ [⟨scope, id, passings⟩]) := grows_concat
  have inside (another : NodeId) (half : Half) (place : Nat)
      (there : Inside (makings ++ [⟨scope, id, passings⟩]) (scope ++ [(another, half)]) place) :
      makings.Inside (scope ++ [(another, half)]) place := by
    obtain ⟨making, there, within⟩ := there
    rcases getElem?_concat_iff.mp there with before | ⟨-, rfl⟩
    · exact ⟨making, before, within⟩
    · exact absurd within (Scope.not_inside_of_around List.prefix_rfl)
  -- An operator is busy no longer and is known from now on. An expression is not remembered.
  unfold engaged at accounts
  unfold Converting.keeping
  cases sort : node.isExpression with
  | true =>
    rw [if_pos sort] at accounts
    refine ⟨fun entry member => ?_, fun another operator place known made => ?_,
      fun another half place there =>
        accounts.nested another half place (inside another half place there)⟩
    · exact ⟨(accounts.known entry member).1, grows.made (accounts.known entry member).2⟩
    · rcases made_concat.mp made with before | ⟨-, -, rfl⟩
      · exact accounts.listed another operator place known before
      · cases sort.symm.trans (isExpression_eq_false found known)
  | false =>
    rw [if_neg (by simp [sort])] at accounts
    refine ⟨List.forall_mem_cons.mpr ⟨⟨idle, ?_⟩, fun entry member => ?_⟩,
      fun another operator place known made => ?_, fun another half place there => ?_⟩
    · exact made_concat.mpr (.inr ⟨number, rfl, rfl⟩)
    · obtain ⟨notBusy, made⟩ := accounts.known entry member
      exact ⟨fun involved => notBusy (Set.mem_insert_of_mem id involved), grows.made made⟩
    · rcases made_concat.mp made with before | ⟨-, -, rfl⟩
      · obtain ⟨handle, member⟩ := accounts.listed another operator place known before
        exact ⟨handle, List.mem_cons_of_mem _ member⟩
      · exact ⟨handle, List.mem_cons_self⟩
    · rcases accounts.nested another half place (inside another half place there) with involved | known
      · rcases Set.mem_insert_iff.mp involved with rfl | involved
        · exact .inr ⟨handle, List.mem_cons_self⟩
        · exact .inl involved
      · obtain ⟨handle, member⟩ := known
        exact .inr ⟨handle, List.mem_cons_of_mem _ member⟩

end Accounts

end Makings

/-! Conversions. -/

namespace Converting

open Makings

variable {ε η : Type} {arena : Arena} {engine : Engine ε η} {resolver : Resolver (StateM ε)}
  {scope inner : Scope} {id : NodeId} {busy : Set NodeId} {node : Node}

/-- More was made in a scope, and all is still as it should be. -/
def Scoping (arena : Arena) (scope : Scope) (state later : ε × Chronicle) : Prop :=
  state.2.makings.Grows scope later.2.makings ∧
    (IsScoped arena state.2.makings → IsScoped arena later.2.makings)

instance : Std.Refl (Scoping arena scope : ε × Chronicle → ε × Chronicle → Prop) where
  refl _ := ⟨.refl, fun still => still⟩

instance : IsTrans (ε × Chronicle) (Scoping arena scope) where
  trans _ _ _ first second := ⟨first.1.trans second.1, second.2 ∘ first.2⟩

/-- What is in order inside a scope is in order inside every scope around it. -/
theorem Scoping.outer {state later : ε × Chronicle} (moved : Scoping arena inner state later)
    (beyond : scope <+: inner) : Scoping arena scope state later :=
  ⟨moved.1.outer beyond, moved.2⟩

/-- Tables can be asked for: nothing is made then. -/
theorem scoping_tables (invariant : Built (Nat × η) → Makings → Prop) :
    AsksTables (Scoping arena scope) (resolver.noting id)
      fun built state => invariant built state.2.makings :=
  fun _ => .outside fun _ _ held => ⟨⟨.refl, fun still => still⟩, fun _ _ => held⟩

/-- A lazy table can be asked for: nothing is made then. -/
theorem scoping_lazily {invariant : Built (Nat × η) → Makings → Prop} (table : LazyTable) :
    AsksLazily (Scoping arena scope) (resolver.noting id)
      (fun built state => invariant built state.2.makings) (fun _ _ => True) table :=
  .outside fun _ _ held => ⟨⟨.refl, fun still => still⟩, fun _ _ => ⟨held, trivial⟩⟩

/-- A node that fits is made, and then its scope is as it should be. -/
theorem scoping_making (found : arena.nodes[id.index]? = some node) (idle : id ∉ busy)
    (arguments : List (EngineArgument (Nat × η))) :
    Takes (Scoping arena scope)
      (outside (engine.noting scope id node.name node.output arguments) :
        Converting (Nat × η) (StateM (ε × Chronicle)) (Nat × η))
      (fun built state => Accounts arena scope (Accounts.engaged node id busy) built state.2.makings ∧
        Fits arena state.2.makings ⟨scope, id, EngineArgument.passingsOf arguments⟩)
      fun handle built state =>
        Accounts arena scope busy (keeping node id handle built) state.2.makings ∧
          state.2.makings.Made scope id handle.1 := by
  refine .outside fun built (state, chronicle) ⟨accounts, fits⟩ =>
    ⟨⟨grows_concat, fun isScoped => ?_⟩, ?_⟩
  · refine isScoped.concat fits fun operator known number made => ?_
    obtain ⟨handle, member⟩ := accounts.listed id operator number known made
    exact (accounts.known _ member).1 (Accounts.mem_engaged found known)
  · intro handle given
    have number : handle.1 = chronicle.makings.length := by
      cases ran : ((engine.create node.name node.output
          (EngineArgument.bareAll arguments)).stopping.run state).1 with
      | error stop => cases (congrArg (Except.map _) ran).symm.trans given
      | ok made => cases (congrArg (Except.map _) ran).symm.trans given; rfl
    exact ⟨accounts.concluded found idle number, made_concat.mpr (.inr ⟨number, rfl, rfl⟩)⟩

/-- A node that is built from nothing or over one relation is made from what was made in its scope.
-/
theorem scoping_inPlace (resolver : Resolver (StateM ε)) (id : NodeId)
    {convert : Scope → NodeId → Converting (Nat × η) (StateM (ε × Chronicle)) (Nat × η)}
    (one : combinesTwo node = false)
    (each : ∀ reference ∈ Operand.referencesOf node.operands, Takes (Scoping arena scope)
      (convert scope reference.2)
      (fun built state => Accounts arena scope busy built state.2.makings)
      fun handle built state => Accounts arena scope busy built state.2.makings ∧
        state.2.makings.Made scope reference.2 handle.1) :
    Takes (Scoping arena scope)
      (operandsAt (resolver.noting id) convert scope id (combinesTwo node) node.operands)
      (fun built state => Accounts arena scope busy built state.2.makings)
      fun arguments built state => Accounts arena scope busy built state.2.makings ∧
        ∀ passing ∈ EngineArgument.passingsOf arguments,
          state.2.makings.Inside scope passing.number := by
  have plain : false = true → ∀ item ∈ node.operands, item.isInput = false := nofun
  rw [one, operandsAt_plain (resolver.noting id) convert scope id plain]
  have gathered : Takes (Scoping arena scope)
      (operands (resolver.noting id) (convert scope) false node.operands)
      (fun built state => Accounts arena scope busy built state.2.makings)
      fun arguments built state => Accounts arena scope busy built state.2.makings ∧
        Gathers (fun child number state => state.2.makings.Made scope child number) (fun _ _ => True)
          (Operand.referencesOf node.operands) (Operand.lazyTablesOf node.operands)
          (EngineArgument.passingsOf arguments) state :=
    takes_operands (fun _ _ _ _ moved made => moved.1.made made) (fun _ _ _ _ held => held)
      (scoping_tables (Accounts arena scope busy)) node.operands (fun table _ => scoping_lazily table)
      fun reference member => ⟨nofun, each reference member⟩
  refine gathered.weaken (fun _ _ held => held) fun arguments built state ⟨accounts, gathers⟩ =>
    ⟨accounts, fun passing member => ?_⟩
  obtain ⟨child, made⟩ := gathers.each passing member
  exact made.inside

/-- What converting a node in a scope takes: the scope is as it should be before and after, and then
the node was made in it. -/
def Scopes (arena : Arena) (scope : Scope) (busy : Set NodeId) (id : NodeId)
    (converting : Converting (Nat × η) (StateM (ε × Chronicle)) (Nat × η)) : Prop :=
  Takes (Scoping arena scope) converting
    (fun built state => Accounts arena scope busy built state.2.makings)
    fun handle built state => Accounts arena scope busy built state.2.makings ∧
      state.2.makings.Made scope id handle.1

/-- Each of two relations is converted in a scope of its own, in which nothing was made before. -/
theorem scoping_half
    {convert : Scope → NodeId → Converting (Nat × η) (StateM (ε × Chronicle)) (Nat × η)}
    {half : Half} {relation : NodeId} (involved : id ∈ busy) {kept : Makings → Prop}
    (lasting : ∀ makings later, Grows (scope ++ [(id, half)]) makings later → kept makings → kept later)
    (each : Scopes arena (scope ++ [(id, half)]) ∅ relation
      (convert (scope ++ [(id, half)]) relation)) :
    Takes (Scoping arena scope) (onItsOwn (convert (scope ++ [(id, half)]) relation))
      (fun built state => (Accounts arena scope busy built state.2.makings ∧ kept state.2.makings) ∧
        state.2.makings.Untouched (scope ++ [(id, half)]))
      fun handle built state => (Accounts arena scope busy built state.2.makings ∧
          kept state.2.makings) ∧
        state.2.makings.Made (scope ++ [(id, half)]) relation handle.1 := by
  have own : Takes (Scoping arena (scope ++ [(id, half)])) (convert (scope ++ [(id, half)]) relation)
      (fun built state => built = [] ∧ state.2.makings.Untouched (scope ++ [(id, half)]))
      fun handle _ state => state.2.makings.Made (scope ++ [(id, half)]) relation handle.1 := by
    refine each.weaken ?_ fun _ _ _ held => held.2
    rintro built state ⟨rfl, untouched⟩
    exact .fresh untouched
  refine .onItsOwn own (fun _ _ moved => moved.outer (List.prefix_append _ _))
    (fun _ _ held => held.2) fun _ _ _ moved held => ?_
  exact ⟨held.1.1.lasts involved moved.1, lasting _ _ moved.1 held.1.2⟩

/-- A node that combines two relations is made from the handles of both. -/
theorem scoping_two
    {convert : Scope → NodeId → Converting (Nat × η) (StateM (ε × Chronicle)) (Nat × η)}
    {left right : NodeId} {rest : List Operand} (none : Operand.referencesOf rest = [])
    (noTables : Operand.lazyTablesOf rest = []) (involved : id ∈ busy)
    (leftly : Scopes arena (scope ++ [(id, .left)]) ∅ left (convert (scope ++ [(id, .left)]) left))
    (rightly : Scopes arena (scope ++ [(id, .right)]) ∅ right
      (convert (scope ++ [(id, .right)]) right)) :
    Takes (Scoping arena scope)
      (operandsAt (resolver.noting id) convert scope id true (.input left :: .input right :: rest))
      (fun built state => Accounts arena scope busy built state.2.makings ∧
        ∀ half, state.2.makings.Untouched (scope ++ [(id, half)]))
      fun arguments built state => ∃ first second : Nat × η,
        EngineArgument.passingsOf arguments = [.owned first.1, .owned second.1] ∧
          Accounts arena scope busy built state.2.makings ∧
          state.2.makings.Made (scope ++ [(id, .left)]) left first.1 ∧
          state.2.makings.Made (scope ++ [(id, .right)]) right second.1 := by
  have second : Takes (Scoping arena scope) (onItsOwn (convert (scope ++ [(id, .right)]) right))
      (fun built state => Accounts arena scope busy built state.2.makings ∧
        ∀ half, state.2.makings.Untouched (scope ++ [(id, half)]))
      fun handle built state => (Accounts arena scope busy built state.2.makings ∧
          state.2.makings.Made (scope ++ [(id, .right)]) right handle.1) ∧
        state.2.makings.Untouched (scope ++ [(id, .left)]) := by
    have lasting (makings later : Makings) (grows : makings.Grows (scope ++ [(id, .right)]) later) :
        makings.Untouched (scope ++ [(id, .left)]) → later.Untouched (scope ++ [(id, .left)]) :=
      grows.untouched (by decide)
    refine (scoping_half involved lasting rightly).weaken ?_ ?_
    · exact fun _ _ ⟨accounts, untouched⟩ => ⟨⟨accounts, untouched .left⟩, untouched .right⟩
    · exact fun _ _ _ ⟨⟨accounts, untouched⟩, made⟩ => ⟨⟨accounts, made⟩, untouched⟩
  refine takes_operandsAt_two (scoping_tables fun built makings =>
    Accounts arena scope busy built makings ∧
      ∀ half, makings.Untouched (scope ++ [(id, half)]))
    none noTables second fun handle => ?_
  refine (scoping_half involved (fun _ _ grows => grows.made) leftly).weaken
    (fun _ _ held => held) ?_
  exact fun _ _ _ ⟨⟨accounts, rightMade⟩, made⟩ => ⟨accounts, made, rightMade⟩

/-- Whatever a node is built from, it can be made then. -/
theorem scoping_operandsAt {limit : Nat} (forward : arena.IsForward)
    (found : arena.nodes[id.index]? = some node) (least : ∀ other ∈ busy, id.index < other.index)
    (each : ∀ scope busy child, (∀ other ∈ busy, child.index < other.index) →
      Scopes arena scope busy child (notingNode engine resolver arena limit scope child)) :
    Takes (Scoping arena scope)
      (operandsAt (resolver.noting id) (notingNode engine resolver arena limit) scope id
        (combinesTwo node) node.operands)
      (fun built state => Accounts arena scope busy built state.2.makings ∧ built.lookup id = none)
      fun arguments built state =>
        Accounts arena scope (Accounts.engaged node id busy) built state.2.makings ∧
          Fits arena state.2.makings ⟨scope, id, EngineArgument.passingsOf arguments⟩ := by
  have idle : id ∉ busy := fun involved => (least id involved).ne rfl
  have earlier (child : NodeId) (refers : arena.Refers id child) :
      ∀ other ∈ Accounts.engaged node id busy, child.index < other.index := by
    intro other involved
    have before := forward id child refers
    unfold Accounts.engaged at involved
    split at involved
    · exact before.trans (least other involved)
    · rcases Set.mem_insert_iff.mp involved with rfl | involved
      · exact before
      · exact before.trans (least other involved)
  -- Below two relations nothing is busy, as each has a scope of its own.
  cases two : combinesTwo node with
  | false =>
    have inPlace := scoping_inPlace resolver id two fun reference member =>
      each scope (Accounts.engaged node id busy) reference.2
        (earlier _ ⟨node, found, reference, member, rfl⟩)
    rw [two] at inPlace
    refine inPlace.weaken (fun _ _ ⟨accounts, new⟩ => accounts.begun new)
      fun _ _ _ ⟨accounts, inside⟩ => ⟨accounts, inside, fun operator known combines => ?_⟩
    obtain ⟨same, there, content⟩ := (Arena.operator_iff operator).mp known
    obtain rfl := Option.some.inj (there.symm.trans found)
    rw [combinesTwo, content] at two
    cases combines.symm.trans two
  | true =>
    obtain ⟨operator, left, right, rest, content, inputs, listed, none, noTables⟩ :=
      node.operands_of_two two
    have known : arena.operator id = .ok operator :=
      (Arena.operator_iff operator).mpr ⟨node, found, content⟩
    have involved : id ∈ Accounts.engaged node id busy := Accounts.mem_engaged found known
    rw [listed]
    refine (scoping_two none noTables involved
      (each _ ∅ left (by simp)) (each _ ∅ right (by simp))).weaken ?_ ?_
    · exact fun _ _ ⟨accounts, new⟩ => ⟨accounts.begun new, fun _ => accounts.untouched new idle⟩
    · rintro arguments built state ⟨first, second, passed, accounts, leftMade, rightMade⟩
      refine ⟨accounts, ?_, fun another there _ => ?_⟩
      · rw [passed]
        exact List.forall_mem_cons.mpr ⟨leftMade.inside.outer (List.prefix_append _ _),
          List.forall_mem_singleton.mpr (rightMade.inside.outer (List.prefix_append _ _))⟩
      · obtain rfl := Except.ok.inj (there.symm.trans known)
        exact ⟨left, right, first.1, second.1, inputs, passed, leftMade, rightMade⟩

/-- Converting a node in a scope, when all busy operators are later ones. -/
theorem scopes_nodeAt (forward : arena.IsForward) (limit : Nat) (scope : Scope) (busy : Set NodeId)
    (id : NodeId) (least : ∀ other ∈ busy, id.index < other.index) :
    Scopes arena scope busy id (notingNode engine resolver arena limit scope id) := by
  induction limit generalizing scope busy id with
  | zero => exact .throw _
  | succ limit inductionHypothesis =>
    refine takes_nodeAt (fun handle built state accounts there => ⟨accounts, accounts.made there⟩) ?_
    cases found : arena.nodes[id.index]? with
    | none => exact takes_constructAt_missing found
    | some node =>
      exact takes_constructAt found (scoping_operandsAt forward found least inductionHypothesis)
        (scoping_making found fun involved => (least id involved).ne rfl)

end Converting

/-- When a plan was converted, whether or not it could be, then all was made in its scope. -/
theorem Arena.chronicled_isScoped {ε η : Type} {arena : Arena} (forward : arena.IsForward)
    (engine : Engine ε η) (resolver : Resolver (StateM ε)) (root : NodeId) (state : ε) {last : ε}
    {result : Except Stop (Nat × η)} {chronicle : Chronicle}
    (ran : (arena.chronicled engine resolver root).run (state, {}) = (result, last, chronicle)) :
    Makings.IsScoped arena chronicle.makings ∧
      ∀ handle, result = .ok handle → chronicle.makings.Made [] root handle.1 := by
  have nowhere (scope : Scope) : Makings.Untouched [] scope := by
    rintro number ⟨making, there, -⟩
    cases there
  have scopes : Converting.Scopes arena [] ∅ root
      (Converting.notingNode engine resolver arena arena.walkLimit [] root) :=
    Converting.scopes_nodeAt forward arena.walkLimit [] ∅ root (by simp)
  obtain ⟨moved, after⟩ := scopes.chronicled (.fresh (nowhere [])) ran
  refine ⟨moved.2 ⟨nofun, fun _ _ _ _ _ _ made _ => ?_⟩, fun handle given => ?_⟩
  · exact absurd made.inside (nowhere _ _)
  · obtain ⟨built, -, made⟩ := after handle given
    exact made

namespace PlanCall

/-- Converting a plan gives what unfolding it gives, a handle or the first failure. Within a scope
no operator is made twice. Each relation of a join or of a set operation leads to nothing of the
other one, and to nothing that was made outside of its own scope. -/
theorem convert_unfolds {ε η : Type} (calls : List PlanCall) {answers : FixedAnswers η}
    {engine : Engine ε η} {resolver : Resolver (StateM ε)} (holds : answers.Holds engine resolver)
    (root : NodeId) (state : ε) :
    (((grown calls).convert engine resolver root).run state).1 = answers.unfold (grown calls) root ∧
      ∃ result last chronicle,
        ((grown calls).chronicled engine resolver root).run (state, {}) =
            (result, last, chronicle) ∧
          ((grown calls).convert engine resolver root).run state = (result.map Prod.snd, last) ∧
          (∀ handle, result = .ok handle → chronicle.makings.Made [] root handle.1) ∧
          (∀ scope id operator, (grown calls).operator id = .ok operator → ∀ number other,
            chronicle.makings.Made scope id number → chronicle.makings.Made scope id other →
              number = other) ∧
          ∀ making ∈ chronicle.makings, ∀ operator,
            (grown calls).operator making.id = .ok operator → operator.combinesTwo = true →
              ∃ left right first second, operator.inputs = [left, right] ∧
                making.passings = [.owned first, .owned second] ∧
                chronicle.makings.Made (making.scope ++ [(making.id, .left)]) left first ∧
                chronicle.makings.Made (making.scope ++ [(making.id, .right)]) right second ∧
                chronicle.makings.OnItsOwn making.scope making.id .left first ∧
                chronicle.makings.OnItsOwn making.scope making.id .right second := by
  have forward := (grown_built calls).forward
  obtain ⟨result, last, chronicle, ran, plain⟩ :=
    (grown calls).run_chronicled engine resolver root state
  obtain ⟨isScoped, made⟩ := Arena.chronicled_isScoped forward engine resolver root state ran
  refine ⟨Arena.convert_eq_unfold holds forward root state, result, last, chronicle, ran, plain, made,
    isScoped.once, fun making member operator known combines => ?_⟩
  obtain ⟨left, right, first, second, inputs, passed, leftMade, rightMade⟩ :=
    (isScoped.fits making member).apart operator known combines
  exact ⟨left, right, first, second, inputs, passed, leftMade, rightMade,
    isScoped.onItsOwn leftMade.inside, isScoped.onItsOwn rightMade.inside⟩

/-- The handle of a node that counts itself and what it is made from. -/
def counted : List (EngineArgument Nat) → Nat
  | [] => 1
  | .owned handle :: rest | .borrowed handle :: rest => handle + counted rest
  | _ :: rest => counted rest

/-- An engine that counts nodes. -/
def counting : Engine Unit Nat where
  create _ _ arguments := return counted arguments
  optimize handle := return handle
  execute _ _ schema := return Batch.empty schema
  size handle _ := handle
  rows _ _ := none

/-- The beginning of a table, joined with itself. -/
def pairing : List PlanCall :=
  let number (name : String) : Field := ⟨name, .int64, false⟩
  [.tableScan ⟨⟨[number "a"]⟩, [[.int64 1, .int64 2]], 2⟩, .limit ⟨0⟩ 1,
    .join (.ofSchema ⟨[number "a", number "b"]⟩) ⟨1⟩ ⟨1⟩ .cross []]

/-- The beginning of the table is built once for each side. -/
theorem pairing_convert_unfolds : ∃ answers : FixedAnswers Nat,
    answers.Holds counting Arena.atHand ∧ answers.unfold (grown pairing) ⟨2⟩ = .ok 5 ∧
      ∃ number last chronicle left right,
        ((grown pairing).chronicled counting Arena.atHand ⟨2⟩).run ((), {}) =
            (.ok (number, 5), last, chronicle) ∧
          chronicle.makings[number]? = some ⟨[], ⟨2⟩, [.owned left, .owned right]⟩ ∧
          chronicle.makings.OnItsOwn [] ⟨2⟩ .left left ∧
          chronicle.makings.OnItsOwn [] ⟨2⟩ .right right := by
  let answers : FixedAnswers Nat :=
    ⟨.ok, fun _ => .error (.failed Resolver.notScattered), fun _ _ arguments => .ok (counted arguments)⟩
  have holds : answers.Holds counting Arena.atHand :=
    ⟨fun _ _ => rfl, fun _ _ => rfl, fun _ _ _ _ => rfl⟩
  have value : answers.unfold (grown pairing) ⟨2⟩ = .ok 5 := rfl
  obtain ⟨unfolds, result, last, chronicle, ran, plain, made, -, apart⟩ :=
    convert_unfolds pairing holds ⟨2⟩ ()
  rw [plain, value] at unfolds
  obtain ⟨⟨number, size⟩, rfl, rfl⟩ : ∃ handle, result = .ok handle ∧ handle.2 = 5 := by
    cases result with
    | error stop => cases unfolds
    | ok handle => exact ⟨handle, rfl, Except.ok.inj unfolds⟩
  obtain ⟨⟨scope, id, passings⟩, there, rfl, rfl⟩ := made _ rfl
  obtain ⟨_, _, left, right, -, passed, -, -, leftOwn, rightOwn⟩ :=
    apart _ (List.mem_of_getElem? there) _ rfl rfl
  exact ⟨answers, holds, value, number, last, chronicle, left, right, ran, passed ▸ there, leftOwn,
    rightOwn⟩

end PlanCall

end Rankwise
