import Rankwise.Proofs.BuiltPlans
import Rankwise.Proofs.EngineCalls
import Rankwise.Proofs.Grounding

/-!
# Following a conversion

`Converting.Tracks` compares converting for the strict engine with converting for the engine itself:
both do the same, the ledger stays in order, and states that are described beforehand lead to states
that are described as well. There is a rule for each way to compose conversions, for operands that
refer to expressions only (`tracks_operands`), for building a node (`tracks_construct`) and for
nodes that may be built already (`tracks_nodeWithin`).
-/

namespace Rankwise

namespace Converting

variable {ε η α β α' β' : Type}

/-- What is built already, without the numbers of the handles. -/
def bareBuilt (built : Built (Nat × η)) : Built η := built.map fun entry => (entry.1, entry.2.2)

/-- Without the numbers the same handles are found. -/
theorem lookup_bareBuilt (built : Built (Nat × η)) (id : NodeId) :
    (bareBuilt built).lookup id = (built.lookup id).map Prod.snd := by
  induction built with
  | nil => rfl
  | cons entry rest inductionHypothesis =>
    obtain ⟨other, handle⟩ := entry
    rw [bareBuilt, List.map_cons, List.lookup_cons, List.lookup_cons]
    cases id == other with
    | true => rfl
    | false => exact inductionHypothesis

/-- A conversion on its own starts from nothing and leaves what was built as it was. -/
theorem run_onItsOwn (converting : Converting η (StateM ε) α) (built : Built η) (state : ε) :
    ((onItsOwn converting).run.run built).run state =
      ((((converting.run.run []).run state).1.1, built), ((converting.run.run []).run state).2) := rfl

/-- A step outside leaves what was built as it was. -/
theorem run_outside (action : StateM ε (Except Stop α)) (built : Built η) (state : ε) :
    ((outside action : Converting η (StateM ε) α).run.run built).run state =
      (((action.run state).1, built), (action.run state).2) := rfl

/-- Converting for the strict engine does the same as converting for the engine itself, keeps the
ledger in order and, if it succeeds, takes what is built and the ledger from one of these states to
one of those. -/
def Tracks (before : Built (Nat × η) → Ledger → Prop)
    (strict : Converting (Nat × η) (StateM (ε × Ledger)) α) (plain : Converting η (StateM ε) β)
    (bare : α → β) (after : α → Built (Nat × η) → Ledger → Prop) : Prop :=
  ∀ built state ledger, before built ledger → ledger.Orderly →
    ∃ result later last further,
      (strict.run.run built).run (state, ledger) = ((result, later), last, further) ∧
        (plain.run.run (bareBuilt built)).run state =
          ((result.map bare, bareBuilt later), last) ∧
        further.Orderly ∧ ∀ value, result = .ok value → after value later further

namespace Tracks

variable {before : Built (Nat × η) → Ledger → Prop}
  {strict : Converting (Nat × η) (StateM (ε × Ledger)) α} {plain : Converting η (StateM ε) β}
  {bare : α → β} {after : α → Built (Nat × η) → Ledger → Prop}

/-- To give a value is tracked. -/
theorem pure {value : α} {plainValue : β} (same : bare value = plainValue)
    (implies : ∀ built ledger, before built ledger → after value built ledger) :
    Tracks before (Pure.pure value : Converting (Nat × η) (StateM (ε × Ledger)) α)
      (Pure.pure plainValue : Converting η (StateM ε) β) bare after := by
  subst same
  intro built state ledger held orderly
  refine ⟨.ok value, built, state, ledger, rfl, rfl, orderly, fun _ same => ?_⟩
  cases same
  exact implies built ledger held

/-- Two conversions are tracked one after the other. -/
theorem bind {next : α → Converting (Nat × η) (StateM (ε × Ledger)) α'}
    {nextPlain : β → Converting η (StateM ε) β'} {bareLast : α' → β'}
    {last : α' → Built (Nat × η) → Ledger → Prop} (begun : Tracks before strict plain bare after)
    (continued : ∀ value, Tracks (after value) (next value) (nextPlain (bare value)) bareLast last) :
    Tracks before (strict >>= next) (plain >>= nextPlain) bareLast last := by
  intro built state ledger held orderly
  obtain ⟨result, middle, between, entered, ran, ranPlain, orderlyThen, heldThen⟩ :=
    begun built state ledger held orderly
  rw [run_bind, run_bind, ran, ranPlain]
  cases result with
  | error stop => exact ⟨.error stop, middle, between, entered, rfl, rfl, orderlyThen, nofun⟩
  | ok value => exact continued value middle between entered (heldThen value rfl) orderlyThen

/-- More may be asked beforehand and less be promised afterwards. -/
theorem weaken {weak : Built (Nat × η) → Ledger → Prop}
    {strong : α → Built (Nat × η) → Ledger → Prop}
    (tracks : Tracks weak strict plain bare strong)
    (enough : ∀ built ledger, before built ledger → weak built ledger)
    (implies : ∀ value built ledger, strong value built ledger → after value built ledger) :
    Tracks before strict plain bare after := by
  intro built state ledger held orderly
  obtain ⟨result, later, last, further, ran, ranPlain, orderlyThen, heldThen⟩ :=
    tracks built state ledger (enough built ledger held) orderly
  exact ⟨result, later, last, further, ran, ranPlain, orderlyThen,
    fun value same => implies value later further (heldThen value same)⟩

/-- What is done beside the conversion changes neither what is built nor the ledger. -/
theorem beside (held : Built (Nat × η) → Ledger → Prop) (action : StateM ε (Except Stop α)) :
    Tracks held (outside (Ledger.beside action)) (outside action) id fun _ => held := by
  intro built state ledger here orderly
  refine ⟨(action.run state).1, built, (action.run state).2, ledger, rfl, ?_, orderly,
    fun _ _ => here⟩
  have same : (action.run state).1.map id = (action.run state).1 := by
    cases (action.run state).1 <;> rfl
  rw [same]
  rfl

/-- Starting with nothing built. -/
theorem onItsOwn {held : Ledger → Prop} {goal : α → Ledger → Prop}
    (tracks : Tracks (fun built ledger => built = [] ∧ held ledger) strict plain bare
      fun value _ ledger => goal value ledger) :
    Tracks (fun built ledger => built = [] ∧ held ledger) (Converting.onItsOwn strict)
      (Converting.onItsOwn plain) bare fun value built ledger => built = [] ∧ goal value ledger := by
  rintro built state ledger ⟨rfl, here⟩ orderly
  obtain ⟨result, later, last, further, ran, ranPlain, orderlyThen, heldThen⟩ :=
    tracks [] state ledger ⟨rfl, here⟩ orderly
  refine ⟨result, [], last, further, ?_, ?_, orderlyThen, fun value same => ⟨rfl, heldThen value same⟩⟩
  · rw [run_onItsOwn, ran]
  · have none : bareBuilt ([] : Built (Nat × η)) = [] := rfl
    rw [none] at ranPlain
    rw [run_onItsOwn, none, ranPlain]

/-- A call in which the handles that are passed can be passed. -/
theorem create {held : Built (Nat × η) → Ledger → Prop} (engine : Engine ε η) (name : String)
    (output : OutputSchema) (arguments : List (EngineArgument (Nat × η))) :
    Tracks
      (fun built ledger => ledger.Fits (EngineArgument.passingsOf arguments) ∧ held built ledger)
      (outside (engine.strict.create name output arguments).stopping)
      (outside (engine.create name output (EngineArgument.bareAll arguments)).stopping) Prod.snd
      fun handle built ledger => ∃ earlier : Ledger, earlier.Orderly ∧
        earlier.Fits (EngineArgument.passingsOf arguments) ∧ held built earlier ∧
        handle.1 = earlier.length ∧ ledger = earlier ++ [EngineArgument.passingsOf arguments] := by
  rintro built state ledger ⟨fits, here⟩ orderly
  let passings := EngineArgument.passingsOf arguments
  let ran := (engine.create name output (EngineArgument.bareAll arguments)).run.run state
  have accepted : (engine.strict.create name output arguments).run.run (state, ledger) =
      (ran.1.map (ledger.length, ·), ran.2, ledger ++ [passings]) :=
    if_pos (c := Passing.accepts ledger.taken passings = true) fits.accepts
  refine ⟨(ran.1.map (ledger.length, ·)).mapError Stop.failed, built, ran.2, ledger ++ [passings],
    ?_, ?_, orderly.enter fits, ?_⟩
  · rw [run_outside]
    show ((((engine.strict.create name output arguments).run.run (state, ledger)).1.mapError
      Stop.failed, built), ((engine.strict.create name output arguments).run.run
        (state, ledger)).2) = _
    rw [accepted]
  · rw [run_outside]
    show ((ran.1.mapError Stop.failed, _), ran.2) = _
    cases ran.1 <;> rfl
  · intro handle same
    refine ⟨ledger, orderly, fits, here, ?_, rfl⟩
    cases result : ran.1 with
    | error failure =>
      rw [result] at same
      cases same
    | ok given =>
      rw [result] at same
      cases same
      rfl

end Tracks

/-- The handles that are passed with some arguments go over all of them, are none of the others and
are different from each other. Whatever holds now takes them into account. -/
def Collects (held : Finset Nat → Built (Nat × η) → Ledger → Prop) (others : Finset Nat)
    (count : Nat) (passings : List Passing) (built : Built (Nat × η)) (ledger : Ledger) : Prop :=
  ∃ numbers : List Nat, passings = numbers.map .owned ∧ numbers.length = count ∧ numbers.Nodup ∧
    (∀ number ∈ numbers, number ∉ others) ∧ held (others ∪ numbers.toFinset) built ledger

namespace Collects

variable {held : Finset Nat → Built (Nat × η) → Ledger → Prop} {others : Finset Nat}
  {built : Built (Nat × η)} {ledger : Ledger}

/-- Without arguments no handle is collected. -/
theorem none (here : held others built ledger) : Collects held others 0 [] built ledger := by
  refine ⟨[], rfl, rfl, List.nodup_nil, nofun, ?_⟩
  rwa [List.toFinset_nil, Finset.union_empty]

/-- A single argument is collected as a handle that is none of the others. -/
theorem one {number : Nat} (new : number ∉ others)
    (here : held (insert number others) built ledger) :
    Collects held others 1 [.owned number] built ledger := by
  refine ⟨[number], rfl, rfl, List.nodup_singleton number, ?_, ?_⟩
  · intro other member
    exact List.mem_singleton.mp member ▸ new
  · rwa [List.toFinset_cons, List.toFinset_nil, insert_empty_eq, Finset.union_comm,
      ← Finset.insert_eq]

/-- Handles of further arguments are collected in front, apart from those that are there. -/
theorem append {first second : List Passing} {numbers : List Nat} {count : Nat}
    (passed : second = numbers.map .owned) (unlike : numbers.Nodup)
    (new : ∀ number ∈ numbers, number ∉ others)
    (further : Collects held (others ∪ numbers.toFinset) count first built ledger) :
    Collects held others (count + numbers.length) (first ++ second) built ledger := by
  obtain ⟨numbersToo, rfl, rfl, unlikeToo, newToo, here⟩ := further
  simp only [Finset.mem_union, List.mem_toFinset, not_or] at newToo
  refine ⟨numbersToo ++ numbers, by rw [passed, List.map_append], List.length_append,
    List.nodup_append.mpr ⟨unlikeToo, unlike, ?_⟩, ?_, ?_⟩
  · rintro number member other memberToo rfl
    exact (newToo number member).2 memberToo
  · intro number member
    rcases List.mem_append.mp member with now | before
    · exact (newToo number now).1
    · exact new number before
  · have all : others ∪ (numbersToo ++ numbers).toFinset =
        others ∪ numbers.toFinset ∪ numbersToo.toFinset := by
      rw [List.toFinset_append, Finset.union_comm numbersToo.toFinset, Finset.union_assoc]
    rwa [all]

end Collects

section Operands

variable (held : Finset Nat → Built (Nat × η) → Ledger → Prop) (resolver : Resolver (StateM ε))
  (convert : NodeId → Converting (Nat × η) (StateM (ε × Ledger)) (Nat × η))
  (convertPlain : NodeId → Converting η (StateM ε) η) (combinesTwo : Bool)

/-- Converting an expression gives a new handle, which whatever holds takes into account. -/
def Opens (held : Finset Nat → Built (Nat × η) → Ledger → Prop)
    (converting : Converting (Nat × η) (StateM (ε × Ledger)) (Nat × η))
    (plain : Converting η (StateM ε) η) : Prop :=
  ∀ others, Tracks (held others) converting plain Prod.snd fun handle built ledger =>
    handle.1 ∉ others ∧ held (insert handle.1 others) built ledger

mutual

/-- An operand that refers to expressions only collects their handles. -/
theorem tracks_operand (found : Operand)
    (each : ∀ reference ∈ found.references, reference.1 = .expression ∧
      Opens held (convert reference.2) (convertPlain reference.2)) (others : Finset Nat) :
    Tracks (held others) (operand resolver.beside convert combinesTwo found)
      (operand resolver convertPlain combinesTwo found) EngineArgument.bare
      fun argument => Collects held others found.references.length argument.passings := by
  cases found with
  | input id => exact nomatch (each _ (List.mem_singleton_self _)).1
  | source id => exact nomatch (each _ (List.mem_singleton_self _)).1
  | expression id =>
    rw [operand, operand]
    exact .bind ((each _ (List.mem_singleton_self _)).2 others) fun handle =>
      .pure rfl fun _ _ here => .one here.1 here.2
  | list items =>
    rw [operand, operand]
    exact .bind (tracks_operands items each others) fun handles => .pure rfl fun _ _ here => here
  | table batch =>
    rw [operand, operand]
    exact .bind (.beside (held others) _) fun batch => .pure rfl fun _ _ here => .none here
  | lazyTable table =>
    rw [operand, operand]
    exact .bind (.beside (held others) _) fun batch => .pure rfl fun _ _ here => .none here
  | scalar | text | index | indices | boolean | options | absent =>
    rw [operand, operand]
    exact .pure rfl fun _ _ here => .none here

/-- So are several operands, with as many handles as they name nodes. -/
theorem tracks_operands (items : List Operand)
    (each : ∀ reference ∈ Operand.referencesOf items, reference.1 = .expression ∧
      Opens held (convert reference.2) (convertPlain reference.2)) (others : Finset Nat) :
    Tracks (held others) (operands resolver.beside convert combinesTwo items)
      (operands resolver convertPlain combinesTwo items) EngineArgument.bareAll
      fun arguments => Collects held others (Operand.referencesOf items).length
        (EngineArgument.passingsOf arguments) := by
  cases items with
  | nil => exact .pure rfl fun _ _ here => .none here
  | cons first rest =>
    have last := tracks_operands rest (fun reference member =>
      each reference (List.mem_append_right _ member)) others
    have before := tracks_operand first fun reference member =>
      each reference (List.mem_append_left _ member)
    rw [operands, operands]
    refine .bind last fun restArguments => ?_
    rintro built state ledger ⟨numbers, passed, count, unlike, new, here⟩ orderly
    refine Tracks.bind (before (others ∪ numbers.toFinset)) (fun argument => ?_) built state ledger
      here orderly
    refine .pure rfl fun _ _ further => ?_
    rw [Operand.referencesOf_cons, List.length_append, ← count]
    exact .append passed unlike new further

end

end Operands

/-- To stop is tracked. -/
theorem Tracks.throw {bare : α → β} {before : Built (Nat × η) → Ledger → Prop}
    {after : α → Built (Nat × η) → Ledger → Prop} (stop : Stop) :
    Tracks before (MonadExcept.throw stop : Converting (Nat × η) (StateM (ε × Ledger)) α)
      (MonadExcept.throw stop : Converting η (StateM ε) β) bare after := by
  intro built state ledger _ orderly
  exact ⟨.error stop, built, state, ledger, rfl, rfl, orderly, nofun⟩

section Nodes

variable (engine : Engine ε η) (resolver : Resolver (StateM ε)) {arena : Arena} {id : NodeId}
  {before : Built (Nat × η) → Ledger → Prop}

/-- Building a node with the strict engine. -/
abbrev strictCreate (name : String) (output : OutputSchema)
    (arguments : List (EngineArgument (Nat × η))) : StateM (ε × Ledger) (Except Stop (Nat × η)) :=
  (engine.strict.create name output arguments).stopping

/-- Building a node with the engine. -/
abbrev plainCreate (name : String) (output : OutputSchema) (arguments : List (EngineArgument η)) :
    StateM ε (Except Stop η) :=
  (engine.create name output arguments).stopping

/-- A node is built with handles that can be passed, and an operator is then known to be built. -/
theorem tracks_construct
    {convert : NodeId → Converting (Nat × η) (StateM (ε × Ledger)) (Nat × η)}
    {convertPlain : NodeId → Converting η (StateM ε) η} {node : Node}
    (found : arena.nodes[id.index]? = some node)
    (between : List Passing → Built (Nat × η) → Ledger → Prop)
    (collects : Tracks before (operands resolver.beside convert (combinesTwo node) node.operands)
      (operands resolver convertPlain (combinesTwo node) node.operands) EngineArgument.bareAll
      fun arguments built ledger => ledger.Fits (EngineArgument.passingsOf arguments) ∧
        between (EngineArgument.passingsOf arguments) built ledger) :
    Tracks before (construct arena resolver.beside (strictCreate engine) convert id)
      (construct arena resolver (plainCreate engine) convertPlain id) Prod.snd
      fun handle built ledger => ∃ (earlier : Ledger) (passings : List Passing)
        (builtBefore : Built (Nat × η)), between passings builtBefore earlier ∧
          handle.1 = earlier.length ∧
          ledger.opened = insert earlier.length
            (earlier.opened \ (passings.filterMap Passing.taken?).toFinset) ∧
          built = if node.isExpression then builtBefore else (id, handle) :: builtBefore := by
  have here : arena.node id = .ok node := by rw [Arena.node, found]
  unfold construct
  rw [here, Except.mapError, build_node, build_node]
  refine .bind collects fun arguments => ?_
  refine .bind (.create engine node.name node.output arguments) fun handle => ?_
  cases sort : node.isExpression with
  | true =>
    refine .pure rfl ?_
    rintro built ledger ⟨earlier, orderly, fits, held, number, rfl⟩
    exact ⟨earlier, _, built, held, number, orderly.opened_enter fits, rfl⟩
  | false =>
    rintro built state ledger ⟨earlier, orderly, fits, held, number, rfl⟩ orderlyThen
    refine ⟨.ok handle, (id, handle) :: built, state, _, rfl, rfl, orderlyThen, fun value same => ?_⟩
    cases same
    exact ⟨earlier, _, built, held, number, orderly.opened_enter fits, rfl⟩

/-- A node that is built already is not built again. -/
theorem tracks_nodeWithin {limit : Nat} {after : Nat × η → Built (Nat × η) → Ledger → Prop}
    (known : ∀ handle built ledger, before built ledger → built.lookup id = some handle →
      after handle built ledger)
    (new : Tracks (fun built ledger => before built ledger ∧ built.lookup id = none)
      (construct arena resolver.beside (strictCreate engine)
        (nodeWithin arena resolver.beside (strictCreate engine) limit) id)
      (construct arena resolver (plainCreate engine)
        (nodeWithin arena resolver (plainCreate engine) limit) id) Prod.snd after) :
    Tracks before (nodeWithin arena resolver.beside (strictCreate engine) (limit + 1) id)
      (nodeWithin arena resolver (plainCreate engine) (limit + 1) id) Prod.snd after := by
  intro built state ledger held orderly
  rw [run_nodeWithin, run_nodeWithin, lookup_bareBuilt]
  cases there : built.lookup id with
  | some handle =>
    refine ⟨.ok handle, built, state, ledger, rfl, rfl, orderly, fun value same => ?_⟩
    cases same
    exact known handle built ledger held there
  | none => exact new built state ledger ⟨held, there⟩ orderly

end Nodes

end Converting

end Rankwise
