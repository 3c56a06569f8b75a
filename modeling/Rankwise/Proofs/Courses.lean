import Rankwise.Proofs.Chronicles

/-!
# The course of a conversion

`Converting.Takes` says where converting takes what is built already and the state beside it:
however it ends, the state has moved in a certain way, and if it succeeds then something holds of
its value, of what is built and of the state. There is a rule for each way to compose conversions.
The rule for operands (`takes_operands`) gathers a fact for each handle that is passed and for each
table on the workers that is asked for; such facts have to outlast all further moves.
-/

namespace Rankwise

namespace Operand

mutual

/-- The tables on the workers that an operand consists of. -/
def lazyTables : Operand → List LazyTable
  | lazyTable found => [found]
  | list items => lazyTablesOf items
  | _ => []

/-- The tables on the workers that some operands consist of. -/
def lazyTablesOf : List Operand → List LazyTable
  | [] => []
  | item :: rest => lazyTables item ++ lazyTablesOf rest

end

/-- Operands of which none names a table on the workers name none. -/
theorem lazyTablesOf_eq_nil {items : List Operand} (none : ∀ item ∈ items, item.lazyTables = []) :
    lazyTablesOf items = [] := by
  induction items with
  | nil => rfl
  | cons item rest inductionHypothesis =>
    rw [List.forall_mem_cons] at none
    rw [lazyTablesOf, none.1, inductionHypothesis none.2]
    rfl

/-- What refers to nothing takes over no relation. -/
theorem isInput_eq_false {items : List Operand} (none : referencesOf items = []) :
    ∀ item ∈ items, item.isInput = false := by
  induction items with
  | nil => exact nofun
  | cons item rest inductionHypothesis =>
    rw [referencesOf_cons, List.append_eq_nil_iff] at none
    refine List.forall_mem_cons.mpr ⟨?_, inductionHypothesis none.2⟩
    cases item with
    | input => cases none.1
    | _ => rfl

/-- Expressions name no tables on the workers. -/
@[simp] theorem lazyTables_expressions (ids : List NodeId) : (expressions ids).lazyTables = [] :=
  lazyTablesOf_eq_nil (by simp [lazyTables])

end Operand

/-- Only scans of tables on the workers are built from such tables. -/
theorem Node.lazyTables_operands (node : Node) :
    Operand.lazyTablesOf node.operands = (Arena.scanned? node.content).toList := by
  have scalars (values : List Scalar) : Operand.lazyTablesOf (values.map Operand.scalar) = [] :=
    Operand.lazyTablesOf_eq_nil (by simp [Operand.lazyTables])
  have conditions (listed : List JoinCondition) :
      Operand.lazyTablesOf (listed.map JoinCondition.operand) = [] :=
    Operand.lazyTablesOf_eq_nil (by simp [JoinCondition.operand, Operand.lazyTables,
      Operand.lazyTablesOf])
  have keys (listed : List SortKey) : Operand.lazyTablesOf (listed.map SortKey.operand) = [] :=
    Operand.lazyTablesOf_eq_nil (by simp [SortKey.operand, Operand.lazyTables, Operand.lazyTablesOf])
  rw [operands]
  cases node.content with
  | expression expression =>
    cases expression with
    | binary left right =>
      cases left <;> cases right <;>
        simp [Expression.operands, Operand.lazyTablesOf, Operand.lazyTables, Operand.ofSide,
          Arena.scanned?]
    | _ =>
      simp [Expression.operands, Operand.lazyTablesOf, Operand.lazyTables, Arena.scanned?, scalars]
  | operator operator =>
    cases operator with
    | catalogScan scan =>
      cases filter : scan.rowFilter <;> cases snapshot : scan.snapshot <;>
        simp [Operator.operands, Operand.lazyTablesOf, Operand.lazyTables, Operand.optionalText,
          Arena.scanned?, filter, snapshot]
    | vectorSink source bucket index region =>
      cases region <;> simp [Operator.operands, Operand.lazyTablesOf, Operand.lazyTables,
        Operand.optionalText, Arena.scanned?]
    | _ =>
      simp [Operator.operands, Operand.lazyTablesOf, Operand.lazyTables, Arena.scanned?, conditions,
        keys]

/-- An operator that combines two relations scans no table. -/
theorem Operator.scanned?_eq_none {operator : Operator} (combines : operator.combinesTwo = true) :
    Arena.scanned? (.operator operator) = none := by
  cases operator with
  | partitionScan => cases combines
  | _ => rfl

/-- What a node is built from that combines two relations. -/
theorem Node.operands_of_two {node : Node} (two : Converting.combinesTwo node = true) :
    ∃ operator left right rest, node.content = .operator operator ∧
      operator.inputs = [left, right] ∧ node.operands = .input left :: .input right :: rest ∧
      Operand.referencesOf rest = [] ∧ Operand.lazyTablesOf rest = [] := by
  have tables := node.lazyTables_operands
  rw [operands] at tables ⊢
  unfold Converting.combinesTwo at two
  cases content : node.content with
  | expression => simp [content] at two
  | operator operator =>
    rw [content] at two tables
    obtain ⟨left, right, rest, inputs, listed, none⟩ : ∃ left right rest,
        operator.inputs = [left, right] ∧ operator.operands = .input left :: .input right :: rest ∧
          Operand.referencesOf rest = [] := by
      simpa [two] using operator.operands_cases
    rw [Operator.scanned?_eq_none two] at tables
    dsimp only at tables
    rw [listed] at tables
    exact ⟨operator, left, right, rest, rfl, inputs, listed, none, tables⟩

namespace Converting

variable {σ η α β : Type} {moves : σ → σ → Prop}

/-- However converting ends, it moves the state like this, if this holds beforehand. If it succeeds,
then this holds of its value, of what is built and of the state. -/
def Takes (moves : σ → σ → Prop) (converting : Converting η (StateM σ) α)
    (before : Built η → σ → Prop) (after : α → Built η → σ → Prop) : Prop :=
  ∀ built state, before built state →
    moves state ((converting.run.run built).run state).2 ∧
      ∀ value, ((converting.run.run built).run state).1.1 = .ok value →
        after value ((converting.run.run built).run state).1.2
          ((converting.run.run built).run state).2

namespace Takes

variable {converting : Converting η (StateM σ) α} {before : Built η → σ → Prop}
  {after : α → Built η → σ → Prop}

/-- To give a value takes no step. -/
theorem pure [Std.Refl moves] {value : α}
    (implies : ∀ built state, before built state → after value built state) :
    Takes moves (Pure.pure value : Converting η (StateM σ) α) before after := by
  intro built state held
  refine ⟨Std.Refl.refl state, fun other same => ?_⟩
  cases same
  exact implies built state held

/-- To fail takes no step. -/
theorem throw [Std.Refl moves] (stop : Stop) :
    Takes moves (MonadExcept.throw stop : Converting η (StateM σ) α) before after :=
  fun _ state _ => ⟨Std.Refl.refl state, nofun⟩

/-- What two conversions take, they take one after the other. -/
theorem bind [IsTrans σ moves] {next : α → Converting η (StateM σ) β}
    {last : β → Built η → σ → Prop} (begun : Takes moves converting before after)
    (continued : ∀ value, Takes moves (next value) (after value) last) :
    Takes moves (converting >>= next) before last := by
  intro built state held
  obtain ⟨moved, heldThen⟩ := begun built state held
  rw [run_bind]
  generalize (converting.run.run built).run state = ran at moved heldThen
  obtain ⟨⟨result, later⟩, between⟩ := ran
  cases result with
  | error stop => exact ⟨moved, nofun⟩
  | ok value =>
    obtain ⟨movedThen, heldLast⟩ := continued value later between (heldThen value rfl)
    exact ⟨IsTrans.trans _ _ _ moved movedThen, heldLast⟩

/-- More may be asked for and less may be promised. -/
theorem weaken {strong : Built η → σ → Prop} {weak : α → Built η → σ → Prop}
    (takes : Takes moves converting before after)
    (enough : ∀ built state, strong built state → before built state)
    (implies : ∀ value built state, after value built state → weak value built state) :
    Takes moves converting strong weak := by
  intro built state held
  obtain ⟨moved, heldThen⟩ := takes built state (enough built state held)
  exact ⟨moved, fun value same => implies _ _ _ (heldThen value same)⟩

/-- What is known beforehand of nothing but the values so far. -/
theorem given {fact : Prop} (takes : fact → Takes moves converting before after) :
    Takes moves converting (fun built state => fact ∧ before built state) after :=
  fun built state ⟨holds, held⟩ => takes holds built state held

/-- What holds for each choice holds if there is one. -/
theorem some {ι : Type} {among : ι → Built η → σ → Prop}
    (takes : ∀ choice, Takes moves converting (among choice) after) :
    Takes moves converting (fun built state => ∃ choice, among choice built state) after :=
  fun built state ⟨choice, held⟩ => takes choice built state held

/-- What outlasts all moves still holds afterwards. -/
theorem frame {kept : σ → Prop} (takes : Takes moves converting before after)
    (lasting : ∀ state later, moves state later → kept state → kept later) :
    Takes moves converting (fun built state => before built state ∧ kept state)
      fun value built state => after value built state ∧ kept state := by
  rintro built state ⟨held, still⟩
  obtain ⟨moved, heldThen⟩ := takes built state held
  exact ⟨moved, fun value same => ⟨heldThen value same, lasting _ _ moved still⟩⟩

/-- To make something of the result takes no further step. -/
theorem map [Std.Refl moves] [IsTrans σ moves] {last : β → Built η → σ → Prop}
    (takes : Takes moves converting before after) (change : α → β)
    (implies : ∀ value built state, after value built state → last (change value) built state) :
    Takes moves (do return change (← converting)) before last :=
  takes.bind fun value => .pure (implies value)

/-- Starting with nothing built. What is built already stays, and with it what outlasts the moves
that are made meanwhile. -/
theorem onItsOwn {inner : σ → σ → Prop} {first : σ → Prop} {goal : α → σ → Prop}
    {kept : Built η → σ → Prop}
    (takes : Takes inner converting (fun built state => built = [] ∧ first state)
      fun value _ state => goal value state)
    (outer : ∀ state later, inner state later → moves state later)
    (begins : ∀ built state, before built state → first state)
    (lasting : ∀ built state later, inner state later → before built state → kept built later) :
    Takes moves (Converting.onItsOwn converting) before
      fun value built state => kept built state ∧ goal value state := by
  intro built state held
  obtain ⟨moved, heldThen⟩ := takes [] state ⟨rfl, begins built state held⟩
  rw [run_onItsOwn]
  exact ⟨outer _ _ moved, fun value same =>
    ⟨lasting built state _ moved held, heldThen value same⟩⟩

/-- An action outside takes the step that it takes. -/
theorem outside {action : StateM σ (Except Stop α)}
    (acts : ∀ built state, before built state → moves state (action.run state).2 ∧
      ∀ value, (action.run state).1 = .ok value → after value built (action.run state).2) :
    Takes moves (Converting.outside action : Converting η (StateM σ) α) before after := by
  intro built state held
  rw [run_outside]
  exact acts built state held

end Takes

/-! Operands. -/

/-- For each reference there is a handle, and for each table something holds. -/
structure Gathers (handed : NodeId → Nat → σ → Prop) (given : LazyTable → σ → Prop)
    (references : List (Role × NodeId)) (tables : List LazyTable) (passings : List Passing)
    (state : σ) : Prop where
  handles : List.Forall₂ (fun reference passing => handed reference.2 passing.number state)
    references passings
  tables : ∀ table ∈ tables, given table state

section Operands

variable {handed : NodeId → Nat → σ → Prop} {given : LazyTable → σ → Prop}

/-- No operands gather nothing. -/
theorem Gathers.none {state : σ} : Gathers handed given [] [] [] state := ⟨.nil, nofun⟩

/-- What operands gather is gathered one after the other. -/
theorem Gathers.append {state : σ} {references others : List (Role × NodeId)}
    {tables further : List LazyTable} {passings rest : List Passing}
    (first : Gathers handed given references tables passings state)
    (second : Gathers handed given others further rest state) :
    Gathers handed given (references ++ others) (tables ++ further) (passings ++ rest) state :=
  ⟨List.rel_append first.handles second.handles,
    List.forall_mem_append.mpr ⟨first.tables, second.tables⟩⟩

/-- What was gathered outlasts further moves. -/
theorem Gathers.moved {state later : σ} {references : List (Role × NodeId)}
    {tables : List LazyTable} {passings : List Passing}
    (gathers : Gathers handed given references tables passings state)
    (handedStill : ∀ id number, handed id number state → handed id number later)
    (givenStill : ∀ table, given table state → given table later) :
    Gathers handed given references tables passings later :=
  ⟨gathers.handles.imp fun _ _ => handedStill _ _,
    fun table member => givenStill table (gathers.tables table member)⟩

/-- Each handle that is passed was given for a reference. -/
theorem Gathers.each {state : σ} {references : List (Role × NodeId)} {tables : List LazyTable}
    {passings : List Passing} (gathers : Gathers handed given references tables passings state) :
    ∀ passing ∈ passings, ∃ id, handed id passing.number state := by
  obtain ⟨handles, -⟩ := gathers
  induction handles with
  | nil => exact nofun
  | cons here _ inductionHypothesis =>
    exact List.forall_mem_cons.mpr ⟨⟨_, here⟩, inductionHypothesis⟩

/-- For each reference there is a handle that was given for it. -/
theorem Gathers.all {state : σ} {references : List (Role × NodeId)} {tables : List LazyTable}
    {passings : List Passing} (gathers : Gathers handed given references tables passings state) :
    ∀ reference ∈ references, ∃ number, handed reference.2 number state := by
  obtain ⟨handles, -⟩ := gathers
  induction handles with
  | nil => exact nofun
  | cons here _ inductionHypothesis =>
    exact List.forall_mem_cons.mpr ⟨⟨_, here⟩, inductionHypothesis⟩

variable [Std.Refl moves] [IsTrans σ moves] {resolver : Resolver (StateM σ)}
  {convert : NodeId → Converting (Nat × η) (StateM σ) (Nat × η)}
  {invariant : Built (Nat × η) → σ → Prop} {combinesTwo : Bool}

/-- Tables of the plan can be asked for without harm. -/
def AsksTables (moves : σ → σ → Prop) (resolver : Resolver (StateM σ))
    (invariant : Built (Nat × η) → σ → Prop) : Prop :=
  ∀ batch, Takes moves (outside (resolver.table batch) : Converting (Nat × η) (StateM σ) Batch)
    invariant fun _ => invariant

/-- A table on the workers can be asked for. -/
def AsksLazily (moves : σ → σ → Prop) (resolver : Resolver (StateM σ))
    (invariant : Built (Nat × η) → σ → Prop) (given : LazyTable → σ → Prop) (table : LazyTable) :
    Prop :=
  Takes moves (outside (resolver.lazyTable table) : Converting (Nat × η) (StateM σ) Batch) invariant
    fun _ built state => invariant built state ∧ given table state

/-- The node that is referred to is converted with what is built already, to a handle that can be
passed. -/
def ConvertsInPlace (moves : σ → σ → Prop)
    (convert : NodeId → Converting (Nat × η) (StateM σ) (Nat × η))
    (invariant : Built (Nat × η) → σ → Prop) (handed : NodeId → Nat → σ → Prop) (combinesTwo : Bool)
    (reference : Role × NodeId) : Prop :=
  (combinesTwo = true → reference.1 ≠ .input) ∧ Takes moves (convert reference.2) invariant
    fun handle built state => invariant built state ∧ handed reference.2 handle.1 state

mutual

/-- An operand that is converted in the scope of its node gathers what its parts give. -/
theorem takes_operand
    (handedStill : ∀ id number state later, moves state later → handed id number state →
      handed id number later)
    (givenStill : ∀ table state later, moves state later → given table state → given table later)
    (tables : AsksTables moves resolver invariant) (found : Operand)
    (asks : ∀ table ∈ found.lazyTables, AsksLazily moves resolver invariant given table)
    (each : ∀ reference ∈ found.references,
      ConvertsInPlace moves convert invariant handed combinesTwo reference) :
    Takes moves (operand resolver convert combinesTwo found) invariant fun argument built state =>
      invariant built state ∧
        Gathers handed given found.references found.lazyTables argument.passings state := by
  have one {role : Role} {id : NodeId} {number : Nat} {passing : Passing} {state : σ}
      (same : passing.number = number) (here : handed id number state) :
      Gathers handed given [(role, id)] [] [passing] state :=
    ⟨.cons (same ▸ here) .nil, nofun⟩
  cases found with
  | input id =>
    have alone := (each _ List.mem_cons_self).1
    cases combinesTwo with
    | true => exact absurd rfl (alone rfl)
    | false =>
      rw [operand]
      exact (each _ List.mem_cons_self).2.map _ fun handle built state here =>
        ⟨here.1, one rfl here.2⟩
  | source id | expression id =>
    rw [operand]
    exact (each _ List.mem_cons_self).2.map _ fun handle built state here =>
      ⟨here.1, one rfl here.2⟩
  | list items =>
    rw [operand]
    exact (takes_operands handedStill givenStill tables items asks each).map _ fun _ _ _ here => here
  | table batch =>
    rw [operand]
    exact (tables batch).map _ fun _ _ _ here => ⟨here, .none⟩
  | lazyTable table =>
    rw [operand]
    refine (asks table List.mem_cons_self).map _ fun _ _ _ here => ⟨here.1, .nil, ?_⟩
    exact List.forall_mem_singleton.mpr here.2
  | scalar | text | index | indices | boolean | options | absent =>
    rw [operand]
    exact .pure fun _ _ here => ⟨here, .none⟩

/-- To convert operands takes the steps of each of them, and gathers what all of them gather. -/
theorem takes_operands
    (handedStill : ∀ id number state later, moves state later → handed id number state →
      handed id number later)
    (givenStill : ∀ table state later, moves state later → given table state → given table later)
    (tables : AsksTables moves resolver invariant) (items : List Operand)
    (asks : ∀ table ∈ Operand.lazyTablesOf items,
      AsksLazily moves resolver invariant given table)
    (each : ∀ reference ∈ Operand.referencesOf items,
      ConvertsInPlace moves convert invariant handed combinesTwo reference) :
    Takes moves (operands resolver convert combinesTwo items) invariant fun arguments built state =>
      invariant built state ∧
        Gathers handed given (Operand.referencesOf items) (Operand.lazyTablesOf items)
          (EngineArgument.passingsOf arguments) state := by
  cases items with
  | nil => exact .pure fun _ _ here => ⟨here, .none⟩
  | cons first rest =>
    have last := takes_operands handedStill givenStill tables rest
      (fun table member => asks table (List.mem_append_right _ member))
      fun reference member => each reference (List.mem_append_right _ member)
    have before := takes_operand handedStill givenStill tables first
      (fun table member => asks table (List.mem_append_left _ member))
      fun reference member => each reference (List.mem_append_left _ member)
    rw [operands]
    refine last.bind fun arguments => ?_
    refine ((before.frame fun state later moved => ?_).map _ ?_)
    · exact fun gathers => Gathers.moved gathers (fun id number => handedStill id number _ _ moved)
        fun table => givenStill table _ _ moved
    · rintro argument built state ⟨⟨here, gathers⟩, further⟩
      exact ⟨here, gathers.append further⟩

end

section Two

variable {scope : Scope} {id left right relation : NodeId} {half : Half} {rest : List Operand}
  {convert : Scope → NodeId → Converting (Nat × η) (StateM σ) (Nat × η)}
  {before : Built (Nat × η) → σ → Prop} {goal : Nat × η → Built (Nat × η) → σ → Prop}

/-- What refers to nothing passes nothing. -/
theorem takes_rest (tables : AsksTables moves resolver invariant)
    (none : Operand.referencesOf rest = []) (noTables : Operand.lazyTablesOf rest = []) :
    Takes moves (operandsAt resolver convert scope id true rest) invariant
      fun arguments built state =>
        EngineArgument.passingsOf arguments = [] ∧ invariant built state := by
  have gathered : Takes moves (operands resolver (convert scope) true rest) invariant
      fun arguments built state => invariant built state ∧
        Gathers (fun _ _ _ => True) (fun _ _ => True) (Operand.referencesOf rest)
          (Operand.lazyTablesOf rest) (EngineArgument.passingsOf arguments) state :=
    takes_operands (fun _ _ _ _ _ held => held) (fun _ _ _ _ held => held) tables rest
      (by simp [noTables]) (by simp [none])
  rw [operandsAt_plain resolver convert scope id fun _ => Operand.isInput_eq_false none]
  refine gathered.weaken (fun _ _ held => held) fun arguments built state ⟨held, gathers⟩ => ⟨?_, held⟩
  have handles := gathers.handles
  rw [none] at handles
  exact List.forall₂_nil_left_iff.mp handles

/-- A relation that is converted on its own goes over. -/
theorem takes_owned (others : List (EngineArgument (Nat × η)))
    (takes : Takes moves (onItsOwn (convert (scope ++ [(id, half)]) relation)) before goal) :
    Takes moves (do
        let argument ← operand resolver (convert (scope ++ [(id, half)])) true (.input relation)
        return argument :: others) before fun arguments built state => ∃ handle,
      EngineArgument.passingsOf arguments = .owned handle.1 :: EngineArgument.passingsOf others ∧
        goal handle built state := by
  have first : Takes moves
      (do return EngineArgument.owned (← onItsOwn (convert (scope ++ [(id, half)]) relation))) before
      fun argument built state => ∃ handle, argument = .owned handle ∧ goal handle built state :=
    takes.map _ fun handle _ _ here => ⟨handle, rfl, here⟩
  rw [operand, if_pos rfl]
  refine first.map _ ?_
  rintro _ _ _ ⟨handle, rfl, here⟩
  exact ⟨handle, rfl, here⟩

/-- The two relations that are combined are converted on their own, the right one first. What else
the node is built from refers to nothing. -/
theorem takes_operandsAt_two {between : Nat × η → Built (Nat × η) → σ → Prop}
    {after : Nat × η → Nat × η → Built (Nat × η) → σ → Prop}
    (tables : AsksTables moves resolver invariant) (none : Operand.referencesOf rest = [])
    (noTables : Operand.lazyTablesOf rest = [])
    (rightly : Takes moves (onItsOwn (convert (scope ++ [(id, .right)]) right)) invariant between)
    (leftly : ∀ second, Takes moves (onItsOwn (convert (scope ++ [(id, .left)]) left))
      (between second) fun first => after first second) :
    Takes moves (operandsAt resolver convert scope id true (.input left :: .input right :: rest))
      invariant fun arguments built state => ∃ first second,
        EngineArgument.passingsOf arguments = [.owned first.1, .owned second.1] ∧
          after first second built state := by
  have last : scopeOf scope id true rest (.input right) = scope ++ [(id, .right)] := by
    have nowhere : rest.any Operand.isInput = false := by simpa using Operand.isInput_eq_false none
    rw [scopeOf, if_pos rfl, halfBefore, nowhere]
    rfl
  have earlier : scopeOf scope id true (.input right :: rest) (.input left) =
      scope ++ [(id, .left)] := by
    rw [scopeOf, if_pos rfl, halfBefore, List.any_cons]
    rfl
  have second : Takes moves (operandsAt resolver convert scope id true (.input right :: rest)) invariant
      fun arguments built state => ∃ handle, EngineArgument.passingsOf arguments = [.owned handle.1] ∧
        between handle built state := by
    rw [operandsAt, last]
    refine (takes_rest tables none noTables).bind fun others => .given fun nothing => ?_
    rw [← nothing]
    exact takes_owned others rightly
  rw [operandsAt, earlier]
  refine second.bind fun others => .some fun handle => .given fun passed => ?_
  refine (takes_owned others (leftly handle)).weaken (fun _ _ held => held) ?_
  rintro _ _ _ ⟨first, both, here⟩
  exact ⟨first, handle, passed ▸ both, here⟩

end Two

end Operands

/-! Nodes. -/

section Nodes

variable [Std.Refl moves] {arena : Arena} {resolver : NodeId → Resolver (StateM σ)}
  {create : Scope → NodeId → String → OutputSchema → List (EngineArgument η) →
    StateM σ (Except Stop η)}
  {convert : Scope → NodeId → Converting η (StateM σ) η} {scope : Scope} {id : NodeId}
  {before : Built η → σ → Prop} {after : η → Built η → σ → Prop}

/-- What is built for a node once it was made: an operator is kept. -/
def keeping (node : Node) (id : NodeId) (handle : η) (built : Built η) : Built η :=
  if node.isExpression then built else (id, handle) :: built

/-- A node is made when its operands have been converted. -/
theorem takes_constructAt [IsTrans σ moves] {node : Node} (found : arena.nodes[id.index]? = some node)
    {between : List (EngineArgument η) → Built η → σ → Prop}
    (gathers : Takes moves (operandsAt (resolver id) convert scope id (combinesTwo node)
      node.operands) before between)
    (makes : ∀ arguments, Takes moves
      (outside (create scope id node.name node.output arguments) : Converting η (StateM σ) η)
      (between arguments) fun handle built => after handle (keeping node id handle built)) :
    Takes moves (constructAt arena resolver create convert scope id) before after := by
  have here : arena.node id = .ok node := by rw [Arena.node, found]
  rw [constructAt, here, Except.mapError, build_node]
  refine gathers.bind fun arguments => (makes arguments).bind fun handle => ?_
  unfold keeping
  cases node.isExpression with
  | true => exact .pure fun _ _ here => here
  | false =>
    intro built state held
    refine ⟨Std.Refl.refl state, fun value same => ?_⟩
    cases same
    exact held

/-- A node that is missing cannot be made. -/
theorem takes_constructAt_missing (missing : arena.nodes[id.index]? = none) :
    Takes moves (constructAt arena resolver create convert scope id) before after := by
  have absent : arena.node id = .error (Arena.unknownNode id arena.size) := by
    rw [Arena.node, missing]
  rw [constructAt, absent]
  refine fun _ state _ => ⟨Std.Refl.refl state, fun _ same => ?_⟩
  cases same

/-- A node is built already or it is made. -/
theorem takes_nodeAt {limit : Nat}
    (known : ∀ handle built state, before built state → built.lookup id = some handle →
      after handle built state)
    (constructs : Takes moves
      (constructAt arena resolver create (nodeAt arena resolver create limit) scope id)
      (fun built state => before built state ∧ built.lookup id = none) after) :
    Takes moves (nodeAt arena resolver create (limit + 1) scope id) before after := by
  intro built state held
  rw [run_nodeAt]
  cases there : built.lookup id with
  | some handle =>
    refine ⟨Std.Refl.refl state, fun value same => ?_⟩
    cases same
    exact known handle built state held there
  | none => exact constructs built state ⟨held, there⟩

end Nodes

/-- What converting the root takes, all of a conversion takes that keeps a chronicle: it begins with
nothing built and nothing noted. -/
theorem Takes.chronicled {ε : Type} {engine : Engine ε η} {resolver : Resolver (StateM ε)}
    {arena : Arena} {root : NodeId} {moves : ε × Chronicle → ε × Chronicle → Prop}
    {before : Built (Nat × η) → ε × Chronicle → Prop}
    {after : Nat × η → Built (Nat × η) → ε × Chronicle → Prop} {state last : ε}
    {result : Except Stop (Nat × η)} {chronicle : Chronicle}
    (takes : Takes moves (notingNode engine resolver arena arena.walkLimit [] root) before after)
    (begins : before [] (state, {}))
    (ran : (arena.chronicled engine resolver root).run (state, {}) = (result, last, chronicle)) :
    moves (state, {}) (last, chronicle) ∧
      ∀ handle, result = .ok handle → ∃ built, after handle built (last, chronicle) := by
  obtain ⟨moved, ends⟩ := takes [] (state, {}) begins
  have outcome : (arena.chronicled engine resolver root).run (state, {}) =
      (((notingNode engine resolver arena arena.walkLimit [] root).run.run []).run
        (state, {})).map Prod.fst id := rfl
  rw [outcome] at ran
  generalize ((notingNode engine resolver arena arena.walkLimit [] root).run.run []).run
    (state, {}) = ended at moved ends ran
  obtain ⟨⟨answer, built⟩, ending⟩ := ended
  cases ran
  exact ⟨moved, fun handle given => ⟨built, ends handle given⟩⟩

end Converting

end Rankwise
