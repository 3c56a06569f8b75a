import Rankwise.Proofs.Executions
import Rankwise.Proofs.Grounding
import Rankwise.Proofs.Practices

/-!
# Converting row by row

Plans are converted at different places: by the coordinator, which may have to ask the workers for a
table, and by each rank. A `Site` is what these have in common. There a line is converted without
failing, and the handle that comes of it stands for the rows that the line makes of the table that
is handed to its scan (`Site.Hosts.converts`).

Expressions need the relation that they are over, which is built for the first of them that asks for
it. So the relation is either still to be built, with nothing built yet, or its handle is known
(`Site.Available`). Expressions leave it available and add their own handles to those that stand for
something (`Site.Evaluates`); the operator above takes all of them over (`Site.Builds`).
-/

namespace Rankwise

/-- How acting goes from state to state. -/
structure Conduct (m : Type → Type) [Monad m] (σ : Type) where
  /-- From one state the action comes to this value and to the other state. -/
  comes : ∀ {α : Type}, m α → σ → α → σ → Prop
  pure : ∀ {α : Type} (value : α) (state : σ), comes (Pure.pure value) state value state
  bind : ∀ {α β : Type} {first : m α} {next : α → m β} {start middle last : σ} {value : α} {result : β},
    comes first start value middle → comes (next value) middle result last →
      comes (first >>= next) start result last

/-- A place where plans are converted for an engine. -/
structure Site (ε η : Type) (m : Type → Type) [Monad m] (σ : Type) extends Conduct m σ where
  resolver : Resolver m
  create : String → OutputSchema → List (EngineArgument η) → m (Except Stop η)
  /-- The state of the engine, which is a part of the whole state. -/
  engine : σ → ε
  /-- No table was asked for yet. -/
  begun : σ → Prop

variable {ε η σ α β : Type} {m : Type → Type}

/-- How an operator asks for the table that it scans. -/
def Operator.asks? (resolver : Resolver m) : Operator → Option (m (Except Stop Batch))
  | .tableScan batch => some (resolver.table batch)
  | .partitionScan table _ => some (resolver.lazyTable table)
  | _ => none

namespace Operand

mutual

/-- Whether an operand refers to expressions only and is no table. -/
def isPart : Operand → Bool
  | input _ | source _ | table _ | lazyTable _ => false
  | list items => areParts items
  | _ => true

/-- Whether operands refer to expressions only and none of them is a table. -/
def areParts : List Operand → Bool
  | [] => true
  | item :: rest => isPart item && areParts rest

end

/-- Operands are parts if each of them is made as one. -/
theorem areParts_map {ι : Type} (make : ι → Operand) (items : List ι)
    (each : ∀ item ∈ items, (make item).isPart = true) : areParts (items.map make) = true := by
  induction items with
  | nil => rfl
  | cons item rest inductionHypothesis =>
    obtain ⟨here, others⟩ := List.forall_mem_cons.mp each
    rw [List.map_cons, areParts, here, inductionHypothesis others]
    rfl

end Operand

/-- Besides its parts an expression is built from nothing but, at most, its source, which comes
first. -/
theorem Expression.operands_parts (expression : Expression) :
    (Operand.areParts expression.operands = true ∧
      ∀ reference ∈ Operand.referencesOf expression.operands, reference.2 ∈ expression.parts) ∨
      ∃ relation rest, expression.source? = some relation ∧
        expression.operands = .source relation :: rest ∧ Operand.areParts rest = true ∧
        Operand.referencesOf rest = [] := by
  rcases expression.operands_cases with composite | ⟨relation, rest, names, listed, none⟩
  · refine .inl ⟨?_, fun reference member => (composite reference member).2⟩
    cases expression with
    | column source | aggregate source => cases (composite (.source, source) List.mem_cons_self).1
    | rowFunction call => cases (composite (.source, call.source) List.mem_cons_self).1
    | constant | null | unary => rfl
    | binary left right operator => cases left <;> cases right <;> rfl
  · refine .inr ⟨relation, rest, names, listed, ?_, none⟩
    cases expression with
    | column | aggregate =>
      cases listed
      rfl
    | rowFunction call =>
      cases listed
      have plain := Operand.areParts_map Operand.scalar call.arguments fun _ _ => rfl
      simp only [Operand.areParts, Operand.isPart, plain, Bool.and_self]
    | constant | null | unary => cases listed
    | binary left right operator => cases left <;> cases listed

/-- An operator over one relation is built from that relation and from its expressions. -/
theorem Operator.operands_of_single {operator : Operator} {source : NodeId}
    (single : operator.inputs = [source]) :
    ∃ rest, operator.operands = .input source :: rest ∧ Operand.areParts rest = true ∧
      Operand.referencesOf rest = operator.expressions.map (.expression, ·) ∧
      operator.combinesTwo = false := by
  have shape : ∃ rest, operator.operands = .input source :: rest ∧ Operand.areParts rest = true ∧
      operator.combinesTwo = false := by
    have parts {ι : Type} (make : ι → Operand) (items : List ι)
        (each : ∀ item ∈ items, (make item).isPart = true) :
        Operand.areParts [.list (items.map make)] = true := by
      simp only [Operand.areParts, Operand.isPart, Operand.areParts_map make items each, Bool.and_self]
    cases operator with
    | join | setOperation | parquetScan | tableScan | partitionScan | catalogScan => cases single
    | projection | distinct | aggregate =>
      obtain rfl := List.singleton_inj.mp single
      exact ⟨_, rfl, parts Operand.expression _ fun _ _ => rfl, rfl⟩
    | order =>
      obtain rfl := List.singleton_inj.mp single
      exact ⟨_, rfl, parts SortKey.operand _ fun _ _ => rfl, rfl⟩
    | filter | limit | parquetSink | catalogSink =>
      obtain rfl := List.singleton_inj.mp single
      exact ⟨_, rfl, rfl, rfl⟩
    | vectorSink _ _ _ region =>
      obtain rfl := List.singleton_inj.mp single
      exact ⟨_, rfl, by cases region <;> rfl, rfl⟩
  obtain ⟨rest, operands, areParts, notTwo⟩ := shape
  refine ⟨rest, operands, areParts, ?_, notTwo⟩
  have references := operator.referencesOf_operands
  rw [operands, Operand.referencesOf_cons, single] at references
  exact (List.cons.inj references).2

namespace Presents

variable {stays taken : List (η × Item)} {operands items : List Operand}
  {arguments : List (EngineArgument η)} {source : NodeId}

/-- Operands that refer to nothing are presented as what they are. -/
theorem of_plain (presents : Presents stays items arguments taken) (plain : List (EngineArgument η))
    (same : items.map Operand.plain? = plain.map some) : arguments = plain := by
  induction presents generalizing plain with
  | nil => exact (List.map_eq_nil_iff.mp same.symm).symm
  | plain item argument items arguments taken here _ inductionHypothesis =>
    cases plain with
    | nil => cases same
    | cons first rest =>
      obtain ⟨foundHere, others⟩ := List.cons.inj same
      rw [inductionHypothesis rest others, Option.some.inj (here.symm.trans foundHere)]
  | input | source | expression | list =>
    cases plain with
    | nil => cases same
    | cons first rest => cases (List.cons.inj same).1

/-- What is presented of an expression that refers to its source and to nothing else. -/
theorem of_source (presents : Presents stays operands arguments taken)
    (listed : operands = .source source :: items) (plain : List (EngineArgument η))
    (same : items.map Operand.plain? = plain.map some) :
    ∃ handle, arguments = .borrowed handle :: plain := by
  subst listed
  cases presents with
  | source _ rows handle _ _ _ lent rest => exact ⟨handle, by rw [rest.of_plain plain same]⟩
  | plain _ _ _ _ _ wrong => cases wrong

/-- A single expression is presented as the handle taken over for it. -/
theorem of_expression {id : NodeId} (presents : Presents stays [.expression id] arguments taken) :
    ∃ handle, arguments = [.owned handle] ∧ taken = [(handle, .expression id)] := by
  cases presents with
  | expression _ handle _ _ _ rest =>
    cases rest
    exact ⟨handle, rfl, rfl⟩
  | plain _ _ _ _ _ wrong => cases wrong

/-- A single list is presented as a list of what its items are presented as. -/
theorem of_list {inside : List Operand} (presents : Presents stays [.list inside] arguments taken) :
    ∃ given, arguments = [.list given] ∧ Presents stays inside given taken := by
  cases presents with
  | list _ _ given _ takenInside _ listed rest =>
    cases rest
    exact ⟨given, rfl, (List.append_nil takenInside).symm ▸ listed⟩
  | plain _ _ _ _ _ wrong => cases wrong

/-- Of parts only expressions are taken over. -/
theorem of_parts (presents : Presents stays items arguments taken)
    (parts : Operand.areParts items = true) :
    ∀ entry ∈ taken, ∃ id, entry.2 = .expression id := by
  induction presents with
  | nil => exact List.forall_mem_nil _
  | input | source => cases parts
  | expression id handle items arguments taken _ inductionHypothesis =>
    exact List.forall_mem_cons.mpr ⟨⟨id, rfl⟩, inductionHypothesis parts⟩
  | list inside items given arguments takenInside taken _ _ onInside onRest =>
    obtain ⟨first, rest⟩ := (Bool.and_eq_true _ _).mp parts
    exact List.forall_mem_append.mpr ⟨onInside first, onRest rest⟩
  | plain item argument items arguments taken _ _ inductionHypothesis =>
    exact inductionHypothesis ((Bool.and_eq_true _ _).mp parts).2

/-- What is presented of an operator over one relation. -/
theorem of_input {given : η} {rows : List Row}
    (presents : Presents stays operands arguments taken) (listed : operands = .input source :: items)
    (parts : Operand.areParts items = true) (member : (given, .relation source rows) ∈ taken) :
    ∃ rest others, arguments = .owned given :: rest ∧ taken = (given, .relation source rows) :: others ∧
      Presents stays items rest others := by
  subst listed
  cases presents with
  | input _ before handle _ rest others further =>
    rcases List.mem_cons.mp member with same | wrong
    · cases same
      exact ⟨rest, others, rfl, rfl, further⟩
    · obtain ⟨id, wrong⟩ := further.of_parts parts _ wrong
      cases wrong
  | plain _ _ _ _ _ wrong => cases wrong

end Presents

namespace Conduct

variable [Monad m] (conduct : Conduct m σ)

/-- From a state like this the conversion comes, without failing, to a value and a state like that.
-/
def Succeeds (before : Built η → σ → Prop) (converting : Converting η m α)
    (after : α → Built η → σ → Prop) : Prop :=
  ∀ built state, before built state → ∃ value later last,
    conduct.comes (converting.run.run built) state (.ok value, later) last ∧ after value later last

variable {conduct} {before : Built η → σ → Prop} {after : β → Built η → σ → Prop}

namespace Succeeds

/-- To give a value succeeds. -/
theorem pure (value : β) (holds : ∀ built state, before built state → after value built state) :
    conduct.Succeeds before (Pure.pure value : Converting η m β) after := by
  intro built state held
  exact ⟨value, built, state, conduct.pure _ _, holds built state held⟩

/-- Two conversions succeed one after the other if the second takes up what the first leaves. -/
theorem bind (between : α → Built η → σ → Prop) {first : Converting η m α}
    {next : α → Converting η m β} (begins : conduct.Succeeds before first between)
    (continues : ∀ value, conduct.Succeeds (between value) (next value) after) :
    conduct.Succeeds before (first >>= next) after := by
  intro built state held
  obtain ⟨value, middle, halfway, first, there⟩ := begins built state held
  obtain ⟨result, later, last, second, here⟩ := continues value middle halfway there
  refine ⟨result, later, last, ?_, here⟩
  rw [ExceptT.run_bind, StateT.run_bind]
  exact conduct.bind first second

/-- More may be asked beforehand and less be promised afterwards. -/
theorem weaken {strong : Built η → σ → Prop} {weak : β → Built η → σ → Prop}
    {converting : Converting η m β} (succeeds : conduct.Succeeds before converting after)
    (given : ∀ built state, strong built state → before built state)
    (implies : ∀ value built state, after value built state → weak value built state) :
    conduct.Succeeds strong converting weak := by
  intro built state held
  obtain ⟨value, later, last, comes, here⟩ := succeeds built state (given built state held)
  exact ⟨value, later, last, comes, implies value later last here⟩

/-- A step outside succeeds if the outside can take it. -/
theorem outside {action : m (Except Stop β)}
    (acts : ∀ built state, before built state →
      ∃ value last, conduct.comes action state (.ok value) last ∧ after value built last) :
    conduct.Succeeds before (Converting.outside action : Converting η m β) after := by
  intro built state held
  obtain ⟨value, last, comes, here⟩ := acts built state held
  exact ⟨value, built, last, conduct.bind comes (conduct.pure _ _), here⟩

/-- To change what was built succeeds. -/
theorem modify {change : Built η → Built η} {after : PUnit → Built η → σ → Prop}
    (holds : ∀ built state, before built state → after ⟨⟩ (change built) state) :
    conduct.Succeeds before (modify change : Converting η m PUnit) after := by
  intro built state held
  exact ⟨⟨⟩, change built, state, conduct.bind (conduct.pure _ _) (conduct.pure _ _),
    holds built state held⟩

end Succeeds

end Conduct

namespace Site

variable [Monad m] (site : Site ε η m σ) (meaning : RowMeaning ε η) (arena : Arena)

/-- A relation is not built yet, or its handle is known and stands for its rows. -/
inductive Backs (id : NodeId) (rows : List Row) : List (η × Item) → Built η → σ → Prop
  | nothing (state : σ) (begun : site.begun state) : Backs id rows [] [] state
  | handle (handle : η) (built : Built η) (state : σ) (known : built.lookup id = some handle)
      (operators : ∀ entry ∈ built, arena.isExpression entry.1 = false) :
      Backs id rows [(handle, .relation id rows)] built state

/-- A relation can be asked for, and others keep standing for what they stand for. -/
def Available (id : NodeId) (rows : List Row) (others : List (η × Item)) (built : Built η)
    (state : σ) : Prop :=
  ∃ kept, site.Backs arena id rows kept built state ∧
    meaning.holds (site.engine state) (kept ++ others)

/-- A relation was asked for and stands behind this handle. -/
def Stands (id : NodeId) (rows : List Row) (others : List (η × Item)) (handle : η) (built : Built η)
    (state : σ) : Prop :=
  site.Backs arena id rows [(handle, .relation id rows)] built state ∧
    meaning.holds (site.engine state) ((handle, .relation id rows) :: others)

/-- Converting a node at this place. -/
abbrev node (limit : Nat) (id : NodeId) : Converting η m η :=
  Converting.nodeWithin arena site.resolver site.create limit id

/-- A relation that is available is built when it is asked for. -/
def Builds (limit : Nat) (id : NodeId) (rows : List Row) : Prop :=
  ∀ others, site.Succeeds (site.Available meaning arena id rows others) (site.node arena limit id)
    (site.Stands meaning arena id rows others)

/-- An expression leaves its source available and adds its handle to the others. -/
def Evaluates (limit : Nat) (source : NodeId) (rows : List Row) (id : NodeId) : Prop :=
  ∀ others, site.Succeeds (site.Available meaning arena source rows others)
    (site.node arena limit id)
    fun handle => site.Available meaning arena source rows ((handle, .expression id) :: others)

/-- The engine works at this place, and this table is handed to the scan. -/
structure Hosts (engine : Engine ε η) (operator : Operator) (table : Batch) : Prop where
  /-- Nodes are built by the engine, which is not the same as asking for tables. -/
  creates : ∀ name output arguments state handle after,
    (engine.create name output arguments).run.run (site.engine state) = (.ok handle, after) →
      ∃ last, site.comes (site.create name output arguments) state (.ok handle) last ∧
        site.engine last = after ∧ (site.begun state → site.begun last)
  /-- The table is there when it is asked for, and the engine has no part in this. -/
  hands : ∀ state action, site.begun state → operator.asks? site.resolver = some action →
    ∃ last, site.comes action state (.ok table) last ∧ site.engine last = site.engine state

variable {site meaning arena} {engine : Engine ε η} {operator : Operator} {table : Batch}
  {root scan source id : NodeId} {rows : List Row} {others : List (η × Item)} {handle : η}
  {built : Built η} {state : σ} {limit : Nat} {node : Node} {handed : Batch → Prop}

/-- Expressions are never among what is built. -/
theorem Available.lookup_expression
    (available : site.Available meaning arena id rows others built state) {part : NodeId}
    (isExpression : arena.isExpression part = true) : built.lookup part = none := by
  obtain ⟨kept, backs, -⟩ := available
  cases backs with
  | nothing => rfl
  | handle handle _ _ _ operators =>
    rw [List.lookup_eq_none_iff]
    intro entry member
    have operator := operators entry member
    rw [bne_iff_ne]
    rintro rfl
    rw [isExpression] at operator
    cases operator

/-- The handles of a node last while nothing but the outside goes on. -/
theorem Backs.later {kept : List (η × Item)} {built : Built η} {state last : σ}
    (backs : site.Backs arena id rows kept built state) (begun : site.begun state → site.begun last) :
    site.Backs arena id rows kept built last := by
  cases backs with
  | nothing _ here => exact .nothing last (begun here)
  | handle handle _ _ known operators => exact .handle handle built last known operators

/-- What is known of a relation that is available is its handle. -/
theorem Available.stands {others : List (η × Item)} {handle : η} {built : Built η} {state : σ}
    (available : site.Available meaning arena id rows others built state)
    (known : built.lookup id = some handle) :
    site.Stands meaning arena id rows others handle built state := by
  obtain ⟨kept, backs, held⟩ := available
  cases backs with
  | nothing => cases known
  | handle found _ _ foundToo operators =>
    obtain rfl := Option.some.inj (foundToo.symm.trans known)
    exact ⟨.handle found built state foundToo operators, held⟩

/-- If a relation that is available is not known, nothing is built, so any other one is available
too. -/
theorem Available.of_unknown {others : List (η × Item)} {built : Built η} {state : σ}
    (available : site.Available meaning arena id rows others built state)
    (unknown : built.lookup id = none) (other : NodeId) (otherRows : List Row) :
    site.Available meaning arena other otherRows others built state ∧ built = [] ∧
      site.begun state ∧ meaning.holds (site.engine state) others := by
  obtain ⟨kept, backs, held⟩ := available
  cases backs with
  | nothing _ begun => exact ⟨⟨[], .nothing state begun, held⟩, rfl, begun, held⟩
  | handle found _ _ known =>
    rw [unknown] at known
    cases known

/-- The operator that was built stands behind its handle. -/
theorem stands_built {others : List (η × Item)} {handle : η} {built : Built η} {state : σ}
    (isOperator : arena.isExpression id = false)
    (operators : ∀ entry ∈ built, arena.isExpression entry.1 = false)
    (held : meaning.holds (site.engine state) ((handle, .relation id rows) :: others)) :
    site.Stands meaning arena id rows others handle ((id, handle) :: built) state := by
  refine ⟨.handle handle _ state List.lookup_cons_self ?_, held⟩
  exact List.forall_mem_cons.mpr ⟨isOperator, operators⟩

/-- What the engine builds is built at this place. -/
theorem Hosts.builds (hosts : site.Hosts engine operator table) {arguments : List (EngineArgument η)}
    {item : Item}
    (creates : meaning.Creates engine node arguments (site.engine state) item others) :
    ∃ handle last, site.comes (site.create node.name node.output arguments) state (.ok handle) last ∧
      meaning.holds (site.engine last) ((handle, item) :: others) ∧
      (site.begun state → site.begun last) := by
  obtain ⟨handle, after, created, held⟩ := creates
  obtain ⟨last, comes, rfl, begun⟩ := hosts.creates _ _ _ state handle after created
  exact ⟨handle, last, comes, held, begun⟩

end Site

namespace Conduct.Succeeds

variable [Monad m] [LawfulMonad m] {site : Site ε η m σ} {arena : Arena} {limit : Nat} {id : NodeId}
  {node : Node} {before : Built η → σ → Prop} {after : η → Built η → σ → Prop}

/-- A node that is built already is given again; any other is built from its operands. -/
theorem nodeWithin (there : arena.nodes[id.index]? = some node)
    (between : List (EngineArgument η) → Built η → σ → Prop)
    (known : ∀ handle built state, before built state → built.lookup id = some handle →
      after handle built state)
    (operands : site.Succeeds (fun built state => before built state ∧ built.lookup id = none)
      (Converting.operands site.resolver (site.node arena limit) (Converting.combinesTwo node)
        node.operands) between)
    (creates : ∀ arguments built state, between arguments built state →
      ∃ handle last, site.comes (site.create node.name node.output arguments) state (.ok handle) last ∧
        after handle (if node.isExpression then built else (id, handle) :: built) last) :
    site.Succeeds before (site.node arena (limit + 1) id) after := by
  intro built state held
  rw [Converting.run_nodeWithin]
  cases found : built.lookup id with
  | some handle => exact ⟨handle, built, state, site.pure _ _, known handle built state held found⟩
  | none =>
    have here : arena.node id = .ok node := by rw [Arena.node, there]
    rw [Converting.construct, here, Except.mapError, Converting.build_node]
    refine bind between operands (fun arguments => ?_) built state ⟨held, found⟩
    refine bind (fun handle built state =>
      after handle (if node.isExpression then built else (id, handle) :: built) state)
      (outside fun built state => creates arguments built state) fun handle => ?_
    cases sort : node.isExpression with
    | true => exact pure handle fun _ _ here => here
    | false =>
      refine bind (fun _ built state => after handle built state) ?_ fun _ =>
        pure handle fun _ _ here => here
      exact modify fun _ _ here => here

end Conduct.Succeeds

namespace Site

section Operands

variable [Monad m] {site : Site ε η m σ} {meaning : RowMeaning ε η} {arena : Arena} {source : NodeId}
  {rows : List Row}

mutual

/-- The handles for the parts of an operand are added to the others. -/
theorem presents_operand (convert : NodeId → Converting η m η) (two : Bool) (item : Operand)
    (isPart : item.isPart = true)
    (each : ∀ reference ∈ item.references, ∀ others,
      site.Succeeds (site.Available meaning arena source rows others) (convert reference.2)
        fun handle =>
          site.Available meaning arena source rows ((handle, .expression reference.2) :: others))
    (others : List (η × Item)) :
    site.Succeeds (site.Available meaning arena source rows others)
      (Converting.operand site.resolver convert two item) fun argument built state =>
        ∃ taken, site.Available meaning arena source rows (taken ++ others) built state ∧
          ∀ stays items arguments further, Presents stays items arguments further →
            Presents stays (item :: items) (argument :: arguments) (taken ++ further) := by
  have plain (argument : EngineArgument η) (same : item.plain? = some argument) :
      site.Succeeds (site.Available meaning arena source rows others)
        (pure argument : Converting η m (EngineArgument η)) fun argument built state =>
          ∃ taken, site.Available meaning arena source rows (taken ++ others) built state ∧
            ∀ stays items arguments further, Presents stays items arguments further →
              Presents stays (item :: items) (argument :: arguments) (taken ++ further) :=
    .pure argument fun built state available =>
      ⟨[], available, fun stays items arguments further => .plain item argument items arguments
        further same⟩
  cases item with
  | input | source | table | lazyTable => cases isPart
  | expression id =>
    rw [Converting.operand]
    refine .bind _ (each (.expression, id) List.mem_cons_self others) fun handle => ?_
    exact .pure _ fun built state available => ⟨[(handle, .expression id)], available,
      fun stays items arguments further => .expression id handle items arguments further⟩
  | list inside =>
    rw [Converting.operand]
    refine .bind _ (presents_operands convert two inside isPart each others) fun given => .pure _ ?_
    rintro built state ⟨taken, available, listed⟩
    refine ⟨taken, available, fun stays items arguments further rest => ?_⟩
    exact .list inside items given arguments taken further (listed stays) rest
  | scalar | text | index | indices | boolean | options | absent => exact plain _ rfl

/-- The handles for the parts of operands are added to the others. -/
theorem presents_operands (convert : NodeId → Converting η m η) (two : Bool) (items : List Operand)
    (areParts : Operand.areParts items = true)
    (each : ∀ reference ∈ Operand.referencesOf items, ∀ others,
      site.Succeeds (site.Available meaning arena source rows others) (convert reference.2)
        fun handle =>
          site.Available meaning arena source rows ((handle, .expression reference.2) :: others))
    (others : List (η × Item)) :
    site.Succeeds (site.Available meaning arena source rows others)
      (Converting.operands site.resolver convert two items) fun arguments built state =>
        ∃ taken, site.Available meaning arena source rows (taken ++ others) built state ∧
          ∀ stays, Presents stays items arguments taken := by
  cases items with
  | nil =>
    rw [Converting.operands]
    exact .pure [] fun built state available => ⟨[], available, fun _ => .nil⟩
  | cons item rest =>
    obtain ⟨isPart, restAreParts⟩ := (Bool.and_eq_true _ _).mp areParts
    rw [Converting.operands]
    refine .bind _ (presents_operands convert two rest restAreParts
      (fun reference member => each reference (List.mem_append_right _ member)) others)
      fun arguments => ?_
    rintro built state ⟨taken, available, presents⟩
    have first := presents_operand convert two item isPart
      (fun reference member => each reference (List.mem_append_left _ member)) (taken ++ others)
    refine Conduct.Succeeds.bind _ first (fun argument => .pure _ ?_) built state available
    rintro built state ⟨added, available, further⟩
    refine ⟨added ++ taken, ?_, ?_⟩
    · rw [List.append_assoc]
      exact available
    · exact fun stays => further stays rest arguments taken (presents stays)

end

variable {limit : Nat}

/-- An operator over one relation takes over the relation behind the handles for its parts. -/
theorem presents_overInput {rest : List Operand} (areParts : Operand.areParts rest = true)
    (below : site.Builds meaning arena limit source rows)
    (each : ∀ reference ∈ Operand.referencesOf rest,
      site.Evaluates meaning arena limit source rows reference.2) (others : List (η × Item)) :
    site.Succeeds (site.Available meaning arena source rows others)
      (Converting.operands site.resolver (site.node arena limit) false (.input source :: rest))
      fun arguments built state => ∃ handle taken,
        site.Stands meaning arena source rows (taken ++ others) handle built state ∧
          Presents others (.input source :: rest) arguments
            ((handle, .relation source rows) :: taken) := by
  rw [Converting.operands, Converting.operand]
  refine .bind _ (presents_operands _ false rest areParts each others) fun arguments => ?_
  rintro built state ⟨taken, available, presents⟩
  have takes : site.Succeeds (site.Available meaning arena source rows (taken ++ others))
      (do return .owned (← site.node arena limit source) : Converting η m (EngineArgument η))
      fun argument built state => ∃ handle, argument = .owned handle ∧
        site.Stands meaning arena source rows (taken ++ others) handle built state :=
    .bind _ (below (taken ++ others)) fun handle => .pure _ fun _ _ stands => ⟨handle, rfl, stands⟩
  refine Conduct.Succeeds.bind _ takes (fun argument => .pure _ ?_) built state available
  rintro built state ⟨handle, rfl, stands⟩
  exact ⟨handle, taken, stands, .input source rows handle rest arguments taken (presents others)⟩

/-- To an expression that refers to its source and to nothing else the relation is lent. -/
theorem presents_overSource {rest : List Operand} (two : Bool)
    (areParts : Operand.areParts rest = true) (none : Operand.referencesOf rest = [])
    (below : site.Builds meaning arena limit source rows) (others : List (η × Item)) :
    site.Succeeds (site.Available meaning arena source rows others)
      (Converting.operands site.resolver (site.node arena limit) two (.source source :: rest))
      fun arguments built state => ∃ kept taken, site.Backs arena source rows kept built state ∧
        meaning.holds (site.engine state) (kept ++ (taken ++ others)) ∧
          Presents (kept ++ others) (.source source :: rest) arguments taken := by
  rw [Converting.operands, Converting.operand]
  refine .bind _ (presents_operands _ two rest areParts (fun reference member =>
    absurd (none ▸ member) List.not_mem_nil) others) fun arguments => ?_
  rintro built state ⟨taken, available, presents⟩
  have lends : site.Succeeds (site.Available meaning arena source rows (taken ++ others))
      (do return .borrowed (← site.node arena limit source) : Converting η m (EngineArgument η))
      fun argument built state => ∃ handle, argument = .borrowed handle ∧
        site.Stands meaning arena source rows (taken ++ others) handle built state :=
    .bind _ (below (taken ++ others)) fun handle => .pure _ fun _ _ stands => ⟨handle, rfl, stands⟩
  refine Conduct.Succeeds.bind _ lends (fun argument => .pure _ ?_) built state available
  rintro built state ⟨handle, rfl, backs, held⟩
  exact ⟨_, taken, backs, held, .source source rows handle rest arguments taken List.mem_cons_self
    (presents _)⟩

end Operands

section Nodes

variable [Monad m] [LawfulMonad m] {site : Site ε η m σ} {meaning : RowMeaning ε η}
  {engine : Engine ε η} {arena : Arena} {operator : Operator} {table : Batch}
  {root scan source id : NodeId} {rows : List Row} {limit : Nat} {node : Node}
  {handed : Batch → Prop} {practice : Practice}

/-- A scan is built, as the table that it is handed. -/
theorem builds_scan (works : meaning.Builds practice engine arena handed)
    (hosts : site.Hosts engine operator table) (given : handed table)
    (there : arena.nodes[id.index]? = some node) (content : node.content = .operator operator)
    (scans : operator.scansTable = true) :
    site.Builds meaning arena (limit + 1) id table.rowList := by
  have sort : node.isExpression = false := by rw [Node.isExpression, content]
  have isOperator : arena.isExpression id = false := by
    rw [Arena.isExpression, there]
    exact sort
  have operands : node.operands = operator.operands := by rw [Node.operands, content]
  intro others
  refine .nodeWithin there (fun arguments built state =>
    arguments = operator.scanArguments table ∧ built = [] ∧
      meaning.holds (site.engine state) others) (fun handle built state available known =>
        available.stands known) ?_ ?_
  · rw [operands]
    have asks (action : m (Except Stop Batch))
        (asked : operator.asks? site.resolver = some action) :
        site.Succeeds (fun built state => site.Available meaning arena id table.rowList others built
            state ∧ built.lookup id = none)
          (Converting.outside action : Converting η m Batch) fun found built state =>
            found = table ∧ built = [] ∧ meaning.holds (site.engine state) others := by
      refine .outside ?_
      rintro built state ⟨available, unknown⟩
      obtain ⟨-, nothing, begun, held⟩ := available.of_unknown unknown id []
      obtain ⟨last, comes, same⟩ := hosts.hands state action begun asked
      exact ⟨table, last, comes, rfl, nothing, same ▸ held⟩
    cases operator with
    | tableScan | partitionScan =>
      simp only [Operator.operands, Converting.operands, Converting.operand, pure_bind, bind_assoc]
      refine .bind _ (asks _ rfl) fun found => .pure _ ?_
      rintro built state ⟨rfl, further⟩
      exact ⟨rfl, further⟩
    | _ => cases scans
  · rintro arguments built state ⟨rfl, rfl, held⟩
    obtain ⟨handle, last, created, heldThen, -⟩ := hosts.builds
      (works.scan id node operator table others _ there content scans given held)
    refine ⟨handle, last, created, ?_⟩
    rw [sort]
    exact stands_built isOperator (List.forall_mem_nil _) heldThen

/-- An operator over one relation is built if its source and its parts are. -/
theorem builds_step (works : meaning.Builds practice engine arena handed)
    (hosts : site.Hosts engine operator table) (there : arena.nodes[id.index]? = some node)
    {change : List Row → List Row} {found : Operator} (content : node.content = .operator found)
    (alone : found.inputs = [source]) (changes : practice.change? found = some change)
    (below : site.Builds meaning arena limit source rows)
    (parts : ∀ part ∈ found.expressions, site.Evaluates meaning arena limit source rows part) :
    site.Builds meaning arena (limit + 1) id (change rows) := by
  have sort : node.isExpression = false := by rw [Node.isExpression, content]
  have isOperator : arena.isExpression id = false := by
    rw [Arena.isExpression, there]
    exact sort
  obtain ⟨rest, shape, areParts, listed, notTwo⟩ := Operator.operands_of_single alone
  have operands : node.operands = .input source :: rest := by
    rw [Node.operands, content]
    exact shape
  have single : Converting.combinesTwo node = false := by
    rw [Converting.combinesTwo, content]
    exact notTwo
  intro others
  refine .nodeWithin there (fun arguments built state => ∃ handle taken,
    site.Stands meaning arena source rows (taken ++ others) handle built state ∧
      Presents others node.operands arguments ((handle, .relation source rows) :: taken))
    (fun handle built state available known => available.stands known) ?_ ?_
  · rw [operands, single]
    refine (presents_overInput areParts below (fun reference member => ?_) others).weaken ?_
      fun _ _ _ here => here
    · obtain ⟨part, among, rfl⟩ := List.mem_map.mp (listed ▸ member)
      exact parts part among
    · rintro built state ⟨available, unknown⟩
      exact (available.of_unknown unknown source rows).1
  · rintro arguments built state ⟨below, taken, ⟨backs, held⟩, presents⟩
    obtain ⟨handle, last, created, heldThen, -⟩ := hosts.builds
      (works.change id node found source change rows arguments _ others _ there content alone changes
        presents ⟨below, List.mem_cons_self⟩ held)
    refine ⟨handle, last, created, ?_⟩
    rw [sort]
    cases backs with
    | handle _ _ _ known operators => exact stands_built isOperator operators heldThen

/-- An expression is evaluated if its parts are and its source can be built. -/
theorem evaluates_expression (works : meaning.Builds practice engine arena handed)
    (hosts : site.Hosts engine operator table) (there : arena.nodes[id.index]? = some node)
    {expression : Expression} (content : node.content = .expression expression)
    (admitted : practice.admits expression = true)
    (below : expression.source? = some source → arena.Refers id source →
      site.Builds meaning arena limit source rows)
    (own : ∀ relation, expression.source? = some relation → relation = source)
    (parts : ∀ part ∈ expression.parts, site.Evaluates meaning arena limit source rows part) :
    site.Evaluates meaning arena (limit + 1) source rows id := by
  have sort : node.isExpression = true := by rw [Node.isExpression, content]
  have isExpression : arena.isExpression id = true := by
    rw [Arena.isExpression, there]
    exact sort
  have operands : node.operands = expression.operands := by rw [Node.operands, content]
  intro others
  refine .nodeWithin there (fun arguments built state => ∃ kept taken,
    site.Backs arena source rows kept built state ∧
      meaning.holds (site.engine state) (kept ++ (taken ++ others)) ∧
        Presents (kept ++ others) node.operands arguments taken)
    (fun handle built state available known => ?_) ?_ ?_
  · rw [available.lookup_expression isExpression] at known
    cases known
  · rw [operands]
    rcases expression.operands_parts with
      ⟨areParts, referred⟩ | ⟨relation, rest, sourced, shape, areParts, none⟩
    · refine (presents_operands _ _ expression.operands areParts
        (fun reference member => parts reference.2 (referred reference member)) others).weaken
        (fun _ _ here => here.1) ?_
      rintro arguments built state ⟨taken, ⟨kept, backs, held⟩, presents⟩
      exact ⟨kept, taken, backs, held, presents _⟩
    · obtain rfl := own relation sourced
      have refers : arena.Refers id relation :=
        ⟨node, there, (.source, relation), by
          rw [Node.references, operands, shape]
          exact List.mem_cons_self, rfl⟩
      rw [shape]
      exact (presents_overSource _ areParts none (below sourced refers) others).weaken
        (fun _ _ here => here.1) fun _ _ _ here => here
  · rintro arguments built state ⟨kept, taken, backs, held, presents⟩
    have ordered : meaning.holds (site.engine state) (taken ++ (kept ++ others)) :=
      works.reorder _ _ _ held (by
        rw [← List.append_assoc, ← List.append_assoc]
        exact List.perm_append_comm.append_right others)
    obtain ⟨handle, last, created, heldThen, begun⟩ := hosts.builds
      (works.expression id node expression arguments taken _ _ there content admitted presents ordered)
    refine ⟨handle, last, created, ?_⟩
    rw [sort]
    refine ⟨kept, backs.later begun, works.reorder _ _ _ heldThen ?_⟩
    exact List.perm_middle.symm

/-- The relations of a line are built with the rows that come of those of the table, and the
expressions over them are evaluated. References lead to earlier nodes, so the limit is not reached.
-/
theorem builds_within (works : meaning.Builds practice engine arena handed)
    (found : arena.operator scan = .ok operator) (hosts : site.Hosts engine operator table)
    (given : handed table) (forward : arena.IsForward) (limit : Nat) :
    (∀ id change, arena.Makes practice scan id change → id.index < limit →
      site.Builds meaning arena limit id (change table.rowList)) ∧
    ∀ source change, arena.Makes practice scan source change →
      ∀ id, arena.IsOver practice.admits source id → id.index < limit →
        site.Evaluates meaning arena limit source (change table.rowList) id := by
  -- Relations and expressions lead to each other, but always to earlier nodes.
  induction limit with
  | zero =>
    exact ⟨fun _ _ _ wrong => absurd wrong (Nat.not_lt_zero _),
      fun _ _ _ _ _ wrong => absurd wrong (Nat.not_lt_zero _)⟩
  | succ limit inductionHypothesis =>
    obtain ⟨builds, evaluates⟩ := inductionHypothesis
    constructor
    · intro id change makes inside
      cases makes with
      | scan operator foundToo scans =>
        obtain rfl := Except.ok.inj (found.symm.trans foundToo)
        obtain ⟨node, there, content⟩ := (Arena.operator_iff _).mp found
        exact builds_scan works hosts given there content scans
      | step _ source above change before foundHere single changes own below =>
        obtain ⟨node, there, content⟩ := (Arena.operator_iff _).mp foundHere
        have refers {child : NodeId} (listed : child ∈ above.inputs ++ above.expressions) :
            child.index < limit := by
          have earlier := forward id child ((Arena.refers_operator foundHere).mpr listed)
          omega
        have among : source ∈ above.inputs := by
          rw [single]
          exact List.mem_singleton_self source
        refine builds_step works hosts there content single changes
          (builds source before below (refers (List.mem_append_left _ among))) fun part member => ?_
        exact evaluates source before below part (own part member)
          (refers (List.mem_append_right _ member))
    · intro source change makes id isOver inside
      cases isOver with
      | intro _ expression foundHere admitted names parts =>
        obtain ⟨node, there, content⟩ := (Arena.expression_iff _).mp foundHere
        have earlier (child : NodeId) (refers : arena.Refers id child) : child.index < limit := by
          have before := forward id child refers
          omega
        refine evaluates_expression works hosts there content admitted
          (fun _ refers => builds source change makes (earlier source refers)) names
          fun part member => ?_
        refine evaluates source change makes part (parts part member)
          (earlier part ⟨node, there, (.expression, part), ?_, rfl⟩)
        rw [Node.references, Node.operands, content]
        exact expression.part_referred member

/-- A line is converted without failing, and its handle stands for the rows that it makes of those
of the table. -/
theorem Hosts.converts (hosts : site.Hosts engine operator table)
    (works : meaning.Builds practice engine arena handed) (given : handed table)
    (found : arena.operator scan = .ok operator) (forward : arena.IsForward)
    {change : List Row → List Row} (makes : arena.Makes practice scan root change) {state : σ}
    (begun : site.begun state) (held : meaning.holds (site.engine state) []) :
    ∃ handle last,
      site.comes (do return (← (Converting.node arena site.resolver site.create root).run.run []).1)
        state (.ok handle) last ∧
      meaning.holds (site.engine last) [(handle, .relation root (change table.rowList))] := by
  have inside := makes.isLine.inside
  obtain ⟨builds, -⟩ := builds_within works found hosts given forward arena.walkLimit
  obtain ⟨handle, built, last, comes, -, stands⟩ :=
    builds root change makes (by unfold Arena.walkLimit; omega) [] [] state
      ⟨[], .nothing state begun, held⟩
  exact ⟨handle, last, site.bind comes (site.pure _ _), stands⟩

end Nodes

/-! The two places. -/

/-- A rank of a group, where there is nothing but the engine. -/
def onRank (engine : Engine ε η) (rank size : Nat) (stored : ResultId → Option Batch) :
    Site ε η (StateM ε) ε where
  comes action state value last := action.run state = (value, last)
  pure _ _ := rfl
  bind first second := by
    rw [StateT.run_bind, first]
    exact second
  resolver := .ofRank rank size (fun _ => none) stored
  create name output arguments := (engine.create name output arguments).stopping
  engine state := state
  begun _ := True

/-- The coordinator, whose engine is a part of what runs plans. -/
def atCoordinator (engine : Engine ε η) (world : World) (fleet : Fleet) :
    Site ε η (StateT (Executor ε) (StateT World Dialogue)) (Executor ε × World × Fleet) where
  comes action start value last :=
    Acts (action.run start.1) start.2.1 start.2.2 (value, last.1) last.2.1 last.2.2
  pure _ _ := rfl
  bind first second := by
    rw [StateT.run_bind]
    exact Acts.bind first second
  resolver := Executing.localResolver
  create name output arguments := (Executing.engine (engine.create name output arguments).stopping).run
  engine state := state.1.state
  begun state := state.2 = (world, fleet)

end Site

/-- What an engine does without failing it does also where it could be stopped. -/
theorem EngineAction.stopping_run {action : EngineAction ε α} {state after : ε} {value : α}
    (ran : action.run.run state = (.ok value, after)) :
    action.stopping.run state = (.ok value, after) := by
  rw [stopping, StateT.run_bind, ran]
  rfl

/-- What the engine does changes nothing but its state. -/
theorem Runs.engine {action : StateM ε (Except Stop α)} {executor : Executor ε} {value : α} {after : ε}
    (ran : action.run executor.state = (.ok value, after)) (world : World) (fleet : Fleet) :
    Runs (Executing.engine action) executor world fleet (.ok value)
      { executor with state := after } world fleet := by
  unfold Runs Executing.engine
  rw [ExceptT.run_mk]
  show Acts (fun world => .done (((action.run executor.state).1,
    ({ executor with state := (action.run executor.state).2 } : Executor ε)), world)) world fleet _
      world fleet
  rw [ran]
  rfl

namespace Site

variable (engine : Engine ε η) {operator : Operator} {table : Batch}

/-- A rank offers what a conversion needs. -/
theorem onRank_hosts {rank size : Nat} {stored : ResultId → Option Batch}
    (hands : ∀ action : StateM ε (Except Stop Batch),
      operator.asks? (.ofRank rank size (fun _ => none) stored) = some action →
        ∀ state, action.run state = (.ok table, state)) :
    (onRank engine rank size stored).Hosts engine operator table where
  creates _ _ _ _ _ after ran := ⟨after, EngineAction.stopping_run ran, rfl, id⟩
  hands state action _ asked := ⟨state, hands action asked state, rfl⟩

/-- So does the coordinator. -/
theorem atCoordinator_hosts {world later : World} {fleet last : Fleet}
    (hands : ∀ action : StateT (Executor ε) (StateT World Dialogue) (Except Stop Batch),
      operator.asks? Executing.localResolver = some action → ∀ executor,
        Acts (action.run executor) world fleet (.ok table, executor) later last) :
    (atCoordinator engine world fleet).Hosts engine operator table where
  creates name output arguments state handle after ran :=
    ⟨({ state.1 with state := after }, state.2),
      Runs.engine (EngineAction.stopping_run ran) state.2.1 state.2.2, rfl, fun here => here⟩
  hands state action begun asked := by
    obtain ⟨executor, world, fleet⟩ := state
    cases begun
    exact ⟨(executor, later, last), hands action asked executor, rfl⟩

end Site

end Rankwise
