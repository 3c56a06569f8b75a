import Rankwise.Proofs.Formulas
import Rankwise.Proofs.Tracking

/-!
# Who owns handles

Converting a plan hands every handle over at most once. While an operator is converted, the handles
that are left are those of others, which it never touches, and at most the one of the relation below
(`Converting.Ready`). Expressions borrow that relation and add their own handles to the others
(`evaluating_expression`). The operator takes all of these over and leaves its own
(`builds_operator`). By induction on the limit this holds for all nodes, if all expressions are over
the relation below their operator, and what is left in the end is the root
(`Arena.convert_keeps_ownership`).
-/

namespace Rankwise

namespace Arena

/-- The expressions of an operator are over the relation below it. -/
def OwnSources (arena : Arena) (id : NodeId) : Prop :=
  ∀ operator, arena.operator id = .ok operator → ∀ input ∈ operator.inputs,
    ∀ part ∈ operator.expressions, arena.sourceOf part = .ok input

end Arena

namespace Converting

variable {ε η : Type}

/-- A relation is built and besides its handle only the others are left. -/
structure Stands (arena : Arena) (id : NodeId) (handle : Nat × η) (others : Finset Nat)
    (built : Built (Nat × η)) (ledger : Ledger) : Prop where
  known : built.lookup id = some handle
  new : handle.1 ∉ others
  opened : ledger.opened = insert handle.1 others
  operators : ∀ entry ∈ built, arena.isExpression entry.1 = false

/-- A relation can be asked for: nothing is built yet and only the others are left, or the relation
stands. -/
def Ready (arena : Arena) (id : NodeId) (others : Finset Nat) (built : Built (Nat × η))
    (ledger : Ledger) : Prop :=
  built = [] ∧ ledger.opened = others ∨ ∃ handle, Stands arena id handle others built ledger

section States

variable {arena : Arena} {id : NodeId} {handle : Nat × η} {others : Finset Nat}
  {built : Built (Nat × η)} {ledger : Ledger}

/-- The handles that are open for others are open. -/
theorem Ready.subset (ready : Ready arena id others built ledger) : others ⊆ ledger.opened := by
  rcases ready with ⟨-, opened⟩ | ⟨handle, stands⟩
  · exact opened ▸ Finset.Subset.refl others
  · exact stands.opened ▸ Finset.subset_insert handle.1 others

/-- Expressions are never among what is built. -/
theorem Ready.lookup_expression (ready : Ready arena id others built ledger) {part : NodeId}
    (isExpression : arena.isExpression part = true) : built.lookup part = none := by
  rcases ready with ⟨rfl, -⟩ | ⟨handle, stands⟩
  · rfl
  · rw [List.lookup_eq_none_iff]
    intro entry member
    have operator := stands.operators entry member
    rw [bne_iff_ne]
    rintro rfl
    rw [isExpression] at operator
    cases operator

/-- The handles that were collected can be passed. -/
theorem Collects.fits {count : Nat} {passings : List Passing}
    (collects : Collects (Ready arena id) others count passings built ledger) :
    ledger.Fits passings := by
  obtain ⟨numbers, rfl, -, unlike, -, ready⟩ := collects
  constructor
  · rw [List.pairwise_map]
    refine unlike.imp fun {earlier later} different same => different ?_
    exact Passing.owned.inj same
  · intro passing member
    obtain ⟨number, listed, rfl⟩ := List.mem_map.mp member
    exact ready.subset (Finset.mem_union_right _ (List.mem_toFinset.mpr listed))

/-- Handles that are passed to go over go over. -/
theorem filterMap_taken_owned (numbers : List Nat) :
    (numbers.map Passing.owned).filterMap Passing.taken? = numbers := by
  rw [List.filterMap_map]
  exact List.filterMap_some

/-- An expression that takes over the collected handles leaves the relation ready, with its own
handle among the others. -/
theorem Collects.ready {count : Nat} {passings : List Passing} {earlier : Ledger}
    (collects : Collects (Ready arena id) others count passings built earlier)
    (opened : ledger.opened = insert earlier.length
      (earlier.opened \ (passings.filterMap Passing.taken?).toFinset)) :
    earlier.length ∉ others ∧ Ready arena id (insert earlier.length others) built ledger := by
  obtain ⟨numbers, rfl, -, -, new, ready⟩ := collects
  have isNew := earlier.length_not_mem_opened
  have gone : others \ numbers.toFinset = others :=
    Finset.sdiff_eq_self_of_disjoint (Finset.disjoint_right.mpr fun number member =>
      new number (List.mem_toFinset.mp member))
  rw [filterMap_taken_owned] at opened
  refine ⟨fun member => isNew (ready.subset (Finset.mem_union_left _ member)), ?_⟩
  rcases ready with ⟨rfl, openedBefore⟩ | ⟨handle, stands⟩
  · rw [openedBefore, Finset.union_sdiff_right, gone] at opened
    exact .inl ⟨rfl, opened⟩
  · have open_ : handle.1 ∈ earlier.opened := stands.opened ▸ Finset.mem_insert_self _ _
    have still := stands.new
    rw [Finset.mem_union, not_or] at still
    refine .inr ⟨handle, stands.known, ?_, ?_, stands.operators⟩
    · rw [Finset.mem_insert, not_or]
      exact ⟨fun same => isNew (same ▸ open_), still.1⟩
    · rw [opened, stands.opened, Finset.insert_sdiff_of_notMem _ still.2, Finset.union_sdiff_right,
        gone, Finset.insert_comm]

end States

end Converting

namespace Converting

variable {ε η : Type} (engine : Engine ε η) (resolver : Resolver (StateM ε)) (arena : Arena)

/-- Converting a node for the strict engine. -/
abbrev strictNode (limit : Nat) (id : NodeId) :
    Converting (Nat × η) (StateM (ε × Ledger)) (Nat × η) :=
  nodeWithin arena resolver.beside (strictCreate engine) limit id

/-- Converting a node for the engine. -/
abbrev plainNode (limit : Nat) (id : NodeId) : Converting η (StateM ε) η :=
  nodeWithin arena resolver (plainCreate engine) limit id

/-- A relation that is ready stands when it has been converted. -/
def Builds (limit : Nat) (id : NodeId) : Prop :=
  ∀ others, Tracks (Ready arena id others) (strictNode engine resolver arena limit id)
    (plainNode engine resolver arena limit id) Prod.snd
    fun handle => Stands arena id handle others

/-- A relation that is ready stays ready when an expression over it is converted, and the handle of
the expression is one of the others then. -/
def Evaluating (limit : Nat) (source id : NodeId) : Prop :=
  Opens (Ready arena source) (strictNode engine resolver arena limit id)
    (plainNode engine resolver arena limit id)

variable {engine resolver arena} {limit : Nat} {source id : NodeId} {formula : Formula}

/-- Operands that refer to nothing pass no handles. -/
theorem tracks_plain (convert : NodeId → Converting (Nat × η) (StateM (ε × Ledger)) (Nat × η))
    (convertPlain : NodeId → Converting η (StateM ε) η) (combinesTwo : Bool) {items : List Operand}
    (none : Operand.referencesOf items = []) (held : Built (Nat × η) → Ledger → Prop) :
    Tracks held (operands resolver.beside convert combinesTwo items)
      (operands resolver convertPlain combinesTwo items) EngineArgument.bareAll
      fun arguments built ledger =>
        EngineArgument.passingsOf arguments = [] ∧ held built ledger := by
  have tracks := tracks_operands (fun _ => held) resolver convert convertPlain combinesTwo items
    (fun reference member => absurd (none ▸ member) List.not_mem_nil) ∅
  refine tracks.weaken (fun _ _ here => here) ?_
  rintro arguments built ledger ⟨numbers, passed, count, -, -, here⟩
  rw [none] at count
  obtain rfl := List.length_eq_zero_iff.mp count
  exact ⟨passed, here⟩

/-- A relation that stands can be borrowed. -/
theorem Stands.fits {handle : Nat × η} {others : Finset Nat} {built : Built (Nat × η)}
    {ledger : Ledger} (stands : Stands arena id handle others built ledger) :
    ledger.Fits [.borrowed handle.1] := by
  refine ⟨List.pairwise_singleton _ _, ?_⟩
  rw [List.forall_mem_singleton]
  exact stands.opened ▸ Finset.mem_insert_self _ _

/-- An expression that refers to its source alone borrows the relation, which stands from then on.
-/
theorem tracks_overSource {rest : List Operand} (combinesTwo : Bool)
    (builds : Builds engine resolver arena limit source) (none : Operand.referencesOf rest = [])
    (others : Finset Nat) :
    Tracks (Ready arena source others)
      (operands resolver.beside (strictNode engine resolver arena limit) combinesTwo
        (.source source :: rest))
      (operands resolver (plainNode engine resolver arena limit) combinesTwo (.source source :: rest))
      EngineArgument.bareAll
      fun arguments built ledger => ∃ handle,
        EngineArgument.passingsOf arguments = [.borrowed handle.1] ∧
          Stands arena source handle others built ledger := by
  rw [operands, operands]
  refine .bind (tracks_plain _ _ _ none _) fun arguments => ?_
  have borrows : Tracks (fun built ledger =>
        EngineArgument.passingsOf arguments = [] ∧ Ready arena source others built ledger)
      (operand resolver.beside (strictNode engine resolver arena limit) combinesTwo (.source source))
      (operand resolver (plainNode engine resolver arena limit) combinesTwo (.source source))
      EngineArgument.bare
      fun argument built ledger => ∃ handle,
        EngineArgument.passingsOf (argument :: arguments) = [.borrowed handle.1] ∧
          Stands arena source handle others built ledger := by
    rw [operand, operand]
    rintro before state ledger ⟨nothing, ready⟩ orderly
    refine Tracks.bind (builds others) (fun handle => ?_) before state ledger ready orderly
    refine .pure rfl fun _ _ stands => ⟨handle, ?_, stands⟩
    rw [EngineArgument.passingsOf, nothing]
    rfl
  exact .bind borrows fun argument => .pure rfl fun _ _ borrowed => borrowed

/-- An expression evaluates to a handle of its own if its relations and parts do. -/
theorem evaluating_expression (built : arena.IsBuilt) (spells : arena.Spells source id formula)
    (relations : ∀ child, arena.Refers id child → ∀ operator, arena.operator child = .ok operator →
      Builds engine resolver arena limit child)
    (parts : ∀ child, arena.Refers id child → ∀ below, arena.Spells source child below →
      Evaluating engine resolver arena limit source child) :
    Evaluating engine resolver arena (limit + 1) source id := by
  obtain ⟨expression, found⟩ := spells.expression
  obtain ⟨node, there, content⟩ := (Arena.expression_iff _).mp found
  have sort : node.isExpression = true := by rw [Node.isExpression, content]
  have isExpression : arena.isExpression id = true := by
    rw [Arena.isExpression, there]
    exact sort
  have operands : node.operands = expression.operands := by rw [Node.operands, content]
  have refers (reference : Role × NodeId)
      (member : reference ∈ Operand.referencesOf expression.operands) :
      arena.Refers id reference.2 :=
    ⟨node, there, reference, by rwa [Node.references, operands], rfl⟩
  intro others
  refine tracks_nodeWithin engine resolver (fun handle built ledger ready known => ?_) ?_
  · rw [ready.lookup_expression isExpression] at known
    cases known
  -- An expression takes over its parts, or it is lent its relation.
  rcases expression.operands_cases with composite | ⟨relation, rest, names, listed, none⟩
  · refine (tracks_construct engine resolver there (Collects (Ready arena source) others
      (Operand.referencesOf expression.operands).length) ?_).weaken (fun _ _ here => here.1) ?_
    · rw [operands]
      refine (tracks_operands _ resolver _ _ _ expression.operands (fun reference member => ?_)
        others).weaken (fun _ _ here => here) fun _ _ _ collects => ⟨collects.fits, collects⟩
      obtain ⟨role, listed⟩ := composite reference member
      obtain ⟨below, spellsBelow, -⟩ := spells.part found listed
      exact ⟨role, parts reference.2 (refers reference member) below spellsBelow⟩
    · rintro handle built ledger ⟨earlier, passings, before, collects, number, opened, rfl⟩
      rw [sort, number]
      exact collects.ready opened
  · obtain rfl := spells.source?_eq found names
    have mentioned : (Role.source, relation) ∈ Operand.referencesOf expression.operands := by
      rw [listed]
      exact List.mem_cons_self
    obtain ⟨operator, foundBelow⟩ := (built.resolves there (.source, relation)
      (by rwa [Node.references, operands])).2.operator (by decide)
    have below := relations relation (refers _ mentioned) operator foundBelow
    refine (tracks_construct engine resolver there (fun passings built ledger =>
      ∃ handle, passings = [.borrowed handle.1] ∧ Stands arena relation handle others built ledger)
      ?_).weaken (fun _ _ here => here.1) ?_
    · rw [operands, listed]
      refine (tracks_overSource _ below none others).weaken (fun _ _ here => here) ?_
      rintro arguments built ledger ⟨handle, passed, stands⟩
      exact ⟨passed ▸ stands.fits, handle, passed, stands⟩
    · rintro handle built ledger ⟨earlier, _, before, ⟨under, rfl, stands⟩, number, opened, rfl⟩
      rw [sort, number]
      have collects : Collects (Ready arena relation) others 0 [] before earlier :=
        .none (.inr ⟨under, stands⟩)
      exact collects.ready opened

/-- These handles can be passed, and then only the others are left. -/
structure Leaves (arena : Arena) (others : Finset Nat) (passings : List Passing)
    (built : Built (Nat × η)) (ledger : Ledger) : Prop where
  fits : ledger.Fits passings
  kept : others ⊆ ledger.opened
  gone : ledger.opened \ (passings.filterMap Passing.taken?).toFinset = others
  operators : ∀ entry ∈ built, arena.isExpression entry.1 = false

/-- Operands that pass on handles of their own leave those of others alone. -/
theorem Leaves.of_owned {others : Finset Nat} {passings : List Passing} {built : Built (Nat × η)}
    {ledger : Ledger} (numbers : List Nat) (passed : passings = numbers.map .owned)
    (unlike : numbers.Nodup) (new : ∀ number ∈ numbers, number ∉ others)
    (opened : ledger.opened = others ∪ numbers.toFinset)
    (operators : ∀ entry ∈ built, arena.isExpression entry.1 = false) :
    Leaves arena others passings built ledger := by
  subst passed
  refine ⟨⟨?_, ?_⟩, opened ▸ Finset.subset_union_left, ?_, operators⟩
  · rw [List.pairwise_map]
    exact unlike.imp fun different same => different (Passing.owned.inj same)
  · intro passing member
    obtain ⟨number, listed, rfl⟩ := List.mem_map.mp member
    exact opened ▸ Finset.mem_union_right _ (List.mem_toFinset.mpr listed)
  · rw [filterMap_taken_owned, opened, Finset.union_sdiff_right]
    exact Finset.sdiff_eq_self_of_disjoint (Finset.disjoint_right.mpr fun number member =>
      new number (List.mem_toFinset.mp member))

/-- An operator over one relation takes it over after its expressions. -/
theorem tracks_overOne {rest : List Operand} (builds : Builds engine resolver arena limit source)
    (parts : ∀ reference ∈ Operand.referencesOf rest, reference.1 = .expression ∧
      Evaluating engine resolver arena limit source reference.2) (others : Finset Nat) :
    Tracks (fun built ledger => built = [] ∧ ledger.opened = others)
      (operands resolver.beside (strictNode engine resolver arena limit) false
        (.input source :: rest))
      (operands resolver (plainNode engine resolver arena limit) false (.input source :: rest))
      EngineArgument.bareAll
      fun arguments => Leaves arena others (EngineArgument.passingsOf arguments) := by
  rw [operands, operands]
  have collects := tracks_operands (Ready arena source) resolver
    (strictNode engine resolver arena limit) (plainNode engine resolver arena limit) false rest
    parts others
  refine .bind (collects.weaken (fun _ _ fresh => .inl fresh) fun _ _ _ here => here)
    fun arguments => ?_
  rw [operand, operand, if_neg Bool.false_ne_true, if_neg Bool.false_ne_true, bind_assoc, bind_assoc]
  rintro before state ledger ⟨numbers, passed, -, unlike, new, ready⟩ orderly
  refine Tracks.bind (builds (others ∪ numbers.toFinset)) (fun handle => ?_) before state ledger
    ready orderly
  rw [pure_bind, pure_bind]
  refine .pure rfl fun built ledger stands =>
    .of_owned (handle.1 :: numbers) ?_ ?_ ?_ ?_ stands.operators
  · rw [EngineArgument.passingsOf, passed]
    rfl
  · exact List.nodup_cons.mpr ⟨fun member => stands.new
      (Finset.mem_union_right _ (List.mem_toFinset.mpr member)), unlike⟩
  · rw [List.forall_mem_cons]
    exact ⟨fun member => stands.new (Finset.mem_union_left _ member), new⟩
  · rw [stands.opened, List.toFinset_cons, Finset.union_insert]

/-- A relation that is built on its own leaves nothing behind but its handle. -/
theorem tracks_alone (builds : Builds engine resolver arena limit source) (others : Finset Nat) :
    Tracks (fun built ledger => built = [] ∧ ledger.opened = others)
      (operand resolver.beside (strictNode engine resolver arena limit) true (.input source))
      (operand resolver (plainNode engine resolver arena limit) true (.input source))
      EngineArgument.bare
      fun argument built ledger => ∃ number, argument.passings = [.owned number] ∧
        number ∉ others ∧ built = [] ∧ ledger.opened = insert number others := by
  rw [operand, operand]
  have alone := (builds others).weaken (fun built ledger fresh => .inl fresh)
    fun handle built ledger stands => And.intro stands.new stands.opened
  refine .bind (Tracks.onItsOwn alone) fun handle => .pure rfl ?_
  rintro built ledger ⟨fresh, new, opened⟩
  exact ⟨handle.1, rfl, new, fresh, opened⟩

/-- An operator takes over two relations that have been built apart from each other. -/
theorem tracks_fromTwo {left right : NodeId} {rest : List Operand}
    (buildsLeft : Builds engine resolver arena limit left)
    (buildsRight : Builds engine resolver arena limit right)
    (none : Operand.referencesOf rest = []) (others : Finset Nat) :
    Tracks (fun built ledger => built = [] ∧ ledger.opened = others)
      (operands resolver.beside (strictNode engine resolver arena limit) true
        (.input left :: .input right :: rest))
      (operands resolver (plainNode engine resolver arena limit) true
        (.input left :: .input right :: rest)) EngineArgument.bareAll
      fun arguments => Leaves arena others (EngineArgument.passingsOf arguments) := by
  rw [operands, operands, operands, operands, bind_assoc, bind_assoc]
  refine .bind (tracks_plain _ _ _ none _) fun arguments => ?_
  rw [bind_assoc, bind_assoc]
  rintro before state ledger ⟨nothing, fresh⟩ orderly
  refine Tracks.bind (tracks_alone buildsRight others) (fun second => ?_) before state ledger fresh
    orderly
  rw [pure_bind, pure_bind]
  rintro before state ledger ⟨number, passed, new, rfl, opened⟩ orderly
  refine Tracks.bind (tracks_alone buildsLeft (insert number others)) (fun first => ?_) [] state
    ledger ⟨rfl, opened⟩ orderly
  refine .pure rfl ?_
  rintro built ledger ⟨numberToo, passedToo, newToo, rfl, openedToo⟩
  rw [Finset.mem_insert, not_or] at newToo
  refine .of_owned [numberToo, number] ?_ ?_ ?_ ?_ nofun
  · rw [EngineArgument.passingsOf, EngineArgument.passingsOf, passedToo, passed, nothing]
    rfl
  · exact List.nodup_cons.mpr ⟨fun member => newToo.1 (List.mem_singleton.mp member),
      List.nodup_singleton number⟩
  · rw [List.forall_mem_cons, List.forall_mem_singleton]
    exact ⟨newToo.2, new⟩
  · rw [openedToo, List.toFinset_cons, List.toFinset_cons, List.toFinset_nil, Finset.union_insert,
      Finset.union_insert, Finset.union_empty]

/-- A relation whose operands leave only the others stands once it has been converted. -/
theorem builds_of_leaves {node : Node} (there : arena.nodes[id.index]? = some node)
    (sort : node.isExpression = false)
    (leaves : ∀ others, Tracks (fun built ledger => built = [] ∧ ledger.opened = others)
      (operands resolver.beside (strictNode engine resolver arena limit) (combinesTwo node)
        node.operands)
      (operands resolver (plainNode engine resolver arena limit) (combinesTwo node) node.operands)
      EngineArgument.bareAll
      fun arguments => Leaves arena others (EngineArgument.passingsOf arguments)) :
    Builds engine resolver arena (limit + 1) id := by
  have isExpression : arena.isExpression id = false := by
    rw [Arena.isExpression, there]
    exact sort
  intro others
  refine tracks_nodeWithin engine resolver (fun handle built ledger ready known => ?_) ?_
  · rcases ready with ⟨rfl, -⟩ | ⟨handleToo, stands⟩
    · cases known
    · obtain rfl := Option.some.inj (known.symm.trans stands.known)
      exact stands
  refine (tracks_construct engine resolver there (Leaves arena others)
    ((leaves others).weaken (fun _ _ fresh => fresh) fun _ _ _ here => ⟨here.fits, here⟩)).weaken
    ?_ ?_
  · rintro built ledger ⟨ready, new⟩
    rcases ready with fresh | ⟨handle, stands⟩
    · exact fresh
    · rw [stands.known] at new
      cases new
  · rintro handle built ledger ⟨earlier, passings, before, here, number, opened, rfl⟩
    rw [sort]
    refine ⟨List.lookup_cons_self, ?_, by rw [opened, here.gone, number], ?_⟩
    · rw [number]
      exact fun member => earlier.length_not_mem_opened (here.kept member)
    · exact List.forall_mem_cons.mpr ⟨isExpression, here.operators⟩

/-- An operator over relations that can be built, with expressions that can be evaluated over them,
leaves only what belongs to others. -/
theorem tracks_operatorOperands (operator : Operator)
    (below : ∀ input ∈ operator.inputs, Builds engine resolver arena limit input)
    (evaluating : ∀ input ∈ operator.inputs, ∀ part ∈ operator.expressions,
      Evaluating engine resolver arena limit input part) (others : Finset Nat) :
    Tracks (fun built ledger => built = [] ∧ ledger.opened = others)
      (operands resolver.beside (strictNode engine resolver arena limit) operator.combinesTwo
        operator.operands)
      (operands resolver (plainNode engine resolver arena limit) operator.combinesTwo
        operator.operands)
      EngineArgument.bareAll
      fun arguments => Leaves arena others (EngineArgument.passingsOf arguments) := by
  rcases operator.operands_cases with ⟨-, none, combinesTwo⟩ |
    ⟨source, rest, inputs, listed, expressions, combinesTwo⟩ |
    ⟨left, right, rest, inputs, listed, none, combinesTwo⟩
  · refine (tracks_plain _ _ _ none _).weaken (fun _ _ here => here) ?_
    rintro arguments built ledger ⟨nothing, rfl, opened⟩
    refine .of_owned [] nothing List.nodup_nil (List.forall_mem_nil _) ?_ fun _ wrong => by cases wrong
    rw [opened, List.toFinset_nil, Finset.union_empty]
  · rw [inputs] at below evaluating
    rw [listed, combinesTwo]
    refine tracks_overOne (below source (List.mem_singleton_self source))
      (fun reference member => ?_) others
    rw [expressions] at member
    obtain ⟨part, partMember, rfl⟩ := List.mem_map.mp member
    exact ⟨rfl, evaluating source (List.mem_singleton_self source) part partMember⟩
  · rw [inputs] at below
    rw [listed, combinesTwo]
    exact tracks_fromTwo (below left List.mem_cons_self)
      (below right (List.mem_cons_of_mem _ (List.mem_singleton_self right))) none others

/-- An operator is built, with each handle going over once, if its relations and expressions are. -/
theorem builds_operator (built : arena.IsBuilt) {operator : Operator}
    (found : arena.operator id = .ok operator) (own : arena.OwnSources id)
    (relations : ∀ child, arena.Refers id child → ∀ operator, arena.operator child = .ok operator →
      Builds engine resolver arena limit child)
    (parts : ∀ child, arena.Refers id child → ∀ source formula, arena.Spells source child formula →
      Evaluating engine resolver arena limit source child) :
    Builds engine resolver arena (limit + 1) id := by
  obtain ⟨node, there, content⟩ := (Arena.operator_iff _).mp found
  have references : node.references =
      operator.inputs.map (.input, ·) ++ operator.expressions.map (.expression, ·) := by
    rw [Node.references, Node.operands, content]
    exact operator.referencesOf_operands
  have below (input : NodeId) (member : input ∈ operator.inputs) :
      Builds engine resolver arena limit input := by
    have mentioned : (Role.input, input) ∈ node.references := by
      rw [references]
      exact List.mem_append_left _ (List.mem_map_of_mem member)
    obtain ⟨further, foundBelow⟩ := (built.resolves there _ mentioned).2.operator (by decide)
    exact relations input ⟨node, there, _, mentioned, rfl⟩ further foundBelow
  have evaluating (input : NodeId) (inputMember : input ∈ operator.inputs) (part : NodeId)
      (member : part ∈ operator.expressions) :
      Evaluating engine resolver arena limit input part := by
    have mentioned : (Role.expression, part) ∈ node.references := by
      rw [references]
      exact List.mem_append_right _ (List.mem_map_of_mem member)
    obtain ⟨formula, spells⟩ :=
      built.spells_sourceOf (own operator found input inputMember part member)
    exact parts part ⟨node, there, _, mentioned, rfl⟩ input formula spells
  refine builds_of_leaves there (by rw [Node.isExpression, content]) fun others => ?_
  rw [combinesTwo, Node.operands, content]
  exact tracks_operatorOperands operator below evaluating others

/-- Below a node under which all operators hold expressions over their own relations, relations are
built and expressions are evaluated, whatever the limit. -/
theorem tracks_limit (built : arena.IsBuilt) (limit : Nat) (id : NodeId)
    (own : ∀ other, arena.Reaches id other → arena.OwnSources other) :
    (∀ operator, arena.operator id = .ok operator → Builds engine resolver arena limit id) ∧
      ∀ source formula, arena.Spells source id formula →
        Evaluating engine resolver arena limit source id := by
  induction limit generalizing id with
  | zero => exact ⟨fun _ _ _ => .throw _, fun _ _ _ _ => .throw _⟩
  | succ limit inductionHypothesis =>
    have below (child : NodeId) (refers : arena.Refers id child) :=
      inductionHypothesis child fun other reaches => own other (.head refers reaches)
    constructor
    · intro operator found
      exact builds_operator built found (own id .refl) (fun child refers => (below child refers).1)
        fun child refers => (below child refers).2
    · intro source formula spells
      exact evaluating_expression built spells (fun child refers => (below child refers).1)
        fun child refers => (below child refers).2 source

/-- From nothing a node is converted to what leaves its own handle only, if it is an operator. -/
theorem tracks_root (built : arena.IsBuilt) (root : NodeId)
    (own : ∀ id, arena.Reaches root id → arena.OwnSources id) :
    Tracks (fun built ledger => built = [] ∧ ledger.opened = ∅)
      (node arena resolver.beside (strictCreate engine) root)
      (node arena resolver (plainCreate engine) root) Prod.snd
      fun handle _ ledger => ∀ operator, arena.operator root = .ok operator →
        ledger.opened = {handle.1} := by
  obtain ⟨builds, evaluating⟩ := tracks_limit built arena.walkLimit root own
  cases there : arena.nodes[root.index]? with
  | none =>
    refine tracks_nodeWithin engine resolver ?_ ?_
    · rintro handle built ledger ⟨rfl, -⟩ known
      cases known
    · have missing : arena.node root = .error (Arena.unknownNode root arena.size) := by
        rw [Arena.node, there]
      unfold construct
      rw [missing]
      intro before state ledger _ orderly
      exact ⟨.error _, before, state, ledger, rfl, rfl, orderly, fun _ wrong => by cases wrong⟩
  | some node =>
    cases content : node.content with
    | operator operator =>
      have found := (Arena.operator_iff operator).mpr ⟨node, there, content⟩
      refine (builds operator found ∅).weaken (fun _ _ fresh => .inl fresh) ?_
      intro handle built ledger stands _ _
      rw [stands.opened, insert_empty_eq]
    | expression expression =>
      have found := (Arena.expression_iff expression).mpr ⟨node, there, content⟩
      obtain ⟨source, formula, spells⟩ := built.spells found
      refine (evaluating source formula spells ∅).weaken (fun _ _ fresh => .inl fresh) ?_
      intro handle built ledger _ operator wrong
      obtain ⟨nodeToo, thereToo, contentToo⟩ := (Arena.operator_iff operator).mp wrong
      obtain rfl := Option.some.inj (there.symm.trans thereToo)
      rw [content] at contentToo
      cases contentToo

end Converting

namespace Arena

variable {ε η : Type}

/-- Converting a plan hands every handle over at most once and never uses it afterwards, so an
engine that refuses handles that have gone over is the same to it as one that does not care. If it
gives the handle of an operator, that one alone is left and the nodes that were built form a tree
below it. -/
theorem convert_keeps_ownership (arena : Arena) (engine : Engine ε η)
    (resolver : Resolver (StateM ε)) (root : NodeId) (state : ε) (built : arena.IsBuilt)
    (own : ∀ id, arena.Reaches root id → arena.OwnSources id) :
    ∃ result last ledger,
      (arena.convert engine.strict resolver.beside root).run (state, []) =
          (result, last, ledger) ∧
        (arena.convert engine resolver root).run state = (result.map Prod.snd, last) ∧
        ledger.Orderly ∧
        ∀ handle operator, result = .ok handle → arena.operator root = .ok operator →
          ledger.IsTree handle.1 := by
  obtain ⟨result, later, last, ledger, ran, ranPlain, orderly, after⟩ :=
    Converting.tracks_root built root own [] state [] ⟨rfl, rfl⟩ .empty
  refine ⟨result, last, ledger, ?_, ?_, orderly, ?_⟩
  · have outcome : (arena.convert engine.strict resolver.beside root).run (state, []) =
        (((Converting.node arena resolver.beside (Converting.strictCreate engine) root).run.run
            []).run (state, [])).map Prod.fst id := rfl
    rw [outcome, ran]
    rfl
  · have outcome : (arena.convert engine resolver root).run state =
        (((Converting.node arena resolver (Converting.plainCreate engine) root).run.run
            (Converting.bareBuilt [])).run state).map Prod.fst id := rfl
    rw [outcome, ranPlain]
    rfl
  · intro handle operator given found
    exact orderly.isTree (after handle given operator found)

/-- The rows of a table with equal columns, joined with themselves, and twice one column of that. -/
def selfJoin : Arena where
  nodes :=
    let field : Field := ⟨"a", .int64, false⟩
    let table : Batch := ⟨⟨[field, field]⟩, [[.int64 1], [.int64 1]], 1⟩
    [⟨.ofSchema ⟨[field, field]⟩, .operator (.tableScan table)⟩,
      ⟨.ofField field, .expression (.column ⟨0⟩ 0)⟩,
      ⟨.ofField field, .expression (.binary (.expression ⟨1⟩) (.expression ⟨1⟩) .equal)⟩,
      ⟨.ofSchema ⟨[field, field]⟩, .operator (.filter ⟨0⟩ ⟨2⟩)⟩,
      ⟨.ofSchema ⟨[field, field, field, field]⟩,
        .operator (.join ⟨3⟩ ⟨3⟩ .inner [{ left := 0, right := 0 }])⟩,
      ⟨.ofField field, .expression (.column ⟨4⟩ 0)⟩,
      ⟨.ofSchema ⟨[field, field]⟩, .operator (.projection ⟨4⟩ [⟨5⟩, ⟨5⟩])⟩]

/-- The plan came about by the calls of clients. -/
theorem selfJoin_built : selfJoin.IsBuilt :=
  .adding _ _ (.adding _ _ (.adding _ _ (.adding _ _ (.adding _ _ (.adding _ _ (.adding _ _ .empty
    rfl) rfl) rfl) rfl) rfl) rfl) rfl

/-- All expressions in the plan are over the relations that they are used with. -/
theorem selfJoin_own (id : NodeId) : selfJoin.OwnSources id := by
  obtain ⟨index⟩ := id
  intro operator found input inputMember part partMember
  rcases index with _ | _ | _ | _ | _ | _ | _ | index <;> cases found
  · cases partMember
  · obtain rfl := List.mem_singleton.mp inputMember
    obtain rfl := List.mem_singleton.mp partMember
    rfl
  · cases partMember
  · obtain rfl := List.mem_singleton.mp inputMember
    have same : part = ⟨5⟩ := by simpa [Operator.expressions] using partMember
    subst same
    rfl

/-- An engine that builds whatever it is asked for. -/
def agreeable : Engine Unit Unit where
  create _ _ _ := return ()
  optimize handle := return handle
  execute _ _ schema := return Batch.empty schema
  size _ _ := 0
  rows _ _ := none

/-- Tables as the plan holds them, and none on workers. -/
def atHand : Resolver (StateM Unit) where
  table batch := return .ok batch
  lazyTable _ := return .error (.failed Resolver.notScattered)

/-- Each side of the join takes five calls: for the scan, for the column that the predicate mentions
twice, for the predicate and for the filter. The join, the column that the projection mentions twice
and the projection take four more. -/
theorem selfJoin_keeps_ownership :
    ∃ last ledger,
      (selfJoin.convert agreeable.strict atHand.beside ⟨6⟩).run ((), []) =
          (.ok (13, ()), last, ledger) ∧
        (selfJoin.convert agreeable atHand ⟨6⟩).run () = (.ok (), last) ∧
        ledger.Orderly ∧ ledger.IsTree 13 := by
  obtain ⟨result, last, ledger, ran, ranPlain, orderly, tree⟩ :=
    selfJoin.convert_keeps_ownership agreeable atHand ⟨6⟩ () selfJoin_built
      fun id _ => selfJoin_own id
  have value : ((selfJoin.convert agreeable.strict atHand.beside ⟨6⟩).run ((), [])).1.toOption =
      some (13, ()) := by
    decide +kernel
  rw [ran] at value
  cases result with
  | error stop => cases value
  | ok handle =>
    obtain rfl : handle = (13, ()) := Option.some.inj value
    exact ⟨last, ledger, ran, ranPlain, orderly, tree (13, ()) _ rfl rfl⟩

end Arena

end Rankwise
