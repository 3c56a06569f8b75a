import Mathlib.Data.Finset.Card
import Mathlib.Data.Finset.Range
import Mathlib.Logic.Relation
import Rankwise.Plan.Conversion

/-!
# Plans without cycles

A node is grounded if following references from it comes to an end everywhere. Conversion of a plan
succeeds only if its root is grounded (`Converting.grounded_of_converts`), and if it is, neither the
limit on references nor anything outside of what the root refers to plays a part: conversions of two
plans that agree below the root are one and the same (`Converting.node_agree`), and so are the walks
that look for scans (`Arena.scans_agree`).
-/

namespace Rankwise

namespace Arena

/-- A node refers to another one. -/
def Refers (arena : Arena) (id other : NodeId) : Prop :=
  ∃ node, arena.nodes[id.index]? = some node ∧ ∃ reference ∈ node.references, reference.2 = other

/-- A node can be reached from another one by following references. -/
abbrev Reaches (arena : Arena) : NodeId → NodeId → Prop := Relation.ReflTransGen arena.Refers

/-- Following references from a node comes to an end everywhere, and never at a missing node. -/
inductive Grounded (arena : Arena) : NodeId → Prop
  | intro (id : NodeId) (node : Node) (found : arena.nodes[id.index]? = some node)
      (below : ∀ reference ∈ node.references, arena.Grounded reference.2) : arena.Grounded id

/-- Two plans have the same nodes wherever a node can be reached. -/
def Agrees (arena other : Arena) (root : NodeId) : Prop :=
  ∀ id, arena.Reaches root id → other.nodes[id.index]? = arena.nodes[id.index]?

variable {arena other : Arena} {id root : NodeId}

/-- What a grounded node refers to is grounded. -/
theorem Grounded.of_refers (grounded : arena.Grounded id) {child : NodeId}
    (refers : arena.Refers id child) : arena.Grounded child := by
  cases grounded with
  | intro _ node found below =>
    obtain ⟨same, foundToo, reference, member, rfl⟩ := refers
    obtain rfl := Option.some.inj (found.symm.trans foundToo)
    exact below reference member

/-- A grounded node does not lead back to itself. -/
theorem Grounded.not_around (grounded : arena.Grounded id) :
    ¬ Relation.TransGen arena.Refers id id := by
  induction grounded with
  | intro id node found below inductionHypothesis =>
    intro around
    obtain ⟨child, refers, back⟩ := Relation.TransGen.head'_iff.mp around
    obtain ⟨same, foundToo, reference, member, rfl⟩ := refers
    obtain rfl := Option.some.inj (found.symm.trans foundToo)
    have refers : arena.Refers id reference.2 := ⟨node, found, reference, member, rfl⟩
    exact inductionHypothesis reference member (Relation.TransGen.tail' back refers)

open Classical in
/-- The places that can be reached from a node. -/
noncomputable def places (arena : Arena) (id : NodeId) : Finset Nat :=
  (Finset.range arena.size).filter fun index => arena.Reaches id ⟨index⟩

open Classical in
/-- The places below a node are those of the nodes that can be reached from it. -/
theorem mem_places (arena : Arena) (id : NodeId) (index : Nat) :
    index ∈ arena.places id ↔ index < arena.size ∧ arena.Reaches id ⟨index⟩ := by
  rw [places, Finset.mem_filter, Finset.mem_range]

open Classical in
/-- Below a node there are no more places than there are nodes. -/
theorem card_places_le (arena : Arena) (id : NodeId) : (arena.places id).card ≤ arena.size :=
  le_of_le_of_eq (Finset.card_filter_le _ _) (Finset.card_range _)

/-- A grounded node is among those below it. -/
theorem Grounded.mem_places (grounded : arena.Grounded id) : id.index ∈ arena.places id := by
  cases grounded with
  | intro _ node found _ =>
    have inside := (List.getElem?_eq_some_iff.mp found).1
    exact (arena.mem_places id id.index).mpr ⟨inside, .refl⟩

/-- There is less to reach from what a grounded node refers to. -/
theorem Grounded.card_places_lt (grounded : arena.Grounded id) {child : NodeId}
    (refers : arena.Refers id child) : (arena.places child).card < (arena.places id).card := by
  apply Finset.card_lt_card
  constructor
  · intro index member
    obtain ⟨inside, reaches⟩ := (arena.mem_places child index).mp member
    exact (arena.mem_places id index).mpr ⟨inside, .head refers reaches⟩
  · intro all
    have back := ((arena.mem_places child id.index).mp (all grounded.mem_places)).2
    exact grounded.not_around (Relation.TransGen.head' refers back)

/-- A limit that is not below the number of places leaves a step for the node itself. -/
theorem Grounded.limit_pos (grounded : arena.Grounded id) (limit : Nat)
    (enough : (arena.places id).card ≤ limit) :
    ∃ rest, limit = rest + 1 ∧
      ∀ child, arena.Refers id child → (arena.places child).card ≤ rest := by
  have some := Finset.card_pos.mpr ⟨_, grounded.mem_places⟩
  obtain ⟨rest, rfl⟩ := Nat.exists_eq_add_of_le' (Nat.le_trans some enough)
  refine ⟨rest, rfl, ?_⟩
  intro child refers
  have less := grounded.card_places_lt refers
  omega

namespace Agrees

/-- Plans that agree have the same root node. -/
theorem same (agrees : arena.Agrees other root) :
    other.nodes[root.index]? = arena.nodes[root.index]? := agrees root .refl

/-- Plans that agree below a node agree below all that it refers to. -/
theorem of_refers (agrees : arena.Agrees other root) {child : NodeId}
    (refers : arena.Refers root child) : arena.Agrees other child :=
  fun id reaches => agrees id (.head refers reaches)

/-- In plans that agree below a node it refers to the same. -/
theorem refers (agrees : arena.Agrees other root) {child : NodeId}
    (refers : arena.Refers root child) : other.Refers root child := by
  obtain ⟨node, found, mentions⟩ := refers
  exact ⟨node, agrees.same.trans found, mentions⟩

/-- What is grounded in one of two plans that agree below it is so in the other. -/
theorem grounded (agrees : arena.Agrees other root) (grounded : arena.Grounded root) :
    other.Grounded root := by
  induction grounded with
  | intro id node found below inductionHypothesis =>
    apply Grounded.intro id node (agrees.same.trans found)
    intro reference member
    exact inductionHypothesis reference member
      (agrees.of_refers ⟨node, found, reference, member, rfl⟩)

end Agrees

/-- The walk visits a node that it has not visited yet. -/
theorem scansFrom_found (arena : Arena) (visited waiting : List NodeId) (id : NodeId) (node : Node)
    (isNew : id ∉ visited) (found : arena.nodes[id.index]? = some node) :
    arena.scansFrom visited (id :: waiting) =
      { arena.scansFrom (id :: visited) ((node.references.map Prod.snd).reverse ++ waiting) with
        found := ((scanned? node.content).map (id, ·)).toList ++
          (arena.scansFrom (id :: visited)
            ((node.references.map Prod.snd).reverse ++ waiting)).found } := by
  rw [scansFrom, dif_neg isNew]
  split
  case h_1 missing => rw [found] at missing; cases missing
  case h_2 nodeThere foundThere =>
    obtain rfl := Option.some.inj (foundThere.symm.trans found)
    rfl

/-- The walks that look for scans in two plans that agree are the same. -/
theorem scansFrom_agree (arena other : Arena) (visited waiting : List NodeId)
    (grounded : ∀ id ∈ waiting, arena.Grounded id)
    (agrees : ∀ id ∈ waiting, arena.Agrees other id) :
    other.scansFrom visited waiting = arena.scansFrom visited waiting := by
  induction visited, waiting using scansFrom.induct arena with
  | case1 visited => rw [scansFrom, scansFrom]
  | case2 visited id waiting isVisited inductionHypothesis =>
    rw [scansFrom, scansFrom, dif_pos isVisited, dif_pos isVisited]
    exact inductionHypothesis (fun later member => grounded later (List.mem_cons_of_mem id member))
      fun later member => agrees later (List.mem_cons_of_mem id member)
  | case3 visited id waiting isNew missing =>
    cases grounded id List.mem_cons_self with
    | intro _ node found _ =>
      rw [missing] at found
      cases found
  | case4 visited id waiting isNew node found _ inductionHypothesis =>
    have same := (agrees id List.mem_cons_self).same
    have further := inductionHypothesis
      (fun later member => by
        rcases List.mem_append.mp member with below | still
        · obtain ⟨reference, mentioned, rfl⟩ := List.mem_map.mp (List.mem_reverse.mp below)
          exact (grounded id List.mem_cons_self).of_refers
            ⟨node, found, reference, mentioned, rfl⟩
        · exact grounded later (List.mem_cons_of_mem id still))
      fun later member => by
        rcases List.mem_append.mp member with below | still
        · obtain ⟨reference, mentioned, rfl⟩ := List.mem_map.mp (List.mem_reverse.mp below)
          exact (agrees id List.mem_cons_self).of_refers ⟨node, found, reference, mentioned, rfl⟩
        · exact agrees later (List.mem_cons_of_mem id still)
    rw [arena.scansFrom_found visited waiting id node isNew found,
      other.scansFrom_found visited waiting id node isNew (same.trans found), further]

/-- Two plans that agree below a grounded root make the same scans. -/
theorem scans_agree (agrees : arena.Agrees other root) (grounded : arena.Grounded root) :
    other.scans root = arena.scans root := by
  apply scansFrom_agree
  · intro id member
    exact List.mem_singleton.mp member ▸ grounded
  · intro id member
    exact List.mem_singleton.mp member ▸ agrees

end Arena

namespace Converting

variable {η : Type} {m : Type → Type} [Monad m]

/-- The conversion of a node that is not built yet, in terms of the node. -/
theorem build_node [LawfulMonad m] {α : Type} (node : Node) (next : Node → Converting η m α) :
    (ExceptT.mk (pure (.ok node)) >>= next : Converting η m α) = next node := by
  apply ExceptT.ext
  simp [ExceptT.run_bind]

/-- Builds a node, given how the nodes it refers to are converted. -/
def construct (arena : Arena) (resolver : Resolver m)
    (create : String → OutputSchema → List (EngineArgument η) → m (Except Stop η))
    (convert : NodeId → Converting η m η) (id : NodeId) : Converting η m η := do
  let node ← ExceptT.mk (pure ((arena.node id).mapError Stop.failed))
  let arguments ← operands resolver convert (combinesTwo node) node.operands
  let handle ← outside (create node.name node.output arguments)
  if !node.isExpression then modify fun built => (id, handle) :: built
  return handle

section Steps

variable [LawfulMonad m] (arena : Arena) (resolver : Resolver m)
  (create : String → OutputSchema → List (EngineArgument η) → m (Except Stop η)) (limit : Nat)
  (id : NodeId) (built : Built η)

/-- A node is converted by looking it up among those that are built, and by constructing it if it is
not there. -/
theorem run_nodeWithin :
    (nodeWithin arena resolver create (limit + 1) id).run.run built =
      match built.lookup id with
      | some handle => pure (.ok handle, built)
      | none =>
        (construct arena resolver create (nodeWithin arena resolver create limit) id).run.run
          built := by
  have looked : (ExceptT.run get : StateT (Built η) m (Except Stop (Built η))).run built =
      pure (.ok built, built) := by
    show (Except.ok <$> (get : StateT (Built η) m (Built η))).run built = _
    rw [StateT.run_map, StateT.run_get, map_pure]
  rw [nodeWithin, ExceptT.run_bind, StateT.run_bind, looked, pure_bind]
  dsimp only
  cases built.lookup id with
  | some handle => rfl
  | none => rfl

end Steps

mutual

/-- Of the conversion of nodes an operand needs only that of the nodes it refers to. -/
theorem operand_congr (resolver : Resolver m) (convert another : NodeId → Converting η m η)
    (combinesTwo : Bool) (found : Operand)
    (same : ∀ reference ∈ found.references, convert reference.2 = another reference.2) :
    operand resolver convert combinesTwo found = operand resolver another combinesTwo found := by
  cases found with
  | input id =>
    have equal := same (.input, id) List.mem_cons_self
    rw [operand, operand, equal]
  | source id =>
    have equal := same (.source, id) List.mem_cons_self
    rw [operand, operand, equal]
  | expression id =>
    have equal := same (.expression, id) List.mem_cons_self
    rw [operand, operand, equal]
  | list items =>
    rw [operand, operand, operands_congr resolver convert another combinesTwo items same]
  | _ => rfl

/-- Operands come to the same if the nodes that they refer to do. -/
theorem operands_congr (resolver : Resolver m) (convert another : NodeId → Converting η m η)
    (combinesTwo : Bool) (items : List Operand)
    (same : ∀ reference ∈ Operand.referencesOf items,
      convert reference.2 = another reference.2) :
    operands resolver convert combinesTwo items = operands resolver another combinesTwo items := by
  cases items with
  | nil => rfl
  | cons first rest =>
    rw [operands, operands,
      operand_congr resolver convert another combinesTwo first fun reference member =>
        same reference (List.mem_append_left _ member),
      operands_congr resolver convert another combinesTwo rest fun reference member =>
        same reference (List.mem_append_right _ member)]

end

/-- Conversions of a grounded node in plans that agree below it are the same, whatever the limits.
-/
theorem nodeWithin_agree [LawfulMonad m] (arena other : Arena) (resolver : Resolver m)
    (create : String → OutputSchema → List (EngineArgument η) → m (Except Stop η)) (id : NodeId)
    (grounded : arena.Grounded id) (agrees : arena.Agrees other id) (limit least : Nat)
    (enough : (arena.places id).card ≤ limit) (enoughToo : (other.places id).card ≤ least) :
    nodeWithin other resolver create least id = nodeWithin arena resolver create limit id := by
  have groundedToo := agrees.grounded grounded
  induction grounded generalizing limit least with
  | intro id node found below inductionHypothesis =>
    obtain ⟨rest, rfl, further⟩ := (Arena.Grounded.intro id node found below).limit_pos _ enough
    obtain ⟨restToo, rfl, furtherToo⟩ := groundedToo.limit_pos _ enoughToo
    have refers (reference : Role × NodeId) (member : reference ∈ node.references) :
        arena.Refers id reference.2 := ⟨node, found, reference, member, rfl⟩
    have here : arena.node id = .ok node := by rw [Arena.node, found]
    have there : other.node id = .ok node := by rw [Arena.node, agrees.same, found]
    have children : operands resolver (nodeWithin other resolver create restToo)
        (combinesTwo node) node.operands =
          operands resolver (nodeWithin arena resolver create rest) (combinesTwo node)
            node.operands := by
      apply operands_congr
      intro reference member
      have mentioned := refers reference member
      exact inductionHypothesis reference member (agrees.of_refers mentioned) rest restToo
        (further _ mentioned) (furtherToo _ (agrees.refers mentioned))
        (groundedToo.of_refers (agrees.refers mentioned))
    simp only [nodeWithin, here, there, Except.mapError, build_node, children]

/-- Conversions of a grounded node in plans that agree below it are the same. -/
theorem node_agree [LawfulMonad m] {arena other : Arena} (resolver : Resolver m)
    (create : String → OutputSchema → List (EngineArgument η) → m (Except Stop η)) {root : NodeId}
    (grounded : arena.Grounded root) (agrees : arena.Agrees other root) :
    node other resolver create root = node arena resolver create root := by
  apply nodeWithin_agree arena other resolver create root grounded agrees
  · have most := arena.card_places_le root
    unfold Arena.walkLimit
    omega
  · have most := other.card_places_le root
    unfold Arena.walkLimit
    omega

/-! A conversion that succeeds has come to an end everywhere. -/

section Success

variable {ε α β : Type} {holds : NodeId → Prop}

/-- If nodes for which this holds are built already and the conversion succeeds, this is true then,
and no others are built. -/
def Keeps (holds : NodeId → Prop) (converting : Converting η (StateM ε) α) (after : Prop) : Prop :=
  ∀ built state, (∀ entry ∈ built, holds entry.1) → ∀ value later last,
    (converting.run.run built).run state = ((.ok value, later), last) →
      after ∧ ∀ entry ∈ later, holds entry.1

/-- The second of two conversions starts where the first has ended, unless the first has stopped. -/
theorem run_bind (first : Converting η (StateM ε) α) (next : α → Converting η (StateM ε) β)
    (built : Built η) (state : ε) :
    ((first >>= next).run.run built).run state =
      match (first.run.run built).run state with
      | ((.ok value, later), last) => ((next value).run.run later).run last
      | ((.error stop, later), last) => ((.error stop, later), last) := by
  rw [ExceptT.run_bind, StateT.run_bind, StateT.run_bind]
  generalize (first.run.run built).run state = ran
  obtain ⟨⟨result, later⟩, last⟩ := ran
  cases result with
  | error stop => rfl
  | ok value => rfl

namespace Keeps

/-- To give a value builds nothing. -/
theorem pure (value : α) : Keeps holds (Pure.pure value : Converting η (StateM ε) α) True := by
  intro built state held result later last same
  obtain ⟨both, -⟩ := Prod.mk.inj same
  obtain ⟨-, rfl⟩ := Prod.mk.inj both
  exact ⟨trivial, held⟩

/-- What two conversions keep they keep one after the other. -/
theorem bind {first : Converting η (StateM ε) α} {next : α → Converting η (StateM ε) β}
    {between after : Prop} (begun : Keeps holds first between)
    (continued : between → ∀ value, Keeps holds (next value) after) :
    Keeps holds (first >>= next) (between ∧ after) := by
  intro built state held result later last same
  rw [run_bind] at same
  split at same
  case h_1 value middle rest ran =>
    obtain ⟨here, heldThen⟩ := begun built state held value middle rest ran
    obtain ⟨there, heldLast⟩ := continued here value middle rest heldThen result later last same
    exact ⟨⟨here, there⟩, heldLast⟩
  case h_2 => cases same

/-- Less may be said once a conversion has succeeded. -/
theorem weaken {converting : Converting η (StateM ε) α} {strong weak : Prop}
    (keeps : Keeps holds converting strong) (implies : strong → weak) :
    Keeps holds converting weak := by
  intro built state held value later last same
  obtain ⟨here, heldThen⟩ := keeps built state held value later last same
  exact ⟨implies here, heldThen⟩

/-- An action outside builds nothing. -/
theorem outside (action : StateM ε (Except Stop α)) :
    Keeps holds (Converting.outside action : Converting η (StateM ε) α) True := by
  intro built state held value later last same
  obtain ⟨both, -⟩ := Prod.mk.inj same
  obtain ⟨-, rfl⟩ := Prod.mk.inj both
  exact ⟨trivial, held⟩

/-- A conversion that starts anew keeps what it keeps otherwise. -/
theorem onItsOwn {converting : Converting η (StateM ε) α} {after : Prop}
    (keeps : Keeps holds converting after) :
    Keeps holds (Converting.onItsOwn converting) after := by
  intro built state held value later last same
  have ran : ((converting.run.run []).run state).1.1 = .ok value := (Prod.mk.inj (Prod.mk.inj same).1).1
  have rest : built = later := (Prod.mk.inj (Prod.mk.inj same).1).2
  obtain ⟨here, -⟩ := keeps [] state (fun _ member => absurd member List.not_mem_nil) value _ _
    (Prod.ext (Prod.ext ran rfl) rfl)
  exact ⟨here, rest ▸ held⟩

end Keeps

mutual

/-- To convert an operand builds the nodes that it refers to. -/
theorem keeps_operand (resolver : Resolver (StateM ε)) (convert : NodeId → Converting η (StateM ε) η)
    (combinesTwo : Bool) (found : Operand)
    (each : ∀ reference ∈ found.references, Keeps holds (convert reference.2) (holds reference.2)) :
    Keeps holds (operand resolver convert combinesTwo found)
      (∀ reference ∈ found.references, holds reference.2) := by
  have alone (role : Role) (id : NodeId) (here : holds id) :
      ∀ reference ∈ [(role, id)], holds reference.2 := by
    intro reference member
    exact List.mem_singleton.mp member ▸ here
  have none (items : List (Role × NodeId)) (empty : items = []) :
      ∀ reference ∈ items, holds reference.2 := by
    intro reference member
    exact absurd (empty ▸ member) List.not_mem_nil
  cases found with
  | input id =>
    have converts := each (.input, id) List.mem_cons_self
    rw [operand]
    split
    case isTrue =>
      exact (Keeps.bind converts.onItsOwn fun _ handle => Keeps.pure _).weaken
        fun both => alone .input id both.1
    case isFalse =>
      exact (Keeps.bind converts fun _ handle => Keeps.pure _).weaken
        fun both => alone .input id both.1
  | source id =>
    have converts := each (.source, id) List.mem_cons_self
    rw [operand]
    exact (Keeps.bind converts fun _ handle => Keeps.pure _).weaken
      fun both => alone .source id both.1
  | expression id =>
    have converts := each (.expression, id) List.mem_cons_self
    rw [operand]
    exact (Keeps.bind converts fun _ handle => Keeps.pure _).weaken
      fun both => alone .expression id both.1
  | list items =>
    rw [operand]
    exact (Keeps.bind (keeps_operands resolver convert combinesTwo items each)
      fun _ handles => Keeps.pure _).weaken fun both => both.1
  | table batch =>
    rw [operand]
    exact (Keeps.bind (Keeps.outside _) fun _ found => Keeps.pure _).weaken fun _ => none _ rfl
  | lazyTable table =>
    rw [operand]
    exact (Keeps.bind (Keeps.outside _) fun _ found => Keeps.pure _).weaken fun _ => none _ rfl
  | _ => exact (Keeps.pure _).weaken fun _ => none _ rfl

/-- To convert operands builds the nodes that they refer to. -/
theorem keeps_operands (resolver : Resolver (StateM ε))
    (convert : NodeId → Converting η (StateM ε) η) (combinesTwo : Bool) (items : List Operand)
    (each : ∀ reference ∈ Operand.referencesOf items,
      Keeps holds (convert reference.2) (holds reference.2)) :
    Keeps holds (operands resolver convert combinesTwo items)
      (∀ reference ∈ Operand.referencesOf items, holds reference.2) := by
  cases items with
  | nil =>
    exact (Keeps.pure _).weaken fun _ reference member => absurd member List.not_mem_nil
  | cons first rest =>
    have last := keeps_operands resolver convert combinesTwo rest fun reference member =>
      each reference (List.mem_append_right _ member)
    have before := keeps_operand resolver convert combinesTwo first fun reference member =>
      each reference (List.mem_append_left _ member)
    rw [operands]
    apply (Keeps.bind last fun _ handles => Keeps.bind before fun _ handle => Keeps.pure _).weaken
    intro both reference member
    rcases List.mem_append.mp member with here | there
    · exact both.2.1 reference here
    · exact both.1 reference there

end

/-- A node is constructed only if all below it is grounded. -/
theorem keeps_construct (arena : Arena) (resolver : Resolver (StateM ε))
    (create : String → OutputSchema → List (EngineArgument η) → StateM ε (Except Stop η))
    (convert : NodeId → Converting η (StateM ε) η)
    (converts : ∀ id, Keeps arena.Grounded (convert id) (arena.Grounded id)) (id : NodeId) :
    Keeps arena.Grounded (construct arena resolver create convert id) (arena.Grounded id) := by
  unfold construct
  cases found : arena.nodes[id.index]? with
  | none =>
    intro built state held value later last same
    rw [Arena.node, found] at same
    cases same
  | some node =>
    have here : arena.node id = .ok node := by rw [Arena.node, found]
    rw [here, Except.mapError, build_node]
    have below := keeps_operands resolver convert (combinesTwo node) node.operands
      fun reference _ => converts reference.2
    have grounded (all : ∀ reference ∈ node.references, arena.Grounded reference.2) :
        arena.Grounded id := .intro id node found all
    refine Keeps.weaken (Keeps.bind below ?_) fun both : _ ∧ True => grounded both.1
    intro all arguments
    refine Keeps.weaken (Keeps.bind (Keeps.outside _) ?_) fun _ : True ∧ True => trivial
    intro _ handle
    split
    case isTrue =>
      intro built state held value later last same
      obtain ⟨both, -⟩ := Prod.mk.inj same
      obtain ⟨-, rfl⟩ := Prod.mk.inj both
      refine ⟨trivial, ?_⟩
      intro entry member
      rcases List.mem_cons.mp member with rfl | before
      · exact grounded all
      · exact held entry before
    case isFalse => exact Keeps.pure handle

/-- A node is converted only if it is grounded. -/
theorem keeps_nodeWithin (arena : Arena) (resolver : Resolver (StateM ε))
    (create : String → OutputSchema → List (EngineArgument η) → StateM ε (Except Stop η))
    (limit : Nat) (id : NodeId) :
    Keeps arena.Grounded (nodeWithin arena resolver create limit id) (arena.Grounded id) := by
  induction limit generalizing id with
  | zero =>
    intro built state held value later last same
    cases same
  | succ limit inductionHypothesis =>
    intro built state held value later last same
    rw [run_nodeWithin] at same
    split at same
    case h_1 handle known =>
      obtain ⟨both, -⟩ := Prod.mk.inj same
      obtain ⟨-, rfl⟩ := Prod.mk.inj both
      obtain ⟨before, after, listed, -⟩ := List.lookup_eq_some_iff.mp known
      exact ⟨held (id, handle) (listed ▸ List.mem_append_right before List.mem_cons_self), held⟩
    case h_2 =>
      exact keeps_construct arena resolver create _ inductionHypothesis id built state held value
        later last same

end Success

end Converting

namespace Arena

variable {ε η : Type} {arena other : Arena} {root : NodeId}

/-- Two plans that agree below a grounded root are one to the engine. -/
theorem convert_agree (engine : Engine ε η) (resolver : Resolver (StateM ε))
    (grounded : arena.Grounded root) (agrees : arena.Agrees other root) :
    other.convert engine resolver root = arena.convert engine resolver root := by
  let create name output arguments := (engine.create name output arguments).stopping
  have same := Converting.node_agree resolver create grounded agrees
  exact congrArg (fun converting : Converting η (StateM ε) η => do
    return (← converting.run.run []).1) same

/-- Only what is grounded is converted. -/
theorem grounded_of_converts (engine : Engine ε η) (resolver : Resolver (StateM ε)) (handle : η)
    (state later : ε)
    (converts : (arena.convert engine resolver root).run state = (.ok handle, later)) :
    arena.Grounded root := by
  let create name output arguments := (engine.create name output arguments).stopping
  have keeps := Converting.keeps_nodeWithin arena resolver create arena.walkLimit root
  have ran : ((Converting.node arena resolver create root).run.run []).run state =
      ((.ok handle, (((Converting.node arena resolver create root).run.run []).run state).1.2),
        later) := by
    obtain ⟨result, last⟩ := Prod.mk.inj converts
    exact Prod.ext (Prod.ext result rfl) last
  exact (keeps [] state (fun _ member => absurd member List.not_mem_nil) handle _ _ ran).1

end Arena

end Rankwise
