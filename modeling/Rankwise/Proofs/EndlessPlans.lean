import Rankwise.Proofs.RowPlans

/-!
# Plans without end

A plan that was read from a text may refer to itself, and then its conversion may go on for ever.
The limit on references that a conversion carries stands in for that: a conversion comes to an end
(`Arena.Ends`) if from some limit on it always comes to the same outcome, which is not that the
limit was reached.

The operands of a node are converted one after the other, the last one first, and a failure stops
all the rest. So the conversion of a node gets to an operand only if all later ones could be
converted, and that means that they are grounded: such an operand is awaited by the node
(`Arena.Awaits`). Main statement (`RootedPlan.conversion_ends_exact`): whoever the engine is and
wherever its tables come from, conversion of a plan that a worker was sent comes to an end, exactly
if no node that is awaited on the way awaits itself; and then every rank reports what comes of the
plan.
-/

namespace Rankwise

/-- The tables are looked up without end nowhere. -/
structure Resolver.Answers {ε : Type} (resolver : Resolver (StateM ε)) : Prop where
  table : ∀ batch state, ((resolver.table batch).run state).1 ≠ .error .unending
  lazyTable : ∀ table state, ((resolver.lazyTable table).run state).1 ≠ .error .unending

/-- All tables are there, though looking them up may be without end. -/
structure Resolver.Gives {ε : Type} (resolver : Resolver (StateM ε)) : Prop where
  table : ∀ batch state stop, stop ≠ .unending → ((resolver.table batch).run state).1 ≠ .error stop
  lazyTable : ∀ table state stop, stop ≠ .unending →
    ((resolver.lazyTable table).run state).1 ≠ .error stop

/-- How an engine builds a node, for a conversion. -/
def Engine.building {ε η : Type} (engine : Engine ε η) (name : String) (output : OutputSchema)
    (arguments : List (EngineArgument η)) : StateM ε (Except Stop η) :=
  (engine.create name output arguments).stopping

/-- What an engine does comes to an end. -/
theorem EngineAction.stopping_ne_unending {ε α : Type} (action : EngineAction ε α) (state : ε) :
    (action.stopping.run state).1 ≠ .error .unending := by
  show (action.run state).1.mapError Stop.failed ≠ _
  cases (action.run state).1 with
  | ok value => exact nofun
  | error failure => exact nofun

namespace Arena

/-- Conversion of the plan below a node comes to an end: from some limit on, the limit does not
matter any more and is not reached. -/
def Ends {ε η : Type} (arena : Arena) (engine : Engine ε η) (resolver : Resolver (StateM ε))
    (root : NodeId) (state : ε) : Prop :=
  ∃ limit outcome, outcome.1.1 ≠ .error .unending ∧ ∀ more, limit ≤ more →
    ((Converting.nodeWithin arena resolver engine.building more root).run.run []).run state = outcome

/-- The node is referred to, and all that is referred to behind it can be converted. -/
def IsDue (arena : Arena) (references : List (Role × NodeId)) (child : NodeId) : Prop :=
  ∃ before role after, references = before ++ (role, child) :: after ∧
    ∀ reference ∈ after, arena.Grounded reference.2

/-- The conversion of a node gets to another node while the node itself is not built yet. -/
def Awaits (arena : Arena) (id child : NodeId) : Prop :=
  ∃ node, arena.nodes[id.index]? = some node ∧ arena.IsDue node.references child

/-- Some node that is awaited on the way awaits itself. -/
def GoesRound (arena : Arena) (root : NodeId) : Prop :=
  ∃ id, Relation.ReflTransGen arena.Awaits root id ∧ Relation.TransGen arena.Awaits id id

variable {arena : Arena} {id child root : NodeId}

namespace IsDue

variable {first second : List (Role × NodeId)}

/-- If a single node is referred to, it is due. -/
theorem alone (arena : Arena) (role : Role) (id : NodeId) : arena.IsDue [(role, id)] id :=
  ⟨[], role, [], rfl, List.forall_mem_nil _⟩

/-- If a single node is referred to, no other one is due. -/
theorem eq_of_alone {role : Role} (due : arena.IsDue [(role, id)] child) : child = id := by
  obtain ⟨before, kind, after, split, -⟩ := due
  have listed : (kind, child) ∈ [(role, id)] :=
    split ▸ List.mem_append_right _ List.mem_cons_self
  exact (Prod.mk.inj (List.mem_singleton.mp listed)).2

/-- What is due among the first references is so if all further ones can be converted. -/
theorem left (due : arena.IsDue first child)
    (grounded : ∀ reference ∈ second, arena.Grounded reference.2) :
    arena.IsDue (first ++ second) child := by
  obtain ⟨before, role, after, rfl, behind⟩ := due
  refine ⟨before, role, after ++ second, List.append_assoc _ _ _, ?_⟩
  exact List.forall_mem_append.mpr ⟨behind, grounded⟩

/-- What is due among the further references is due. -/
theorem right (due : arena.IsDue second child) : arena.IsDue (first ++ second) child := by
  obtain ⟨before, role, after, rfl, behind⟩ := due
  exact ⟨first ++ before, role, after, (List.append_assoc _ _ _).symm, behind⟩

/-- What is due is due among the further references, or all of these can be converted. -/
theorem cases_append (due : arena.IsDue (first ++ second) child) : arena.IsDue second child ∨
    arena.IsDue first child ∧ ∀ reference ∈ second, arena.Grounded reference.2 := by
  obtain ⟨before, role, after, split, behind⟩ := due
  rcases List.append_eq_append_iff.mp split with ⟨between, rfl, rest⟩ | ⟨between, rfl, rest⟩
  · exact .inl ⟨between, role, after, rest, behind⟩
  · cases between with
    | nil => exact .inl ⟨[], role, after, rest.symm, behind⟩
    | cons entry others =>
      obtain ⟨rfl, rfl⟩ := List.cons.inj rest
      have both := List.forall_mem_append.mp behind
      exact .inr ⟨⟨before, role, others, rfl, both.1⟩, both.2⟩

end IsDue

/-- A node refers to the nodes that it awaits. -/
theorem Awaits.refers (awaits : arena.Awaits id child) : arena.Refers id child := by
  obtain ⟨node, found, before, role, after, split, -⟩ := awaits
  exact ⟨node, found, (role, child), split ▸ List.mem_append_right _ List.mem_cons_self, rfl⟩

/-- If what a node awaits goes round, the node does. -/
theorem GoesRound.of_awaits (awaits : arena.Awaits id child) (round : arena.GoesRound child) :
    arena.GoesRound id := by
  obtain ⟨other, reaches, around⟩ := round
  exact ⟨other, .head awaits reaches, around⟩

/-- What goes round awaits something that goes round. -/
theorem GoesRound.awaits (round : arena.GoesRound id) :
    ∃ child, arena.Awaits id child ∧ arena.GoesRound child := by
  obtain ⟨other, reaches, around⟩ := round
  rcases Relation.ReflTransGen.cases_head reaches with rfl | ⟨child, awaits, further⟩
  · obtain ⟨child, awaits, back⟩ := Relation.TransGen.head'_iff.mp around
    exact ⟨child, awaits, id, back, around⟩
  · exact ⟨child, awaits, other, further, around⟩

/-- What goes round is not grounded. -/
theorem GoesRound.not_grounded (round : arena.GoesRound id) : ¬ arena.Grounded id := by
  intro grounded
  induction grounded with
  | intro id node found below inductionHypothesis =>
    obtain ⟨child, awaits, further⟩ := round.awaits
    obtain ⟨same, foundToo, reference, member, rfl⟩ := awaits.refers
    obtain rfl := Option.some.inj (found.symm.trans foundToo)
    exact inductionHypothesis reference member further

/-- A plan whose references lead to earlier nodes does not go round. -/
theorem IsForward.not_goesRound (forward : arena.IsForward) : ¬ arena.GoesRound root := by
  rintro ⟨id, -, around⟩
  have earlier (child : NodeId) (leads : Relation.TransGen arena.Awaits id child) :
      child.index < id.index := by
    induction leads with
    | single awaits => exact forward _ _ awaits.refers
    | tail _ awaits inductionHypothesis =>
      exact (forward _ _ awaits.refers).trans inductionHypothesis
  exact Nat.lt_irrefl _ (earlier id around)

open Classical in
/-- The places that are awaited on the way from a node. -/
noncomputable def awaited (arena : Arena) (id : NodeId) : Finset Nat :=
  (Finset.range arena.size).filter fun index => Relation.ReflTransGen arena.Awaits id ⟨index⟩

open Classical in
/-- The nodes that are awaited are those that can be reached by awaiting. -/
theorem mem_awaited (index : Nat) : index ∈ arena.awaited id ↔
    index < arena.size ∧ Relation.ReflTransGen arena.Awaits id ⟨index⟩ := by
  rw [awaited, Finset.mem_filter, Finset.mem_range]

open Classical in
/-- No more nodes are awaited than there are. -/
theorem card_awaited_le (arena : Arena) (id : NodeId) : (arena.awaited id).card ≤ arena.size :=
  le_of_le_of_eq (Finset.card_filter_le _ _) (Finset.card_range _)

/-- There is less to be awaited from what a node awaits, if it does not go round. -/
theorem card_awaited_lt (ends : ¬ arena.GoesRound id) (awaits : arena.Awaits id child) :
    (arena.awaited child).card < (arena.awaited id).card := by
  have inside : id.index < arena.size := by
    obtain ⟨node, found, -⟩ := awaits
    exact (List.getElem?_eq_some_iff.mp found).1
  apply Finset.card_lt_card
  constructor
  · intro index member
    obtain ⟨there, reaches⟩ := mem_awaited index |>.mp member
    exact (mem_awaited index).mpr ⟨there, .head awaits reaches⟩
  · intro all
    have back := ((mem_awaited id.index).mp (all ((mem_awaited id.index).mpr ⟨inside, .refl⟩))).2
    exact ends ⟨id, .refl, Relation.TransGen.head' awaits back⟩

end Arena

namespace Converting

variable {ε η α β : Type}

/-! What a conversion comes to within some limit, it comes to within every larger one. -/

section Limits

/-- Unless the first conversion is without end, the second one comes to the same. -/
def Persists (short long : Converting η (StateM ε) α) : Prop :=
  ∀ built state, ((short.run.run built).run state).1.1 ≠ .error .unending →
    (long.run.run built).run state = (short.run.run built).run state

/-- A conversion comes to the same as itself. -/
theorem Persists.refl (converting : Converting η (StateM ε) α) : Persists converting converting :=
  fun _ _ _ => rfl

/-- Conversions one after the other come to the same if each of them does. -/
theorem Persists.bind {short long : Converting η (StateM ε) α}
    {next further : α → Converting η (StateM ε) β} (first : Persists short long)
    (second : ∀ value, Persists (next value) (further value)) :
    Persists (short >>= next) (long >>= further) := by
  intro built state ends
  rw [run_bind] at ends ⊢
  have begun := first built state
  rw [run_bind]
  cases ran : (short.run.run built).run state with
  | mk reached last =>
    obtain ⟨result, later⟩ := reached
    rw [ran] at ends begun
    cases result with
    | ok value =>
      rw [begun nofun]
      exact second value later last ends
    | error stop =>
      have same := begun fun unending => ends (congrArg Except.error (Except.error.inj unending))
      rw [same]

/-- Conversions that start anew come to the same if they do otherwise. -/
theorem Persists.onItsOwn {short long : Converting η (StateM ε) α} (persists : Persists short long) :
    Persists (Converting.onItsOwn short) (Converting.onItsOwn long) := by
  intro built state ends
  have same := persists [] state ends
  show (((((long.run.run []).run state).1.1, built), ((long.run.run []).run state).2) :
    (Except Stop α × Built η) × ε) = _
  rw [same]
  rfl

variable {resolver : Resolver (StateM ε)} {convert another : NodeId → Converting η (StateM ε) η}

mutual

/-- With conversions of nodes that come to the same, operands come to the same. -/
theorem persists_operand (persists : ∀ id, Persists (convert id) (another id)) (combinesTwo : Bool)
    (found : Operand) :
    Persists (operand resolver convert combinesTwo found)
      (operand resolver another combinesTwo found) := by
  cases found with
  | input id =>
    rw [operand, operand]
    split
    · exact (persists id).onItsOwn.bind fun _ => .refl _
    · exact (persists id).bind fun _ => .refl _
  | source id =>
    rw [operand, operand]
    exact (persists id).bind fun _ => .refl _
  | expression id =>
    rw [operand, operand]
    exact (persists id).bind fun _ => .refl _
  | list items =>
    rw [operand, operand]
    exact (persists_operands persists combinesTwo items).bind fun _ => .refl _
  | _ => exact .refl _

/-- With conversions of nodes that come to the same, lists of operands come to the same. -/
theorem persists_operands (persists : ∀ id, Persists (convert id) (another id)) (combinesTwo : Bool)
    (items : List Operand) :
    Persists (operands resolver convert combinesTwo items)
      (operands resolver another combinesTwo items) := by
  cases items with
  | nil => exact .refl _
  | cons first rest =>
    rw [operands, operands]
    exact (persists_operands persists combinesTwo rest).bind fun _ =>
      (persists_operand persists combinesTwo first).bind fun _ => .refl _

end

variable {create : String → OutputSchema → List (EngineArgument η) → StateM ε (Except Stop η)}

/-- A conversion within a limit comes to the same within the next limit. -/
theorem persists_nodeWithin (arena : Arena) (limit : Nat) (id : NodeId) :
    Persists (nodeWithin arena resolver create limit id)
      (nodeWithin arena resolver create (limit + 1) id) := by
  induction limit generalizing id with
  | zero =>
    intro built state ends
    exact absurd rfl ends
  | succ limit inductionHypothesis =>
    have constructs : Persists
        (construct arena resolver create (nodeWithin arena resolver create limit) id)
        (construct arena resolver create (nodeWithin arena resolver create (limit + 1)) id) := by
      unfold construct
      exact (Persists.refl _).bind fun node =>
        (persists_operands inductionHypothesis _ _).bind fun _ => .refl _
    intro built state ends
    rw [run_nodeWithin] at ends ⊢
    rw [run_nodeWithin]
    cases known : built.lookup id with
    | some handle => rfl
    | none =>
      rw [known] at ends
      exact constructs built state ends

/-- A conversion that has not reached its limit comes to the same within every larger one. -/
theorem run_of_le {arena : Arena} {id : NodeId} {limit more : Nat} (within : limit ≤ more)
    (built : Built η) (state : ε)
    (ends : (((nodeWithin arena resolver create limit id).run.run built).run state).1.1 ≠
      .error .unending) :
    ((nodeWithin arena resolver create more id).run.run built).run state =
      ((nodeWithin arena resolver create limit id).run.run built).run state := by
  induction more, within using Nat.le_induction with
  | base => rfl
  | succ more _ inductionHypothesis =>
    rw [← inductionHypothesis]
    exact persists_nodeWithin arena more id built state (inductionHypothesis ▸ ends)

end Limits

/-! Where nothing goes round, a conversion comes to an end. -/

section Endings

variable {arena : Arena}

/-- With grounded nodes built already, the conversion comes to an end. -/
def Ends (arena : Arena) (converting : Converting η (StateM ε) α) : Prop :=
  ∀ built state, (∀ entry ∈ built, arena.Grounded entry.1) →
    ((converting.run.run built).run state).1.1 ≠ .error .unending

namespace Ends

/-- To give a value comes to an end. -/
theorem pure (value : α) : Ends arena (Pure.pure value : Converting η (StateM ε) α) :=
  fun _ _ _ => nofun

/-- Conversions one after the other come to an end if each of them does, the second given what the
first has built. -/
theorem bind {first : Converting η (StateM ε) α} {next : α → Converting η (StateM ε) β} {between : Prop}
    (keeps : Keeps arena.Grounded first between) (begun : Ends arena first)
    (continued : between → ∀ value, Ends arena (next value)) : Ends arena (first >>= next) := by
  intro built state held
  rw [run_bind]
  have here := begun built state held
  cases ran : (first.run.run built).run state with
  | mk reached last =>
    obtain ⟨result, later⟩ := reached
    rw [ran] at here
    cases result with
    | ok value =>
      obtain ⟨so, heldThen⟩ := keeps built state held value later last ran
      exact continued so value later last heldThen
    | error stop => exact fun unending => here (congrArg Except.error (Except.error.inj unending))

/-- An action outside that comes to an end does so as a conversion. -/
theorem outside {action : StateM ε (Except Stop α)}
    (answers : ∀ state, (action.run state).1 ≠ .error .unending) :
    Ends arena (Converting.outside action : Converting η (StateM ε) α) :=
  fun _ state _ => answers state

/-- A conversion that starts anew comes to an end if it does otherwise. -/
theorem onItsOwn {converting : Converting η (StateM ε) α} (ends : Ends arena converting) :
    Ends arena (Converting.onItsOwn converting) :=
  fun _ state _ => ends [] state (List.forall_mem_nil _)

end Ends

variable {resolver : Resolver (StateM ε)} {convert : NodeId → Converting η (StateM ε) η}

mutual

/-- An operand can be converted to an end if all can that it gets to. -/
theorem ends_operand (answers : resolver.Answers)
    (keeps : ∀ id, Keeps arena.Grounded (convert id) (arena.Grounded id)) (combinesTwo : Bool)
    (found : Operand)
    (each : ∀ child, arena.IsDue found.references child → Ends arena (convert child)) :
    Ends arena (operand resolver convert combinesTwo found) := by
  cases found with
  | input id =>
    have ends := each id (.alone arena .input id)
    rw [operand]
    split
    · exact Ends.bind (keeps id).onItsOwn ends.onItsOwn fun _ _ => .pure _
    · exact Ends.bind (keeps id) ends fun _ _ => .pure _
  | source id =>
    rw [operand]
    exact Ends.bind (keeps id) (each id (.alone arena .source id)) fun _ _ => .pure _
  | expression id =>
    rw [operand]
    exact Ends.bind (keeps id) (each id (.alone arena .expression id)) fun _ _ => .pure _
  | list items =>
    rw [operand]
    exact Ends.bind (keeps_operands resolver convert combinesTwo items fun reference _ => keeps _)
      (ends_operands answers keeps combinesTwo items each) fun _ _ => .pure _
  | table batch =>
    rw [operand]
    exact Ends.bind (Keeps.outside _) (.outside (answers.table batch)) fun _ _ => .pure _
  | lazyTable table =>
    rw [operand]
    exact Ends.bind (Keeps.outside _) (.outside (answers.lazyTable table)) fun _ _ => .pure _
  | _ => exact .pure _

/-- To convert operands comes to an end if it does for each node that is due. -/
theorem ends_operands (answers : resolver.Answers)
    (keeps : ∀ id, Keeps arena.Grounded (convert id) (arena.Grounded id)) (combinesTwo : Bool)
    (items : List Operand)
    (each : ∀ child, arena.IsDue (Operand.referencesOf items) child → Ends arena (convert child)) :
    Ends arena (operands resolver convert combinesTwo items) := by
  cases items with
  | nil => exact .pure _
  | cons first rest =>
    rw [operands]
    -- The first operand is got to only if all others could be converted.
    refine Ends.bind (keeps_operands resolver convert combinesTwo rest fun reference _ => keeps _)
      (ends_operands answers keeps combinesTwo rest fun child due => each child due.right) ?_
    intro grounded _
    refine Ends.bind (keeps_operand resolver convert combinesTwo first fun reference _ => keeps _)
      (ends_operand answers keeps combinesTwo first fun child due => each child (due.left grounded)) ?_
    exact fun _ _ => .pure _

end

variable {create : String → OutputSchema → List (EngineArgument η) → StateM ε (Except Stop η)}

/-- A node that does not go round is converted to an end within as many references as there are
nodes that it waits for. -/
theorem ends_nodeWithin (answers : resolver.Answers)
    (creates : ∀ name output arguments state,
      ((create name output arguments).run state).1 ≠ .error .unending) (limit : Nat) (id : NodeId)
    (once : ¬ arena.GoesRound id) (enough : (arena.awaited id).card < limit) :
    Ends arena (nodeWithin arena resolver create limit id) := by
  -- With every step down there is one node less that is waited for.
  induction limit generalizing id with
  | zero => exact absurd enough (Nat.not_lt_zero _)
  | succ limit inductionHypothesis =>
    intro built state held
    rw [run_nodeWithin]
    cases built.lookup id with
    | some handle => rintro ⟨⟩
    | none =>
      have constructs :
          Ends arena (construct arena resolver create (nodeWithin arena resolver create limit) id) := by
        unfold construct
        cases found : arena.nodes[id.index]? with
        | none =>
          intro built state held
          rw [Arena.node, found]
          rintro ⟨⟩
        | some node =>
          have here : arena.node id = .ok node := by rw [Arena.node, found]
          rw [here, Except.mapError, build_node]
          refine Ends.bind (keeps_operands resolver _ (combinesTwo node) node.operands
            fun reference _ => keeps_nodeWithin arena resolver create limit reference.2) ?_ ?_
          · apply ends_operands answers (keeps_nodeWithin arena resolver create limit)
            intro child due
            have awaits : arena.Awaits id child := ⟨node, found, due⟩
            apply inductionHypothesis child fun round => once (round.of_awaits awaits)
            exact (Arena.card_awaited_lt once awaits).trans_le (Nat.le_of_lt_succ enough)
          · intro _ arguments
            refine Ends.bind (Keeps.outside _) (.outside (creates _ _ arguments)) fun _ handle => ?_
            split <;> rintro _ _ _ ⟨⟩
      exact constructs built state held

end Endings

/-! What goes round is converted without end, unless something fails. -/

section Rounds

/-- The conversion does not stop, though it may be without end. -/
def Succeeds (converting : Converting η (StateM ε) α) : Prop :=
  ∀ built state stop, stop ≠ .unending → ((converting.run.run built).run state).1.1 ≠ .error stop

namespace Succeeds

/-- To give a value does not stop. -/
theorem pure (value : α) : Succeeds (Pure.pure value : Converting η (StateM ε) α) :=
  fun _ _ _ _ => nofun

/-- Conversions one after the other do not stop if none of them does. -/
theorem bind {first : Converting η (StateM ε) α} {next : α → Converting η (StateM ε) β}
    (begun : Succeeds first) (continued : ∀ value, Succeeds (next value)) :
    Succeeds (first >>= next) := by
  intro built state stop ends
  rw [run_bind]
  have here := begun built state stop ends
  cases ran : (first.run.run built).run state with
  | mk reached last =>
    obtain ⟨result, later⟩ := reached
    rw [ran] at here
    cases result with
    | ok value => exact continued value later last stop ends
    | error other => exact fun stopped => here (congrArg Except.error (Except.error.inj stopped))

/-- An action outside that does not stop does not do so as a conversion. -/
theorem outside {action : StateM ε (Except Stop α)}
    (succeeds : ∀ state stop, stop ≠ .unending → (action.run state).1 ≠ .error stop) :
    Succeeds (Converting.outside action : Converting η (StateM ε) α) :=
  fun _ state => succeeds state

/-- A conversion that starts anew does not stop if it does not otherwise. -/
theorem onItsOwn {converting : Converting η (StateM ε) α} (succeeds : Succeeds converting) :
    Succeeds (Converting.onItsOwn converting) :=
  fun _ state => succeeds [] state

end Succeeds

variable {resolver : Resolver (StateM ε)} {convert : NodeId → Converting η (StateM ε) η}

mutual

/-- To convert an operand does not stop if it does not for the nodes that it refers to. -/
theorem succeeds_operand (gives : resolver.Gives) (combinesTwo : Bool) (found : Operand)
    (each : ∀ reference ∈ found.references, Succeeds (convert reference.2)) :
    Succeeds (operand resolver convert combinesTwo found) := by
  cases found with
  | input id =>
    have succeeds := each (.input, id) List.mem_cons_self
    rw [operand]
    split
    · exact succeeds.onItsOwn.bind fun _ => .pure _
    · exact succeeds.bind fun _ => .pure _
  | source id =>
    rw [operand]
    exact (each (.source, id) List.mem_cons_self).bind fun _ => .pure _
  | expression id =>
    rw [operand]
    exact (each (.expression, id) List.mem_cons_self).bind fun _ => .pure _
  | list items =>
    rw [operand]
    exact (succeeds_operands gives combinesTwo items each).bind fun _ => .pure _
  | table batch =>
    rw [operand]
    exact (Succeeds.outside (gives.table batch)).bind fun _ => .pure _
  | lazyTable table =>
    rw [operand]
    exact (Succeeds.outside (gives.lazyTable table)).bind fun _ => .pure _
  | _ => exact .pure _

/-- To convert operands does not stop if it does not for the nodes that they refer to. -/
theorem succeeds_operands (gives : resolver.Gives) (combinesTwo : Bool) (items : List Operand)
    (each : ∀ reference ∈ Operand.referencesOf items, Succeeds (convert reference.2)) :
    Succeeds (operands resolver convert combinesTwo items) := by
  cases items with
  | nil => exact .pure _
  | cons first rest =>
    rw [operands]
    have both := List.forall_mem_append.mp each
    exact (succeeds_operands gives combinesTwo rest both.2).bind fun _ =>
      (succeeds_operand gives combinesTwo first both.1).bind fun _ => .pure _

end

variable {arena : Arena}
  {create : String → OutputSchema → List (EngineArgument η) → StateM ε (Except Stop η)}

/-- Conversion of a grounded node fails only if the engine or a table does. -/
theorem succeeds_nodeWithin (gives : resolver.Gives)
    (creates : ∀ name output arguments state stop, stop ≠ .unending →
      ((create name output arguments).run state).1 ≠ .error stop) (id : NodeId)
    (grounded : arena.Grounded id) (limit : Nat) :
    Succeeds (nodeWithin arena resolver create limit id) := by
  induction grounded generalizing limit with
  | intro id node found below inductionHypothesis =>
    cases limit with
    | zero =>
      rintro _ _ _ ends ⟨⟩
      exact ends rfl
    | succ limit =>
      intro built state stop ends
      rw [run_nodeWithin]
      cases built.lookup id with
      | some handle => rintro ⟨⟩
      | none =>
        have here : arena.node id = .ok node := by rw [Arena.node, found]
        have constructs :
            Succeeds (construct arena resolver create (nodeWithin arena resolver create limit) id) := by
          unfold construct
          rw [here, Except.mapError, build_node]
          refine (succeeds_operands gives (combinesTwo node) node.operands
            fun reference member => inductionHypothesis reference member limit).bind ?_
          intro arguments
          refine (Succeeds.outside (creates _ _ arguments)).bind fun handle => ?_
          split <;> rintro _ _ _ _ ⟨⟩
        exact constructs built state stop ends

/-- With grounded nodes built already, the conversion is without end. -/
def Hangs (arena : Arena) (converting : Converting η (StateM ε) α) : Prop :=
  ∀ built state, (∀ entry ∈ built, arena.Grounded entry.1) →
    ((converting.run.run built).run state).1.1 = .error .unending

namespace Hangs

/-- If the first of two conversions is without end, both together are. -/
theorem bind {first : Converting η (StateM ε) α} (hangs : Hangs arena first)
    (next : α → Converting η (StateM ε) β) : Hangs arena (first >>= next) := by
  intro built state held
  rw [run_bind]
  have here := hangs built state held
  cases ran : (first.run.run built).run state with
  | mk reached last =>
    obtain ⟨result, later⟩ := reached
    rw [ran] at here
    obtain rfl : result = .error .unending := here
    rfl

/-- If the first of two conversions does not stop and the second one is without end, both together
are. -/
theorem behind {first : Converting η (StateM ε) α} {next : α → Converting η (StateM ε) β}
    {between : Prop} (keeps : Keeps arena.Grounded first between) (succeeds : Succeeds first)
    (hangs : ∀ value, Hangs arena (next value)) : Hangs arena (first >>= next) := by
  intro built state held
  rw [run_bind]
  cases ran : (first.run.run built).run state with
  | mk reached last =>
    obtain ⟨result, later⟩ := reached
    cases result with
    | ok value => exact hangs value later last (keeps built state held value later last ran).2
    | error stop =>
      by_cases ends : stop = .unending
      · subst ends
        rfl
      · exact absurd (congrArg (fun ran => ran.1.1) ran) (succeeds built state stop ends)

/-- A conversion that starts anew is without end if it is so otherwise. -/
theorem onItsOwn {converting : Converting η (StateM ε) α} (hangs : Hangs arena converting) :
    Hangs arena (Converting.onItsOwn converting) :=
  fun _ state _ => hangs [] state (List.forall_mem_nil _)

end Hangs

mutual

/-- An operand that gets to a node without end is converted without end. -/
theorem hangs_operand (gives : resolver.Gives)
    (keeps : ∀ id, Keeps arena.Grounded (convert id) (arena.Grounded id))
    (succeeds : ∀ id, arena.Grounded id → Succeeds (convert id)) (combinesTwo : Bool)
    (found : Operand) (child : NodeId) (due : arena.IsDue found.references child)
    (hangs : Hangs arena (convert child)) :
    Hangs arena (operand resolver convert combinesTwo found) := by
  cases found with
  | input id =>
    obtain rfl := due.eq_of_alone
    rw [operand]
    split
    · exact hangs.onItsOwn.bind _
    · exact hangs.bind _
  | source id =>
    obtain rfl := due.eq_of_alone
    rw [operand]
    exact hangs.bind _
  | expression id =>
    obtain rfl := due.eq_of_alone
    rw [operand]
    exact hangs.bind _
  | list items =>
    rw [operand]
    exact (hangs_operands gives keeps succeeds combinesTwo items child due hangs).bind _
  | _ =>
    obtain ⟨before, role, after, split, -⟩ := due
    cases before <;> cases split

/-- To convert operands is without end if it is so for a node that is due. -/
theorem hangs_operands (gives : resolver.Gives)
    (keeps : ∀ id, Keeps arena.Grounded (convert id) (arena.Grounded id))
    (succeeds : ∀ id, arena.Grounded id → Succeeds (convert id)) (combinesTwo : Bool)
    (items : List Operand) (child : NodeId) (due : arena.IsDue (Operand.referencesOf items) child)
    (hangs : Hangs arena (convert child)) :
    Hangs arena (operands resolver convert combinesTwo items) := by
  cases items with
  | nil =>
    obtain ⟨before, role, after, split, -⟩ := due
    cases before <;> cases split
  | cons first rest =>
    rw [operands]
    rcases due.cases_append with later | ⟨here, grounded⟩
    · exact (hangs_operands gives keeps succeeds combinesTwo rest child later hangs).bind _
    · refine Hangs.behind (keeps_operands resolver convert combinesTwo rest fun reference _ => keeps _)
        (succeeds_operands gives combinesTwo rest fun reference member =>
          succeeds _ (grounded reference member)) fun _ => ?_
      exact (hangs_operand gives keeps succeeds combinesTwo first child here hangs).bind _

end

/-- What goes round is converted without end, whatever the limit. -/
theorem hangs_nodeWithin (gives : resolver.Gives)
    (creates : ∀ name output arguments state stop, stop ≠ .unending →
      ((create name output arguments).run state).1 ≠ .error stop) (limit : Nat)
    (id : NodeId) (round : arena.GoesRound id) :
    Hangs arena (nodeWithin arena resolver create limit id) := by
  induction limit generalizing id with
  | zero => exact fun _ _ _ => rfl
  | succ limit inductionHypothesis =>
    obtain ⟨child, ⟨node, found, due⟩, further⟩ := round.awaits
    have here : arena.node id = .ok node := by rw [Arena.node, found]
    have constructs :
        Hangs arena (construct arena resolver create (nodeWithin arena resolver create limit) id) := by
      unfold construct
      rw [here, Except.mapError, build_node]
      exact (hangs_operands gives (keeps_nodeWithin arena resolver create limit)
        (fun id grounded => succeeds_nodeWithin gives creates id grounded limit) (combinesTwo node)
        node.operands child due (inductionHypothesis child further)).bind _
    intro built state held
    rw [run_nodeWithin]
    cases known : built.lookup id with
    | some handle =>
      obtain ⟨before, after, listed, -⟩ := List.lookup_eq_some_iff.mp known
      exact absurd (held (id, handle) (listed ▸ List.mem_append_right before List.mem_cons_self))
        round.not_grounded
    | none => exact constructs built state held

end Rounds

end Converting

/-! Plans that were sent to a worker. -/

/-- A rank looks up its tables without waiting. -/
theorem Resolver.answers_ofRank {ε : Type} (rank size : Nat) (names : LazyNames)
    (stored : ResultId → Option Batch) :
    (Resolver.ofRank rank size names stored : Resolver (StateM ε)).Answers where
  table batch _ := by
    show (blockOf rank size batch).mapError Stop.failed ≠ _
    cases blockOf rank size batch with
    | ok block => exact nofun
    | error failure => exact nofun
  lazyTable table _ := by
    show (partitionOf rank names stored table).mapError Stop.failed ≠ _
    cases partitionOf rank names stored table with
    | ok partition => exact nofun
    | error failure => exact nofun

section Ranks

variable {ε η : Type} {arena : Arena} {root : NodeId}

/-- Where nothing goes round, conversions come to an end within the limit of the plan. -/
theorem Arena.ends_within (once : ¬ arena.GoesRound root) (engine : Engine ε η)
    (resolver : Resolver (StateM ε)) (answers : resolver.Answers) (state : ε) (limit : Nat)
    (enough : arena.size < limit) :
    (((Converting.nodeWithin arena resolver engine.building limit root).run.run []).run state).1.1 ≠
      .error .unending :=
  Converting.ends_nodeWithin answers (fun _ _ _ _ => EngineAction.stopping_ne_unending _ _) limit
    root once ((arena.card_awaited_le root).trans_lt enough) [] state (List.forall_mem_nil _)

/-- What a rank makes of a plan has an end if the conversion of the plan has one. -/
theorem runOnRank_ne_unending (engine : Engine ε η) (fresh : ε) (plan : RootedPlan)
    (once : ¬ plan.arena.GoesRound plan.root) (rank size : Nat) (stored : ResultId → Option Batch) :
    runOnRank engine fresh plan rank size stored ≠ .error .unending := by
  have enough : plan.arena.size < plan.arena.walkLimit := by
    unfold Arena.walkLimit
    omega
  have ends : ((plan.arena.convert engine (.ofRank rank size (fun _ => none) stored) plan.root).run
      fresh).1 ≠ .error .unending :=
    Arena.ends_within once engine _ (Resolver.answers_ofRank rank size _ stored) fresh _ enough
  unfold runOnRank
  show ((((plan.arena.convert engine _ plan.root) >>= ExceptT.bindCont _ :
    StateM ε (Except Stop Batch)).run fresh).1) ≠ _
  rw [StateT.run_bind]
  cases converted : (plan.arena.convert engine (.ofRank rank size (fun _ => none) stored) plan.root).run
      fresh with
  | mk result middle =>
    rw [converted] at ends
    cases result with
    | error stop => exact fun unending => ends (congrArg Except.error (Except.error.inj unending))
    | ok handle =>
      show ((((engine.optimize handle).stopping >>= ExceptT.bindCont _ :
        StateM ε (Except Stop Batch)).run middle).1) ≠ _
      rw [StateT.run_bind]
      have better := EngineAction.stopping_ne_unending (engine.optimize handle) middle
      cases optimized : (engine.optimize handle).stopping.run middle with
      | mk result last =>
        rw [optimized] at better
        cases result with
        | error stop => exact fun unending => better (congrArg Except.error (Except.error.inj unending))
        | ok handle =>
          cases shape : plan.arena.output plan.root with
          | error failure => exact nofun
          | ok output => exact EngineAction.stopping_ne_unending _ last

end Ranks

/-- An engine that builds whatever it is asked for. -/
def Engine.willing : Engine Unit Unit where
  create _ _ _ := return ()
  optimize _ := return ()
  execute _ _ schema := return Batch.empty schema
  size _ _ := 1
  rows _ _ := none

/-- Gives a table without rows for every table on the workers. -/
def Resolver.willing : Resolver (StateM Unit) where
  table batch := return .ok batch
  lazyTable _ := return .ok (Batch.empty {})

/-- What goes round has no end even where nothing fails. -/
theorem Arena.GoesRound.not_ends {arena : Arena} {root : NodeId} (round : arena.GoesRound root) :
    ¬ arena.Ends Engine.willing Resolver.willing root () := by
  rintro ⟨limit, outcome, ends, same⟩
  have gives : Resolver.willing.Gives := ⟨fun _ _ _ _ => nofun, fun _ _ _ _ => nofun⟩
  have creates : ∀ name output arguments state stop, stop ≠ .unending →
      ((Engine.willing.building name output arguments).run state).1 ≠ .error stop :=
    fun _ _ _ _ _ _ => nofun
  have hangs := Converting.hangs_nodeWithin gives creates limit root round [] () (List.forall_mem_nil _)
  exact ends (same limit le_rfl ▸ hangs)

namespace RootedPlan

/-- Conversion of a plan that a worker was sent comes to an end with every engine and every source
of tables, exactly if no node that is awaited on the way awaits itself; then every rank reports what
comes of the plan. It is so if references lead to earlier nodes. -/
theorem conversion_ends_exact (payload : Json) (plan : RootedPlan)
    (read : receivedPlan (.json payload) = .ok plan) :
    ((∀ (ε η : Type) (engine : Engine ε η) (resolver : Resolver (StateM ε)), resolver.Answers →
        ∀ state, plan.arena.Ends engine resolver plan.root state) ↔
      ¬ plan.arena.GoesRound plan.root) ∧
    (¬ plan.arena.GoesRound plan.root → ∀ (ε η : Type) (engine : Engine ε η) (fresh : ε)
      (worker : Worker), worker.registry.RunsPlans engine fresh → ∀ context store,
        (worker.run? context executePlanName { positional := [.json payload] } store).isSome = true) ∧
    (plan.arena.IsForward → ¬ plan.arena.GoesRound plan.root) := by
  refine ⟨⟨fun ends round => ?_, fun once => ?_⟩, fun once => ?_, Arena.IsForward.not_goesRound⟩
  · exact round.not_ends (ends Unit Unit Engine.willing Resolver.willing
      ⟨fun _ _ => nofun, fun _ _ => nofun⟩ ())
  · intro ε η engine resolver answers state
    have ends := Arena.ends_within once engine resolver answers state _ (Nat.lt_succ_self _)
    exact ⟨plan.arena.size + 1, _, ends, fun more within => Converting.run_of_le within [] state ends⟩
  · intro ε η engine fresh worker runs context store
    rw [run?_executePlan engine fresh worker runs payload plan read context store]
    have ends := runOnRank_ne_unending engine fresh plan once context.rank context.size store.find?
    cases result : runOnRank engine fresh plan context.rank context.size store.find? with
    | ok table => rfl
    | error stop =>
      cases stop with
      | failed failure => rfl
      | unending => exact absurd result ends
      | overflow => rfl

/-- A limit over a table without rows, as it may be sent. -/
def straightPayload : Json :=
  let shape := Json.object [("schema", .object [("fields", .array [])]), ("kind", .string "Frame")]
  let table := Json.object [
    ("schema", .object [("fields", .array [])]), ("columns", .array []), ("num_rows", .natural 0)]
  .object [
    ("arena", .object [("nodes", .array [
      .object [("schema", shape),
        ("kind", .object [("Operator", .object [("FrameReadSeq", .object [("data", table)])])])],
      .object [("schema", shape),
        ("kind", .object [("Operator", .object [("Limit", .object [
          ("source", .natural 0), ("limit", .natural 1), ("offset", .natural 0)])])])]])]),
    ("root", .natural 1)]

/-- The plan that is received then. -/
def straight : RootedPlan where
  arena := {
    nodes := [
      { output := .ofSchema {}, content := .operator (.tableScan (Batch.empty {})) },
      { output := .ofSchema {}, content := .operator (.limit ⟨0⟩ 1 0) }] }
  root := ⟨1⟩

/-- A rank that runs plans on the willing engine. -/
def willingWorker : Worker where
  rank := 0
  size := 1
  registry := { bodies := [(executePlanName, .executePlan Engine.willing ())] }

/-- The limit is over a node before it. -/
theorem straight_forward : straight.arena.IsForward := by
  rintro ⟨_ | _ | index⟩ child ⟨node, found, reference, member, rfl⟩
  · cases found
    cases member
  · cases found
    obtain rfl := List.mem_singleton.mp member
    exact Nat.zero_lt_one
  · cases found

/-- The plan of a limit over a table is received and comes to an end, and so does the worker that
runs it. -/
theorem straight_ends : receivedPlan (.json straightPayload) = .ok straight ∧
    straight.arena.Ends Engine.willing Resolver.willing straight.root () ∧
    ∀ context store, (willingWorker.run? context executePlanName
      { positional := [.json straightPayload] } store).isSome = true := by
  have read : receivedPlan (.json straightPayload) = .ok straight := by rfl
  obtain ⟨ends, reports, once⟩ := conversion_ends_exact straightPayload straight read
  have straightOn := once straight_forward
  exact ⟨read, ends.mpr straightOn Unit Unit Engine.willing Resolver.willing
    ⟨fun _ _ => nofun, fun _ _ => nofun⟩ (),
    reports straightOn Unit Unit Engine.willing () willingWorker ⟨rfl, by decide⟩⟩

/-- A plan of a single limit that limits itself, as it may be sent. -/
def circularPayload : Json := .object [
  ("arena", .object [("nodes", .array [.object [
    ("schema", .object [("schema", .object [("fields", .array [])]), ("kind", .string "Frame")]),
    ("kind", .object [("Operator", .object [("Limit", .object [
      ("source", .natural 0), ("limit", .natural 1), ("offset", .natural 0)])])])]])]),
  ("root", .natural 0)]

/-- The plan that is received then. -/
def circular : RootedPlan where
  arena := { nodes := [{ output := .ofSchema {}, content := .operator (.limit ⟨0⟩ 1 0) }] }
  root := ⟨0⟩

/-- A plan may be received whose root refers to itself. Its conversion has no end even where nothing
fails, and no rank reports anything. -/
theorem circular_accepted : receivedPlan (.json circularPayload) = .ok circular ∧
    circular.arena.Refers circular.root circular.root ∧
    ¬ circular.arena.Ends Engine.willing Resolver.willing circular.root () ∧
    ∀ context store, willingWorker.run? context executePlanName
      { positional := [.json circularPayload] } store = none := by
  have read : receivedPlan (.json circularPayload) = .ok circular := by rfl
  have awaits : circular.arena.Awaits circular.root circular.root := ⟨_, rfl, .alone _ .input ⟨0⟩⟩
  have round : circular.arena.GoesRound circular.root := ⟨circular.root, .refl, .single awaits⟩
  refine ⟨read, awaits.refers, round.not_ends, fun context store => ?_⟩
  rw [run?_executePlan Engine.willing () willingWorker ⟨rfl, by decide⟩ circularPayload circular read]
  rfl

end RootedPlan

end Rankwise
