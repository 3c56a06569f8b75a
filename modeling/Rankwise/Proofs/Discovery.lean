import Rankwise.Proofs.Courses
import Rankwise.Proofs.Lines
import Rankwise.Proofs.Naming
import Rankwise.Proofs.Ownership
import Rankwise.Proofs.WellFormedPlans

/-!
# Scans that are found and tables that are asked for

Before a plan is converted, a walk looks for the tables on the workers that it scans; conversion
follows references in another order, comes back to nodes for each relation of a join, and asks for
the tables that it meets. Both come upon the same scans (`PlanCall.convert_asks`): whatever is asked
for can be reached from the root, and when a node was converted then all tables below it were asked
for (`Arena.Covers`). So a plan in which no scan is found asks for nothing, and when the scans that
are found were made sure of, all tables that are asked for have names.
-/

namespace Rankwise

namespace Arena

/-- All tables on the workers that are scanned below a node are among these. -/
def Covers (arena : Arena) (asked : List (NodeId × LazyTable)) (id : NodeId) : Prop :=
  ∀ other table, arena.Reaches id other → arena.ScansAt other table → (other, table) ∈ asked

/-- Only tables on the workers that are scanned below a node are among these. -/
def IsAbout (arena : Arena) (asked : List (NodeId × LazyTable)) (root : NodeId) : Prop :=
  ∀ entry ∈ asked, arena.Reaches root entry.1 ∧ arena.ScansAt entry.1 entry.2

variable {arena : Arena} {asked later : List (NodeId × LazyTable)} {id : NodeId} {node : Node}

/-- What is covered stays so when more is asked for. -/
theorem Covers.mono (covers : arena.Covers asked id) (more : asked ⊆ later) :
    arena.Covers later id :=
  fun other table reaches scans => more (covers other table reaches scans)

/-- A walk that comes to its end has started at a node. -/
theorem inside_of_scans {root : NodeId} (ends : (arena.scans root).outcome = .ok ()) :
    root.index < arena.size := by
  by_contra beyond
  have missing : arena.nodes[root.index]? = none := List.getElem?_eq_none (Nat.le_of_not_lt beyond)
  rw [scans, scansFrom, dif_neg List.not_mem_nil] at ends
  split at ends
  · cases ends
  · simp_all

/-- A node is covered with all that it refers to and with its own table. -/
theorem covers_of_parts (found : arena.nodes[id.index]? = some node)
    (own : ∀ table ∈ (scanned? node.content).toList, (id, table) ∈ asked)
    (below : ∀ reference ∈ node.references, arena.Covers asked reference.2) :
    arena.Covers asked id := by
  intro other table reaches scans
  rcases Relation.ReflTransGen.cases_head reaches with rfl | ⟨child, refers, further⟩
  · obtain ⟨same, there, scanned⟩ := scans
    obtain rfl := Option.some.inj (there.symm.trans found)
    exact own table (Option.mem_toList.mpr scanned)
  · obtain ⟨same, there, reference, member, rfl⟩ := refers
    obtain rfl := Option.some.inj (there.symm.trans found)
    exact below reference member other table further scans

end Arena

namespace Converting

variable {ε η : Type} {arena : Arena} {engine : Engine ε η} {resolver : Resolver (StateM ε)}
  {root id : NodeId} {node : Node}

/-- More tables may be asked for, of those that are scanned below the root. -/
def Asking (arena : Arena) (root : NodeId) (state later : ε × Chronicle) : Prop :=
  state.2.asked ⊆ later.2.asked ∧ (arena.IsAbout state.2.asked root → arena.IsAbout later.2.asked root)

instance : Std.Refl (Asking arena root : ε × Chronicle → ε × Chronicle → Prop) where
  refl _ := ⟨List.Subset.refl _, fun still => still⟩

instance : IsTrans (ε × Chronicle) (Asking arena root) where
  trans _ _ _ first second := ⟨List.Subset.trans first.1 second.1, second.2 ∘ first.2⟩

/-- What is built was covered. -/
def Covered (arena : Arena) (built : Built (Nat × η)) (state : ε × Chronicle) : Prop :=
  ∀ entry ∈ built, arena.Covers state.2.asked entry.1

/-- What is built and covered stays so when more is asked for. -/
theorem Covered.moved {built : Built (Nat × η)} {state later : ε × Chronicle}
    (covered : Covered arena built state) (moved : Asking arena root state later) :
    Covered arena built later :=
  fun entry member => (covered entry member).mono moved.1

/-- To ask for a table that the plan holds asks for no table on the workers. -/
theorem asking_tables (resolver : Resolver (StateM ε)) (id : NodeId) :
    AsksTables (Asking arena root) (resolver.noting id)
      fun (built : Built (Nat × η)) state => Covered arena built state :=
  fun _ => .outside fun _ _ held => ⟨⟨List.Subset.refl _, fun still => still⟩, fun _ _ => held⟩

/-- To ask for a table on the workers puts it on the list, and it is one that is scanned. -/
theorem asking_lazily {table : LazyTable} (reaches : arena.Reaches root id)
    (scans : arena.ScansAt id table) :
    AsksLazily (Asking arena root) (resolver.noting id)
      (fun (built : Built (Nat × η)) state => Covered arena built state)
      (fun table state => (id, table) ∈ state.2.asked) table := by
  refine .outside fun built (state, chronicle) covered => ?_
  have more : chronicle.asked ⊆ chronicle.asked ++ [(id, table)] := List.subset_append_left _ _
  have moved : Asking arena root (state, chronicle)
      (((resolver.noting id).lazyTable table).run (state, chronicle)).2 := by
    refine ⟨more, fun about => List.forall_mem_append.mpr ⟨about, ?_⟩⟩
    exact List.forall_mem_singleton.mpr ⟨reaches, scans⟩
  exact ⟨moved, fun _ _ => ⟨covered.moved moved, List.mem_append_right _ List.mem_cons_self⟩⟩

/-- A relation that is converted on its own is covered afterwards. -/
theorem asking_half {converting : Converting (Nat × η) (StateM (ε × Chronicle)) (Nat × η)}
    (each : Takes (Asking arena root) converting (Covered arena)
      fun _ built state => Covered arena built state ∧ arena.Covers state.2.asked id) :
    Takes (Asking arena root) (onItsOwn converting) (Covered arena)
      fun _ built state => Covered arena built state ∧ arena.Covers state.2.asked id := by
  have own : Takes (Asking arena root) converting (fun built _ => built = [] ∧ True)
      fun _ _ state => arena.Covers state.2.asked id := by
    refine each.weaken ?_ fun _ _ _ held => held.2
    rintro _ _ ⟨rfl, -⟩
    exact nofun
  exact .onItsOwn own (fun _ _ moved => moved) (fun _ _ _ => trivial)
    fun _ _ _ moved held => held.moved moved

/-- When the operands of a node were converted, then all tables below it were asked for. -/
theorem asking_operandsAt (resolver : Resolver (StateM ε)) (scope : Scope)
    {convert : Scope → NodeId → Converting (Nat × η) (StateM (ε × Chronicle)) (Nat × η)}
    (found : arena.nodes[id.index]? = some node) (reaches : arena.Reaches root id)
    (each : ∀ scope child, arena.Refers id child → Takes (Asking arena root) (convert scope child)
      (Covered arena)
      fun _ built state => Covered arena built state ∧ arena.Covers state.2.asked child) :
    Takes (Asking arena root)
      (operandsAt (resolver.noting id) convert scope id (combinesTwo node) node.operands)
      (Covered arena)
      fun _ built state => Covered arena built state ∧ arena.Covers state.2.asked id := by
  -- Two relations are each converted in a scope of its own, all other operands in this one.
  cases two : combinesTwo node with
  | false =>
    have plain : false = true → ∀ item ∈ node.operands, item.isInput = false := nofun
    rw [operandsAt_plain (resolver.noting id) convert scope id plain]
    have gathered : Takes (Asking arena root)
        (operands (resolver.noting id) (convert scope) false node.operands) (Covered arena)
        fun arguments built state => Covered arena built state ∧
          Gathers (fun child _ state => arena.Covers state.2.asked child)
            (fun table state => (id, table) ∈ state.2.asked) node.references
            (Operand.lazyTablesOf node.operands) (EngineArgument.passingsOf arguments) state := by
      refine takes_operands (fun _ _ _ _ moved covers => covers.mono moved.1)
        (fun _ _ _ moved member => moved.1 member) (asking_tables resolver id) node.operands
        (fun table member => ?_) fun reference member =>
          ⟨nofun, each scope reference.2 ⟨node, found, reference, member, rfl⟩⟩
      rw [node.lazyTables_operands] at member
      exact asking_lazily reaches ⟨node, found, Option.mem_toList.mp member⟩
    refine gathered.weaken (fun _ _ held => held) fun arguments built state ⟨covered, gathers⟩ =>
      ⟨covered, Arena.covers_of_parts found ?_ fun reference member => ?_⟩
    · exact node.lazyTables_operands ▸ gathers.tables
    · obtain ⟨_, covers⟩ := gathers.all reference member
      exact covers
  | true =>
    obtain ⟨operator, left, right, rest, content, inputs, listed, none, noTables⟩ :=
      node.operands_of_two two
    have references : node.references = [(.input, left), (.input, right)] := by
      rw [Node.references, listed, Operand.referencesOf_cons, Operand.referencesOf_cons, none]
      rfl
    have refers (child : NodeId) (member : (Role.input, child) ∈ node.references) :
        arena.Refers id child :=
      ⟨node, found, _, member, rfl⟩
    have rightly :=
      asking_half (each (scope ++ [(id, .right)]) right (refers right (by simp [references])))
    have leftly :=
      asking_half (each (scope ++ [(id, .left)]) left (refers left (by simp [references])))
    have both := takes_operandsAt_two (asking_tables resolver id) none noTables rightly fun _ =>
      leftly.frame fun _ _ moved (covers : arena.Covers _ right) => covers.mono moved.1
    rw [listed]
    refine both.weaken (fun _ _ held => held) ?_
    rintro arguments built state ⟨_, _, -, ⟨covered, leftCovers⟩, rightCovers⟩
    refine ⟨covered, Arena.covers_of_parts found ?_ ?_⟩
    · simp [← node.lazyTables_operands, listed, Operand.lazyTablesOf, Operand.lazyTables, noTables]
    · simp [references, leftCovers, rightCovers]

/-- Converting a node below the root asks for all tables below the node. -/
theorem asking_nodeAt (limit : Nat) (scope : Scope) (id : NodeId) (reaches : arena.Reaches root id) :
    Takes (Asking arena root) (notingNode engine resolver arena limit scope id) (Covered arena)
      fun _ built state => Covered arena built state ∧ arena.Covers state.2.asked id := by
  induction limit generalizing scope id with
  | zero => exact .throw _
  | succ limit inductionHypothesis =>
    refine takes_nodeAt (fun handle built state covered there => ⟨covered, ?_⟩) ?_
    · obtain ⟨before, after, rfl, -⟩ := List.lookup_eq_some_iff.mp there
      exact covered _ (List.mem_append_right before List.mem_cons_self)
    cases found : arena.nodes[id.index]? with
    | none => exact takes_constructAt_missing found
    | some node =>
      have gathers := asking_operandsAt resolver scope found reaches
        fun scope child refers => inductionHypothesis scope child (reaches.tail refers)
      refine takes_constructAt found (gathers.weaken (fun _ _ held => held.1) fun _ _ _ held => held)
        fun arguments => .outside fun built state ⟨covered, covers⟩ =>
          ⟨⟨List.Subset.refl _, fun still => still⟩, ?_⟩
      intro handle _
      refine ⟨?_, covers⟩
      unfold keeping
      split
      · exact covered
      · exact List.forall_mem_cons.mpr ⟨covers, covered⟩

end Converting

/-- Converting a plan asks for tables that are scanned below the root, and for all of them if it
succeeds. -/
theorem Arena.chronicled_asks {ε η : Type} (arena : Arena) (engine : Engine ε η)
    (resolver : Resolver (StateM ε)) (root : NodeId) (state : ε) {last : ε}
    {result : Except Stop (Nat × η)} {chronicle : Chronicle}
    (ran : (arena.chronicled engine resolver root).run (state, {}) = (result, last, chronicle)) :
    arena.IsAbout chronicle.asked root ∧
      ∀ handle, result = .ok handle → arena.Covers chronicle.asked root := by
  have takes : Converting.Takes (Converting.Asking arena root)
      (Converting.notingNode engine resolver arena arena.walkLimit [] root) (Converting.Covered arena)
      fun _ built state => Converting.Covered arena built state ∧ arena.Covers state.2.asked root :=
    Converting.asking_nodeAt arena.walkLimit [] root .refl
  obtain ⟨moved, after⟩ := takes.chronicled nofun ran
  refine ⟨moved.2 nofun, fun handle given => ?_⟩
  obtain ⟨built, -, covers⟩ := after handle given
  exact covers

namespace PlanCall

/-- The scans that are found below the root of a plan are those that its conversion asks for, if
this succeeds, and each is found once. If no scan is found, then nothing is asked for, and when the
scans that are found were made sure of, all tables that are asked for have names on the workers. -/
theorem convert_asks {ε η : Type} (calls : List PlanCall) (engine : Engine ε η)
    (resolver : Resolver (StateM ε)) (root : NodeId) (state : ε) :
    ∃ result last chronicle,
      ((grown calls).chronicled engine resolver root).run (state, {}) = (result, last, chronicle) ∧
        ((grown calls).convert engine resolver root).run state = (result.map Prod.snd, last) ∧
        (∀ handle, result = .ok handle →
          ((grown calls).scans root).outcome = .ok () ∧
            (((grown calls).scans root).found.map Prod.fst).Nodup ∧
            ∀ entry, entry ∈ chronicle.asked ↔ entry ∈ ((grown calls).scans root).found) ∧
        ((grown calls).hasScan root = .ok false → chronicle.asked = []) ∧
        ∀ (σ : Type) (outside : Outside σ) (spawner : SpawnerId) (world later : World)
          (before after : σ) (count : Nat),
          ((Executing.settleScans (grown calls) root spawner).run.run world).run outside before =
              some ((.ok count, later), after) →
            ∀ entry ∈ chronicle.asked, (entry.2.resultId? later.names).isSome := by
  obtain ⟨result, last, chronicle, ran, plain⟩ :=
    (grown calls).run_chronicled engine resolver root state
  obtain ⟨about, covers⟩ := (grown calls).chronicled_asks engine resolver root state ran
  -- A walk that comes to its end has met no missing node, so all that is asked for is found by it.
  have walked (ends : ((grown calls).scans root).outcome = .ok ()) :
      (grown calls).IsWalked [] [root] ((grown calls).scans root) := by
    exact ((grown_built calls).grounded (Arena.inside_of_scans ends)).scans_isWalked
  have found (ends : ((grown calls).scans root).outcome = .ok ()) (entry : NodeId × LazyTable)
      (member : entry ∈ chronicle.asked) : entry ∈ ((grown calls).scans root).found :=
    (walked ends).complete entry.1 entry.2 (about entry member).2 List.not_mem_nil
      ⟨root, List.mem_singleton_self root, (about entry member).1⟩
  refine ⟨result, last, chronicle, ran, plain, fun handle given => ?_, fun none => ?_,
    fun σ outside spawner world later before after count ends entry member => ?_⟩
  · have converts : ((grown calls).convert engine resolver root).run state = (.ok handle.2, last) := by
      rw [plain, given]
      rfl
    have isWalked :=
      (Arena.grounded_of_converts engine resolver handle.2 state last converts).scans_isWalked
    refine ⟨isWalked.ends, isWalked.once, fun entry => ⟨found isWalked.ends entry, fun member => ?_⟩⟩
    obtain ⟨scans, -, start, among, reaches⟩ := isWalked.sound entry member
    obtain rfl := List.mem_singleton.mp among
    exact covers handle given entry.1 entry.2 reaches scans
  · unfold Arena.hasScan at none
    cases ends : ((grown calls).scans root).outcome with
    | error failure =>
      rw [ends] at none
      cases none
    | ok _ =>
      rw [ends] at none
      have nothing : ((grown calls).scans root).found = [] := by
        simpa [Except.map] using none
      refine List.eq_nil_iff_forall_not_mem.mpr fun entry member => ?_
      exact List.not_mem_nil (nothing ▸ found ends entry member)
  · obtain ⟨fine, named⟩ :=
      Executing.settleScans_names outside (grown calls) root spawner world before ends
    exact named entry (found fine entry member)

/-- A table on the workers, joined with itself. -/
def doubling : List PlanCall :=
  let output : OutputSchema := .ofSchema ⟨[⟨"a", .int64, false⟩]⟩
  [.operator output (.partitionScan (.pending ⟨0⟩) 5), .operator output (.limit ⟨0⟩ 3 0),
    .join (.ofSchema ⟨[⟨"a", .int64, false⟩, ⟨"b", .int64, false⟩]⟩) ⟨1⟩ ⟨1⟩ .cross []]

/-- The table is asked for once for each side, and its scan is found once. -/
theorem doubling_convert_asks :
    ∃ last chronicle,
      ((grown doubling).chronicled Arena.agreeable (.schemaOnly fun _ => return some {}) ⟨2⟩).run
          ((), {}) = (.ok (4, ()), last, chronicle) ∧
        chronicle.asked = [(⟨0⟩, .pending ⟨0⟩), (⟨0⟩, .pending ⟨0⟩)] ∧
        ((grown doubling).scans ⟨2⟩).found = [(⟨0⟩, .pending ⟨0⟩)] := by
  obtain ⟨result, last, chronicle, ran, -, agrees, -⟩ :=
    convert_asks doubling Arena.agreeable (.schemaOnly fun _ => return some {}) ⟨2⟩ ()
  have value : ((grown doubling).chronicled Arena.agreeable (.schemaOnly fun _ => return some {})
      ⟨2⟩).run ((), {}) = (.ok (4, ()), (), ⟨_, [(⟨0⟩, .pending ⟨0⟩), (⟨0⟩, .pending ⟨0⟩)]⟩) := rfl
  obtain ⟨rfl, same⟩ := Prod.mk.inj (ran.symm.trans value)
  obtain ⟨rfl, rfl⟩ := Prod.mk.inj same
  obtain ⟨-, once, found⟩ := agrees _ rfl
  refine ⟨_, _, value, rfl, List.perm_singleton.mp ?_⟩
  refine (List.perm_ext_iff_of_nodup once.of_map (List.nodup_singleton _)).mpr fun entry => ?_
  rw [← found]
  simp

end PlanCall

end Rankwise
