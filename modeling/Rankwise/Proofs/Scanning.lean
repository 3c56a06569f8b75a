import Rankwise.Proofs.Grounding

/-!
# Finding scans

Before a plan is sent to the workers, a walk along all references looks for the tables that it scans
there. In a plan without cycles the walk comes to its end and finds exactly the scans that can be
reached, each once (`Grounded.scans_isWalked`). What carries the induction is that nothing leads
from the visited nodes to anywhere but to visited nodes and to those that wait (`IsClosed`).
-/

namespace Rankwise.Arena

variable {arena : Arena} {root id : NodeId}

/-- What was visited leads only to what was visited or waits. -/
def IsClosed (arena : Arena) (visited waiting : List NodeId) : Prop :=
  ∀ id ∈ visited, ∀ child, arena.Refers id child → child ∈ visited ∨ child ∈ waiting

namespace IsClosed

variable {visited waiting : List NodeId}

/-- Whatever can be reached from what was visited was visited, or can be reached from what waits. -/
theorem reaches (closed : arena.IsClosed visited waiting)
    (reaches : arena.Reaches root id) (start : root ∈ visited) :
    id ∈ visited ∨ ∃ first ∈ waiting, arena.Reaches first id := by
  induction reaches with
  | refl => exact .inl start
  | @tail middle child _ refers inductionHypothesis =>
    rcases inductionHypothesis with before | ⟨first, waits, reaches⟩
    · rcases closed middle before child refers with further | waits
      · exact .inl further
      · exact .inr ⟨child, waits, .refl⟩
    · exact .inr ⟨first, waits, reaches.tail refers⟩

/-- A node that was visited need not wait. -/
theorem skip (closed : arena.IsClosed visited (id :: waiting)) (isVisited : id ∈ visited) :
    arena.IsClosed visited waiting := by
  intro other member child refers
  rcases closed other member child refers with before | waits
  · exact .inl before
  · rcases List.mem_cons.mp waits with rfl | further
    · exact .inl isVisited
    · exact .inr further

/-- A node is visited, and all that it refers to waits. -/
theorem visit (closed : arena.IsClosed visited (id :: waiting)) {children : List NodeId}
    (below : ∀ child, arena.Refers id child → child ∈ children) :
    arena.IsClosed (id :: visited) (children ++ waiting) := by
  intro other member child refers
  rcases List.mem_cons.mp member with rfl | before
  · exact .inr (List.mem_append_left _ (below child refers))
  · rcases closed other before child refers with visitedToo | waits
    · exact .inl (List.mem_cons_of_mem id visitedToo)
    · rcases List.mem_cons.mp waits with rfl | further
      · exact .inl List.mem_cons_self
      · exact .inr (List.mem_append_right _ further)

end IsClosed

/-- The node at a place scans this table on the workers. -/
def ScansAt (arena : Arena) (id : NodeId) (table : LazyTable) : Prop :=
  ∃ node, arena.nodes[id.index]? = some node ∧ scanned? node.content = some table

/-- The nodes that a node lists are those that it refers to. -/
theorem mem_references {node : Node} (found : arena.nodes[id.index]? = some node) {child : NodeId} :
    child ∈ node.references.map Prod.snd ↔ arena.Refers id child := by
  constructor
  · intro member
    obtain ⟨reference, listed, rfl⟩ := List.mem_map.mp member
    exact ⟨node, found, reference, listed, rfl⟩
  · rintro ⟨same, foundToo, reference, listed, rfl⟩
    obtain rfl := Option.some.inj (found.symm.trans foundToo)
    exact List.mem_map_of_mem listed

/-- A walk that meets no missing node comes to its end. It finds scans that it can reach and that it
has not visited, each once, and it finds all of them. -/
structure IsWalked (arena : Arena) (visited waiting : List NodeId) (walk : ScanWalk) : Prop where
  ends : walk.outcome = .ok ()
  sound : ∀ entry ∈ walk.found, arena.ScansAt entry.1 entry.2 ∧ entry.1 ∉ visited ∧
    ∃ start ∈ waiting, arena.Reaches start entry.1
  complete : ∀ id table, arena.ScansAt id table → id ∉ visited →
    (∃ start ∈ waiting, arena.Reaches start id) → (id, table) ∈ walk.found
  once : (walk.found.map Prod.fst).Nodup

namespace IsWalked

variable {visited waiting : List NodeId} {walk : ScanWalk} {node : Node} {children : List NodeId}

/-- Where nothing waits, the walk is over. -/
theorem none (arena : Arena) (visited : List NodeId) : arena.IsWalked visited [] {} where
  ends := rfl
  sound := List.forall_mem_nil _
  complete := by
    rintro id table - - ⟨start, wrong, -⟩
    cases wrong
  once := List.nodup_nil

/-- Nothing new can be reached from a node that was visited. -/
theorem skip (walked : arena.IsWalked visited waiting walk) (closed : arena.IsClosed visited waiting)
    (isVisited : id ∈ visited) : arena.IsWalked visited (id :: waiting) walk where
  ends := walked.ends
  sound entry member := by
    obtain ⟨scans, isNew, start, waits, reaches⟩ := walked.sound entry member
    exact ⟨scans, isNew, start, List.mem_cons_of_mem id waits, reaches⟩
  complete other table scans isNew reached := by
    refine walked.complete other table scans isNew ?_
    obtain ⟨start, waits, reaches⟩ := reached
    rcases List.mem_cons.mp waits with rfl | further
    · exact (closed.reaches reaches isVisited).resolve_left isNew
    · exact ⟨start, further, reaches⟩
  once := walked.once

/-- What can be reached from the nodes below a new one can be reached from the new one, and the
other way round but for the new node itself. -/
theorem visit (walked : arena.IsWalked (id :: visited) (children ++ waiting) walk)
    (isNew : id ∉ visited) (found : arena.nodes[id.index]? = some node)
    (below : ∀ child, child ∈ children ↔ arena.Refers id child) :
    arena.IsWalked visited (id :: waiting)
      { walk with found := ((scanned? node.content).map (id, ·)).toList ++ walk.found } where
  ends := walked.ends
  -- What is found is found here or below, and below only what is not visited, this node included.
  sound entry member := by
    rcases List.mem_append.mp member with here | further
    · obtain ⟨table, scans, rfl⟩ := Option.map_eq_some_iff.mp (Option.mem_toList.mp here)
      exact ⟨⟨node, found, scans⟩, isNew, id, List.mem_cons_self, .refl⟩
    · obtain ⟨scans, isNewToo, start, waits, reaches⟩ := walked.sound entry further
      rw [List.mem_cons, not_or] at isNewToo
      refine ⟨scans, isNewToo.2, ?_⟩
      rcases List.mem_append.mp waits with refers | still
      · exact ⟨id, List.mem_cons_self, .head ((below start).mp refers) reaches⟩
      · exact ⟨start, List.mem_cons_of_mem id still, reaches⟩
  complete other table scans isNewToo reached := by
    by_cases here : other = id
    · subst here
      obtain ⟨same, foundToo, scans⟩ := scans
      obtain rfl := Option.some.inj (found.symm.trans foundToo)
      exact List.mem_append_left _ (by simp [scans])
    · refine List.mem_append_right _ (walked.complete other table scans ?_ ?_)
      · rw [List.mem_cons, not_or]
        exact ⟨here, isNewToo⟩
      · obtain ⟨start, waits, reaches⟩ := reached
        rcases List.mem_cons.mp waits with rfl | further
        · rcases Relation.ReflTransGen.cases_head reaches with rfl | ⟨child, refers, reaches⟩
          · exact absurd rfl here
          · exact ⟨child, List.mem_append_left _ ((below child).mpr refers), reaches⟩
        · exact ⟨start, List.mem_append_right _ further, reaches⟩
  once := by
    cases scans : scanned? node.content with
    | none => exact walked.once
    | some table =>
      refine List.nodup_cons.mpr ⟨fun member => ?_, walked.once⟩
      obtain ⟨entry, listed, same⟩ := List.mem_map.mp member
      exact (walked.sound entry listed).2.1 (same ▸ List.mem_cons_self)

end IsWalked

/-- From nodes that lead to no missing one, the walk comes to its end. -/
theorem scansFrom_isWalked (visited waiting : List NodeId)
    (grounded : ∀ id ∈ waiting, arena.Grounded id) (closed : arena.IsClosed visited waiting) :
    arena.IsWalked visited waiting (arena.scansFrom visited waiting) := by
  induction visited, waiting using scansFrom.induct arena with
  | case1 visited =>
    rw [scansFrom]
    exact .none arena visited
  | case2 visited id waiting isVisited inductionHypothesis =>
    have closedStill := closed.skip isVisited
    rw [scansFrom, dif_pos isVisited]
    exact (inductionHypothesis (fun later member => grounded later (List.mem_cons_of_mem id member))
      closedStill).skip closedStill isVisited
  | case3 visited id waiting isNew missing =>
    cases grounded id List.mem_cons_self with
    | intro _ node found _ =>
      rw [missing] at found
      cases found
  | case4 visited id waiting isNew node found _ inductionHypothesis =>
    have below (child : NodeId) :
        child ∈ (node.references.map Prod.snd).reverse ↔ arena.Refers id child :=
      List.mem_reverse.trans (mem_references found)
    have groundedThen : ∀ later ∈ (node.references.map Prod.snd).reverse ++ waiting,
        arena.Grounded later := by
      intro later member
      rcases List.mem_append.mp member with refers | still
      · exact (grounded id List.mem_cons_self).of_refers ((below later).mp refers)
      · exact grounded later (List.mem_cons_of_mem id still)
    rw [arena.scansFrom_found visited waiting id node isNew found]
    exact (inductionHypothesis groundedThen
      (closed.visit fun child => (below child).mpr)).visit isNew found below

/-- The scans that are found in a plan without cycles are those that can be reached, each once. -/
theorem Grounded.scans_isWalked (grounded : arena.Grounded root) :
    arena.IsWalked [] [root] (arena.scans root) := by
  apply scansFrom_isWalked
  · exact List.forall_mem_singleton.mpr grounded
  · exact List.forall_mem_nil _

end Rankwise.Arena
