import Rankwise.Plan.Arena

/-!
# Scans of tables on the workers

Before a plan is sent to the workers, every table that it scans there has to lie there. The walk
along all references finds these scans, each once however often it is shared. It may stumble over a
reference that leads nowhere; what was found until then is kept, since it is acted upon in order.
-/

namespace Rankwise.Arena

/-- The scans that a walk has found, in order, and whether it came to its end. -/
structure ScanWalk where
  found : List (NodeId × LazyTable) := []
  outcome : Except Failure Unit := .ok ()

/-- The table on the workers that a node scans, if it does. -/
def scanned? : Node.Content → Option LazyTable
  | .operator (.partitionScan table _) => some table
  | _ => none

/-- How many nodes have not been visited. -/
def unvisited (arena : Arena) (visited : List NodeId) : Nat :=
  (List.range arena.size).countP fun index => !visited.contains ⟨index⟩

/-- A further node is visited. -/
theorem unvisited_cons_lt (arena : Arena) (visited : List NodeId) (id : NodeId)
    (isThere : id.index < arena.size) (isNew : id ∉ visited) :
    arena.unvisited (id :: visited) < arena.unvisited visited := by
  have shrinks (places : List Nat) (listed : id.index ∈ places) :
      places.countP (fun index => !(id :: visited).contains ⟨index⟩)
        < places.countP fun index => !visited.contains ⟨index⟩ := by
    induction places with
    | nil => simp at listed
    | cons place rest inductionHypothesis =>
      have rest_le : rest.countP (fun index => !(id :: visited).contains ⟨index⟩)
          ≤ rest.countP fun index => !visited.contains ⟨index⟩ :=
        List.countP_mono_left fun index _ => by
          simp only [List.contains_cons, Bool.not_or, Bool.and_eq_true]
          exact fun both => both.2
      by_cases same : place = id.index
      · subst same
        have mine : (⟨id.index⟩ : NodeId) = id := rfl
        simp only [List.countP_cons, mine, List.contains_cons, beq_self_eq_true, Bool.true_or,
          Bool.not_true, Bool.false_eq_true, if_false]
        have : (!visited.contains id) = true := by simpa using isNew
        simp only [this, if_true]
        simp only [List.contains_cons] at rest_le
        omega
      · have further : id.index ∈ rest := by
          rcases List.mem_cons.mp listed with here | further
          · exact absurd here.symm same
          · exact further
        have smaller := inductionHypothesis further
        have differs : ((⟨place⟩ : NodeId) == id) = false := by
          simp only [beq_eq_false_iff_ne, ne_eq]
          exact fun equal => same (congrArg NodeId.index equal)
        simp only [List.countP_cons, List.contains_cons, differs, Bool.false_or]
        simp only [List.contains_cons] at smaller
        omega
  exact shrinks _ (List.mem_range.mpr isThere)

/-- Visits the nodes that are still to be visited, the last mentioned one first. -/
def scansFrom (arena : Arena) (visited : List NodeId) : List NodeId → ScanWalk
  | [] => {}
  | id :: waiting =>
    if isVisited : id ∈ visited then arena.scansFrom visited waiting
    else match isFound : arena.nodes[id.index]? with
      | none => { outcome := .error (unknownNode id arena.size) }
      | some node =>
        have : arena.unvisited (id :: visited) < arena.unvisited visited :=
          arena.unvisited_cons_lt visited id (List.getElem?_eq_some_iff.mp isFound).1 isVisited
        let walk := arena.scansFrom (id :: visited)
          ((node.references.map Prod.snd).reverse ++ waiting)
        { walk with found := ((scanned? node.content).map (id, ·)).toList ++ walk.found }
  termination_by waiting => (arena.unvisited visited, waiting.length)

/-- The scans of tables on the workers that a plan makes. -/
def scans (arena : Arena) (root : NodeId) : ScanWalk := arena.scansFrom [] [root]

/-- Whether a plan scans any table on the workers. -/
def hasScan (arena : Arena) (root : NodeId) : Except Failure Bool :=
  (arena.scans root).outcome.map fun _ => !(arena.scans root).found.isEmpty

end Rankwise.Arena
