import Mathlib.Data.List.Induction
import Rankwise.Proofs.CarefulBuilding

/-!
# Well-formed plans

Clients build plans by calls that add nodes, copy them under another description or rewrite
expressions, and may put any names of nodes into them. A plan that grew out of nothing by such calls
refers to earlier nodes of the right sort only, as far as its nodes are built from others. It is
sound altogether exactly if no constant and no null was added whose recorded source was not there;
nothing else makes a plan unsound, copies and rewrites included.

Calls name nodes to build on them, to take columns of them, to copy them or to rewrite them
(`PlanCall.Resolves`). A call for which such a node is missing, or of the wrong sort, is refused by
the plan, again but for the sources of constants and nulls, and but for references to columns that
an expression does not have: for those the missing column is what is told of
(`PlanCall.well_formed_exact`). The relation onto which an expression is to be moved is not among
these names, and sides of which one is a scalar are not looked at. Such a name may be anything;
whatever is added because of it keeps the plan as sound as it was.
-/

namespace Rankwise

/-- What clients ask of a plan. -/
inductive PlanCall where
  | operator (output : OutputSchema) (operator : Operator)
  | expression (output : OutputSchema) (expression : Expression)
  | withOutput (id : NodeId) (output : OutputSchema)
  | tableScan (table : Batch)
  | projection (output : OutputSchema) (source : NodeId) (expressions : List NodeId)
  | filter (source predicate : NodeId)
  | limit (source : NodeId) (count : Nat)
  | join (output : OutputSchema) (left right : NodeId) (kind : JoinKind)
      (conditions : List JoinCondition)
  | column (source : NodeId) (index : Nat)
  | columns (source : NodeId) (indices : List Nat)
  | select (source : NodeId) (indices : List Nat)
  | constant (output : OutputSchema) (source : NodeId) (value : Scalar)
  | null (output : OutputSchema) (source : NodeId) (field : Nat)
  | unary (output : OutputSchema) (operand : NodeId) (operator : UnaryOperator)
  | binary (output : OutputSchema) (left right : Side) (operator : BinaryOperator)
  | aggregate (output : OutputSchema) (source : NodeId) (function : String) (columns : List Nat)
      (skipNulls : Bool)
  | retarget (id target : NodeId)
  | matchSources (left right : Side)
  | shiftFunctions (overflow : Overflow) (id target : NodeId) (offset : Nat)

namespace PlanCall

/-- The work of a call. What it gives matters to nobody here: any name may stand in a later call. -/
def building : PlanCall → Building Unit
  | operator output made => do let _ ← Building.operator output made
  | expression output made => do let _ ← Building.expression output made
  | withOutput id output => do let _ ← Building.withOutput id output
  | tableScan table => do let _ ← Building.tableScan table
  | projection output source expressions => do let _ ← Building.projection output source expressions
  | filter source predicate => do let _ ← Building.filter source predicate
  | limit source count => do let _ ← Building.limit source count
  | join output left right kind conditions => do
    let _ ← Building.join output left right kind conditions
  | column source index => do let _ ← Building.column source index
  | columns source indices => do let _ ← Building.columns source indices
  | select source indices => do let _ ← Building.select source indices
  | constant output source value => do let _ ← Building.constant output source value
  | null output source field => do let _ ← Building.null output source field
  | unary output operand sign => do let _ ← Building.unary output operand sign
  | binary output left right sign => do let _ ← Building.binary output left right sign
  | aggregate output source function read skipNulls => do
    let _ ← Building.aggregate output source function read skipNulls
  | retarget id target => do let _ ← Building.retarget id target
  | matchSources left right => do let _ ← Building.matchSources left right
  | shiftFunctions overflow id target offset => do
    let _ ← Building.shiftFunctions overflow id target offset

/-- What becomes of a call on a plan, and the plan afterwards. -/
def run (call : PlanCall) (arena : Arena) : Except Stop Unit × Arena := call.building.run.run arena

/-- The plan that has grown out of nothing by these calls, one after the other. A call that is
refused does not keep the next one from being made. -/
def grown (calls : List PlanCall) : Arena := calls.foldl (fun arena call => (call.run arena).2) {}

/-- What the node is made of that a call adds, if it adds a single one of its own making. -/
def content? : PlanCall → Option Node.Content
  | operator _ made => some (.operator made)
  | expression _ made => some (.expression made)
  | tableScan table => some (.operator (.tableScan table))
  | projection _ source expressions => some (.operator (.projection source expressions))
  | filter source predicate => some (.operator (.filter source predicate))
  | limit source count => some (.operator (.limit source count 0))
  | join _ left right kind conditions => some (.operator (.join left right kind conditions))
  | column source index => some (.expression (.column source index))
  | constant _ source value => some (.expression (.constant source value))
  | null _ source field => some (.expression (.null source field))
  | unary _ operand sign => some (.expression (.unary operand sign))
  | binary _ left right sign => some (.expression (.binary left right sign))
  | aggregate _ source function read skipNulls =>
    some (.expression (.aggregate source function read skipNulls))
  | withOutput _ _ | columns _ _ | select _ _ | retarget _ _ | matchSources _ _
  | shiftFunctions _ _ _ _ => none

/-- What the call builds on is there and of the sort that is meant: what its node will name, the
relation whose columns it takes, the node that it copies and the expressions that it rewrites. Where
an expression is to be moved to is not asked here: an expression that cannot be moved there is no
failure. Sides of which one is a scalar are given back as they are, so nothing is meant by them. -/
def Resolves (arena : Arena) : PlanCall → Prop
  | withOutput id _ => ∃ node, arena.nodes[id.index]? = some node
  | columns source indices => ∀ _ ∈ indices, arena.Resolves (.source, source)
  | select source _ => arena.Resolves (.input, source)
  | retarget id _ | shiftFunctions _ id _ _ => arena.Resolves (.expression, id)
  | matchSources (.expression left) (.expression right) =>
    arena.Resolves (.expression, left) ∧ arena.Resolves (.expression, right)
  | matchSources _ _ => True
  | call => ∀ content, call.content? = some content → ∀ reference ∈ content.mentions,
      arena.Resolves reference

/-- If what the call builds on is missing or of the wrong sort, it fails with a failure of the plan.
-/
def IsStrict (call : PlanCall) (arena : Arena) : Prop :=
  ¬ call.Resolves arena → ∃ stop, (call.run arena).1 = .error stop ∧ stop.IsOfPlan

/-- The call adds a constant or a null over a source that is no relation of the plan. -/
def RecordsNone (call : PlanCall) (arena : Arena) : Prop :=
  ∃ content source, call.content? = some content ∧ content.recorded? = some source ∧
    ¬ arena.Resolves (.source, source)

/-- The column that a call refers to first, with its source. -/
def column? : PlanCall → Option (NodeId × Nat)
  | column source index | columns source (index :: _) | select source (index :: _) =>
    some (source, index)
  | _ => none

/-- The call refers to a column of an expression which the expression does not have. -/
def ReadsBeyond (call : PlanCall) (arena : Arena) : Prop :=
  ∃ source index node, call.column? = some (source, index) ∧
    arena.nodes[source.index]? = some node ∧ node.isExpression = true ∧
      node.output.schema.fields[index]? = none

end PlanCall

open Building (Careful)

variable {arena : Arena} {source : NodeId} {index : Nat}

namespace Building.Careful

/-- A building stays careful when what it gives is not used. -/
theorem asked {α : Type} {building : Building α} {stops stopsToo : Stop → Prop} {gives : α → Prop}
    {given : Prop} (careful : Careful building arena stops gives)
    (stop : ∀ stop, stops stop → stopsToo stop) (give : ∀ value, gives value → given) :
    Careful (do let _ ← building) arena stopsToo fun _ => given :=
  (careful.weaken stop fun _ => id).bind fun value _ _ built said => .pure built (give value said)

/-- A reference to a column is refused by the plan, or there is no such column. -/
theorem column (built : arena.IsBuilt) :
    Careful (column source index) arena
      (fun stop => stop.IsOfPlan ∨ ∃ node, arena.nodes[source.index]? = some node ∧
        node.output.schema.fields[index]? = none)
      fun _ => arena.Resolves (.source, source) := by
  refine bindGet (bindLook built (fun _ failed => .inl ⟨_, rfl, Arena.kind_of_output failed⟩)
    fun output found => ?_)
  obtain ⟨node, there, rfl⟩ := (Arena.output_iff _).mp found
  refine bindLook built (fun _ failed => .inr ⟨node, there, ?_⟩) fun field _ => ?_
  · rw [Schema.field] at failed
    split at failed
    · cases failed
    · assumption
  · exact (Careful.expression built (fun _ named => by cases named)).weaken (fun _ => .inl)
      fun _ referred => referred _ List.mem_cons_self

/-- Several columns of one expression refer to this expression. -/
theorem columns (built : arena.IsBuilt) {indices : List Nat} :
    Careful (columns source indices) arena (fun _ => True)
      fun _ => ∀ _ ∈ indices, arena.Resolves (.source, source) := by
  rw [Building.columns]
  induction indices generalizing arena with
  | nil => exact .pure built nofun
  | cons index rest inductionHypothesis =>
    rw [List.mapM_cons]
    refine ((column built).weaken (fun _ _ => trivial) fun _ => id).bind
      fun _ _ _ builtMiddle resolves => ?_
    exact (inductionHypothesis builtMiddle).bind fun _ _ _ builtThen _ =>
      .pure builtThen fun _ _ => resolves

/-- A selection refers to its input, and if it selects nothing the plan alone can refuse it. -/
theorem select (built : arena.IsBuilt) {indices : List Nat} :
    Careful (select source indices) arena (fun stop => indices = [] → stop.IsOfPlan)
      fun _ => arena.Resolves (.input, source) := by
  have projecting {later : Arena} (builtLater : later.IsBuilt) (expressions : List NodeId) :
      Careful (do
        let schema := (← (← get).output source).schema
        let fields ← (indices.mapM schema.field : Except Failure (List Field))
        projection (.ofSchema { fields }) source expressions) later
        (fun stop => indices = [] → stop.IsOfPlan) fun _ => later.Resolves (.input, source) := by
    refine bindGet (bindLook builtLater (fun _ failed _ => ⟨_, rfl, Arena.kind_of_output failed⟩)
      fun output _ => ?_)
    refine bindLook builtLater (fun _ failed none => ?_) fun fields _ => ?_
    · subst none
      cases failed
    · exact (push builtLater (fun _ _ named => by cases named)).weaken (fun _ stopped _ => stopped)
        fun _ referred => referred _ List.mem_cons_self
  cases indices with
  | nil => exact projecting built []
  | cons index rest =>
    refine ((columns built).weaken (fun _ _ => nofun) fun _ resolves => resolves).bind
      fun expressions _ _ builtThen resolves => ?_
    refine (projecting builtThen expressions).weaken (fun _ => id) fun _ _ => ?_
    exact Arena.resolves_input_iff.mpr (resolves index List.mem_cons_self)

end Building.Careful

namespace PlanCall

variable {call : PlanCall} {content : Node.Content}

/-- A call that adds a single node names what this node mentions. -/
theorem resolves_iff (same : call.content? = some content) :
    call.Resolves arena ↔ ∀ reference ∈ content.mentions, arena.Resolves reference := by
  cases call <;> cases same <;> simp [Resolves, content?]

/-- A call that adds a single node is careful if this node records no source that is missing. -/
theorem careful_push (built : arena.IsBuilt) (output : OutputSchema)
    (same : call.content? = some content) (recorded : ¬ call.RecordsNone arena) :
    Careful (Building.push ⟨output, content⟩) arena Stop.IsOfPlan fun _ => call.Resolves arena := by
  have resolves (source : NodeId) (named : content.recorded? = some source) :
      arena.Resolves (.source, source) :=
    not_not.mp fun missing => recorded ⟨content, source, same, named, missing⟩
  refine (Building.Careful.push built fun _ => resolves).weaken (fun _ => id) fun _ referred => ?_
  refine (resolves_iff same).mpr fun reference member => ?_
  rcases (Node.mentions_iff ⟨output, content⟩ reference).mp member with built | ⟨source, named, rfl⟩
  · exact referred reference built
  · exact resolves source named

/-- A call is careful if it records no source that is missing: it succeeds only if all that it names
is there, and unless it refers to columns it is refused by the plan or all that it names is there,
too.
-/
theorem careful (built : arena.IsBuilt) (recorded : ¬ call.RecordsNone arena) :
    Careful call.building arena
      (fun stop => call.column? = none → stop.IsOfPlan ∨ call.Resolves arena)
      fun _ => call.Resolves arena := by
  have adds (output : OutputSchema) {content : Node.Content} (same : call.content? = some content) :=
    careful_push built output same recorded
  cases call with
  | operator output | expression output | projection output | join output | constant output
  | null output | unary output | binary output | aggregate output =>
    exact (adds output rfl).asked (fun _ stopped _ => .inl stopped) fun _ resolves => resolves
  | tableScan table =>
    exact (adds _ rfl).asked (fun _ stopped _ => .inl stopped) fun _ resolves => resolves
  | filter source | limit source =>
    refine Careful.asked (Building.Careful.bindGet (Building.Careful.bindLook built
      (fun _ failed => ⟨_, rfl, Arena.kind_of_output failed⟩) fun output _ => adds output rfl))
      (fun _ stopped _ => .inl stopped) fun _ resolves => resolves
  | withOutput copied output =>
    refine Careful.asked (Building.Careful.bindGet (Building.Careful.bindLook built
      (fun _ failed => ⟨_, rfl, Arena.kind_of_node failed⟩) fun node found => ?_))
      (fun _ stopped _ => .inl stopped) fun _ resolves => resolves
    have there := Arena.found_of_node found
    -- A copy records what the node records.
    refine (Building.Careful.push built fun sound source named => ?_).weaken (fun _ => id)
      fun _ _ => ⟨node, there⟩
    exact (sound copied node there _ ((node.mentions_iff _).mpr (.inr ⟨source, named, rfl⟩))).2
  | column source index =>
    refine (Building.Careful.column built).asked (fun _ _ => nofun) fun _ resolves => ?_
    exact (resolves_iff rfl).mpr fun reference member => List.mem_singleton.mp member ▸ resolves
  | columns source indices =>
    cases indices with
    | nil => exact .pure built nofun
    | cons index rest =>
      exact (Building.Careful.columns built).asked (fun _ _ => nofun) fun _ resolves => resolves
  | select source indices =>
    refine (Building.Careful.select built).asked (fun stop stopped none => ?_)
      fun _ resolves => resolves
    cases indices with
    | nil => exact .inl (stopped rfl)
    | cons index rest => cases none
  | retarget =>
    exact (Building.Careful.retarget built).asked (fun _ stopped _ => .inl stopped)
      fun _ resolves => resolves
  | matchSources left right =>
    cases left with
    | scalar value => exact .pure built trivial
    | expression part =>
      cases right with
      | scalar value => exact .pure built trivial
      | expression other =>
        exact (Building.Careful.matchSources built).asked (fun _ stopped _ => .inl stopped)
          fun _ resolves => resolves
  | shiftFunctions =>
    exact (Building.Careful.shiftFunctions built).asked
      (fun _ stopped _ => stopped.imp_right fun broken => broken.2.2.resolves) fun _ resolves => resolves

/-- A constant or a null is accepted, whatever source it records. -/
theorem run_recorded (arena : Arena) (same : call.content? = some content)
    (named : content.recorded? = some source) :
    ∃ output, arena.check ⟨output, content⟩ = .ok () ∧
      call.run arena = (.ok (), arena.adding ⟨output, content⟩) := by
  have accepted (output : OutputSchema) (expression : Expression)
      (named : expression.recorded? = some source) :
      arena.check ⟨output, .expression expression⟩ = .ok () ∧
        (do let _ ← Building.expression output expression : Building Unit).run.run arena =
          (.ok (), arena.adding ⟨output, .expression expression⟩) := by
    have accepted := arena.check_recorded output named
    refine ⟨accepted, ?_⟩
    rw [Building.run_bind, Building.expression, Building.run_push, accepted]
    rfl
  cases call <;> cases same
  case expression output made => exact ⟨output, accepted output made named⟩
  case constant output recorded value => exact ⟨output, accepted output _ named⟩
  case null output recorded field => exact ⟨output, accepted output _ named⟩
  all_goals cases named

/-- A call that refers to columns fails as its first reference does. -/
theorem run_column (first : call.column? = some (source, index)) {stop : Stop} {later : Arena}
    (failed : (Building.column source index).run.run arena = (.error stop, later)) :
    (call.run arena).1 = .error stop := by
  have failing (indices : List Nat) :
      (Building.columns source (index :: indices)).run.run arena = (.error stop, later) := by
    rw [Building.columns, List.mapM_cons, Building.run_bind, failed]
  cases call with
  | column _ _ =>
    cases first
    rw [run, building, Building.run_bind, failed]
  | columns _ indices =>
    cases indices with
    | nil => cases first
    | cons _ rest =>
      cases first
      rw [run, building, Building.run_bind, failing]
  | select _ indices =>
    cases indices with
    | nil => cases first
    | cons _ rest =>
      cases first
      rw [run, building, Building.run_bind, Building.select, Building.run_bind, failing]
  | _ => cases first

/-- Whatever a call names, the plan only grows, as a plan that was built. -/
theorem run_built (built : arena.IsBuilt) (call : PlanCall) :
    (call.run arena).2.Extends arena ∧ (call.run arena).2.IsBuilt := by
  by_cases recorded : call.RecordsNone arena
  · obtain ⟨content, source, same, named, -⟩ := recorded
    obtain ⟨output, accepted, ran⟩ := run_recorded arena same named
    rw [ran]
    exact ⟨.adding arena _, .adding arena _ built accepted⟩
  · exact ⟨(careful built recorded).further, (careful built recorded).built⟩

/-- A call that begins with a column names the expression of the column. -/
theorem resolves_column (first : call.column? = some (source, index)) :
    call.Resolves arena ↔ arena.Resolves (.source, source) := by
  cases call with
  | column _ _ =>
    cases first
    exact (resolves_iff rfl).trans List.forall_mem_singleton
  | columns _ indices =>
    cases indices with
    | nil => cases first
    | cons _ rest =>
      cases first
      exact ⟨fun all => all _ List.mem_cons_self, fun resolves _ _ => resolves⟩
  | select _ indices =>
    cases indices with
    | nil => cases first
    | cons _ rest =>
      cases first
      exact Arena.resolves_input_iff
  | _ => cases first

/-- A call that refers to a column which an expression does not have is told of the column, and not
of the expression that it names in place of a relation. -/
theorem not_strict_of_beyond (beyond : call.ReadsBeyond arena) : ¬ call.IsStrict arena := by
  obtain ⟨source, index, node, first, found, sort, none⟩ := beyond
  have unresolved : ¬ arena.Resolves (.source, source) := by
    rintro ⟨other, there, relation⟩
    obtain rfl := Option.some.inj (found.symm.trans there)
    cases relation.mp sort
  have failed : (Building.column source index).run.run arena =
      (.error (.failed (Schema.noField index node.output.schema.size)), arena) := by
    have output : arena.output source = .ok node.output := (Arena.output_iff _).mpr ⟨node, found, rfl⟩
    have field : node.output.schema.field index =
        .error (Schema.noField index node.output.schema.size) := by
      rw [Schema.field, none]
    show (do
      let output ← (liftM (arena.output source) : Building OutputSchema)
      let field ← (liftM (output.schema.field index) : Building Field)
      Building.expression (.ofField field) (.column source index)).run.run arena = _
    rw [output, Building.run_bind]
    show (do
      let field ← (liftM (node.output.schema.field index) : Building Field)
      Building.expression (.ofField field) (.column source index)).run.run arena = _
    rw [field]
    rfl
  intro strict
  obtain ⟨stop, refused, failure, rfl, kind⟩ := strict fun resolves =>
    unresolved ((resolves_column first).mp resolves)
  cases (run_column first failed).symm.trans refused
  cases kind

/-- A call that names what is missing or of the wrong sort is refused by the plan, unless it adds a
constant or a null over it or refers to a column which an expression does not have. -/
theorem strict_iff (built : arena.IsBuilt) (call : PlanCall) :
    call.IsStrict arena ↔ ¬ call.RecordsNone arena ∧ ¬ call.ReadsBeyond arena := by
  -- A call is lax where a node records a source without looking it up, or where a column fails
  -- first.
  constructor
  · intro strict
    refine ⟨fun recorded => ?_, fun beyond => not_strict_of_beyond beyond strict⟩
    obtain ⟨content, source, same, named, missing⟩ := recorded
    obtain ⟨output, -, ran⟩ := run_recorded arena same named
    have member := (Node.mentions_iff ⟨output, content⟩ _).mpr (.inr ⟨source, named, rfl⟩)
    obtain ⟨stop, failed, -⟩ := strict fun resolves =>
      missing ((resolves_iff same).mp resolves _ member)
    rw [ran] at failed
    cases failed
  · rintro ⟨recorded, within⟩ unresolved
    have careful := careful built recorded
    cases result : (call.run arena).1 with
    | ok value => exact absurd (careful.given value result) unresolved
    | error stop =>
      refine ⟨stop, rfl, ?_⟩
      cases first : call.column? with
      | none => exact (careful.stopped stop result first).resolve_right unresolved
      | some read =>
        obtain ⟨source, index⟩ := read
        have missing : ¬ arena.Resolves (.source, source) := fun resolves =>
          unresolved ((resolves_column first).mpr resolves)
        have column : Building.Careful (Building.column source index) arena _ _ :=
          Building.Careful.column built
        cases ran : (Building.column source index).run.run arena with
        | mk answer later =>
          rw [Careful, ran] at column
          cases answer with
          | ok id => exact absurd (column.given id rfl) missing
          | error reason =>
            obtain rfl := Except.error.inj ((run_column first ran).symm.trans result)
            rcases column.stopped reason rfl with ofPlan | ⟨node, found, none⟩
            · exact ofPlan
            · refine absurd ⟨source, index, node, first, found, ?_, none⟩ within
              by_contra relation
              exact missing ⟨node, found, by simp [relation]⟩

/-! The plans that clients come to. -/

/-- One more call goes on from the plan that the others made. -/
theorem grown_append (calls : List PlanCall) (call : PlanCall) :
    grown (calls ++ [call]) = (call.run (grown calls)).2 := by
  rw [grown, List.foldl_append]
  rfl

/-- Whatever the calls, the plan was built by pushes. -/
theorem grown_built (calls : List PlanCall) : (grown calls).IsBuilt := by
  induction calls using List.reverseRecOn with
  | nil => exact .empty
  | append_singleton calls call inductionHypothesis =>
    rw [grown_append]
    exact (run_built inductionHypothesis call).2

/-- A plan is sound if it was before the last call and this call recorded no source that is missing.
-/
theorem sound_append (calls : List PlanCall) (call : PlanCall) :
    (grown (calls ++ [call])).IsSound ↔
      (grown calls).IsSound ∧ ¬ call.RecordsNone (grown calls) := by
  rw [grown_append]
  have built := grown_built calls
  constructor
  · intro sound
    refine ⟨Arena.Extends.sound (run_built built call).1 sound, ?_⟩
    rintro ⟨content, source, same, named, missing⟩
    obtain ⟨output, -, ran⟩ := run_recorded (grown calls) same named
    rw [ran] at sound
    have member := (Node.mentions_iff ⟨output, content⟩ _).mpr (.inr ⟨source, named, rfl⟩)
    obtain ⟨inside, resolves⟩ := sound ⟨(grown calls).size⟩ _ List.getElem?_concat_length _ member
    exact missing (((Arena.Extends.adding _ _).resolves_iff inside).mp resolves)
  · rintro ⟨sound, recorded⟩
    exact (careful built recorded).sound sound

/-- Over every list of calls with any names in them: what the nodes of the plan are built from are
earlier nodes of the right sort. All that they name is so exactly if no call added a constant or a
null over a source that was not there. And a call that builds on what is missing or of the wrong
sort, copies it or rewrites it, is refused by the plan, exactly if it does no such thing and does
not refer to a column beyond those of an expression. -/
theorem well_formed_exact (calls : List PlanCall) :
    (∀ place node, (grown calls).nodes[NodeId.index place]? = some node →
        ∀ reference ∈ node.references,
          reference.2.index < place.index ∧ (grown calls).Resolves reference) ∧
      ((grown calls).IsSound ↔
        ∀ before call, before ++ [call] <+: calls → ¬ call.RecordsNone (grown before)) ∧
      ∀ call : PlanCall, call.IsStrict (grown calls) ↔
        ¬ call.RecordsNone (grown calls) ∧ ¬ call.ReadsBeyond (grown calls) := by
  have built := grown_built calls
  refine ⟨fun place node found => built.resolves found, ?_, strict_iff built⟩
  clear built
  induction calls using List.reverseRecOn with
  | nil =>
    refine ⟨fun _ before call within => ?_, fun _ => .empty⟩
    cases before <;> cases List.prefix_nil.mp within
  | append_singleton calls last inductionHypothesis =>
    rw [sound_append, inductionHypothesis]
    constructor
    · rintro ⟨earlier, recorded⟩ before call within
      rcases List.prefix_concat_iff.mp within with same | within
      · obtain ⟨rfl, sameCall⟩ := List.append_inj' same rfl
        obtain rfl := List.singleton_inj.mp sameCall
        exact recorded
      · exact earlier before call within
    · intro all
      exact ⟨fun before call within => all before call (within.trans (List.prefix_append _ _)),
        all calls last (List.prefix_refl _)⟩

/-- A constant over a relation that the plan does not have. -/
def unfounded : PlanCall := .constant (.ofField ⟨"n", .int64, true⟩) ⟨7⟩ (.int64 1)

/-- The constant is accepted although its source is missing, where an aggregate over the same source
is refused. -/
theorem unfounded_accepted :
    (unfounded.run {}).1 = .ok () ∧ ¬ unfounded.Resolves {} ∧ ¬ (grown [unfounded]).IsSound ∧
      ((aggregate (.ofField ⟨"n", .int64, true⟩) ⟨7⟩ "sum" [0] true).run {}).1 =
        .error (.failed ((Arena.unknownNode ⟨7⟩ 0).withField "node" "AggregateExpression")) := by
  have missing : ¬ Arena.Resolves {} (.source, ⟨7⟩) := by
    rintro ⟨node, found, -⟩
    cases found
  refine ⟨rfl, fun resolves => ?_, fun sound => ?_, rfl⟩
  · exact missing (resolves _ rfl _ List.mem_cons_self)
  · refine ((sound_append [] unfounded).mp sound).2 ⟨_, ⟨7⟩, rfl, rfl, missing⟩

end PlanCall

end Rankwise
