import Rankwise.Plan.Execution
import Rankwise.Proofs.Placement

/-!
# Names of tables on the workers

A table that the coordinator keeps has a name on the workers from the first time on that it was made
sure of there. Whatever the outside answers, nothing that is done in between takes the name away
(`IsNaming`). So when all tables that a plan scans were made sure of, one after the other, all of
them have names (`Executing.settleScans_names`).
-/

namespace Rankwise

/-- What follows from what is true on all paths is true on all paths. -/
theorem Dialogue.always_imp {α : Type} {holds further : Bool → α → Prop} (dialogue : Dialogue α)
    (failed : Bool) (always : dialogue.Always holds failed)
    (implies : ∀ failed value, holds failed value → further failed value) :
    dialogue.Always further failed := by
  rw [← dialogue.bind_done]
  exact always_bind dialogue .done failed always implies

namespace World

/-- The same tables are kept later, and those that had a name on the workers have one still. -/
structure Names (world later : World) : Prop where
  size : later.tables.length = world.tables.length
  named : ∀ key, (world.names key).isSome → (later.names key).isSome

namespace Names

variable {world later latest : World}

/-- Where the same tables are kept, they have the same names. -/
theorem of_tables (same : later.tables = world.tables) : world.Names later := by
  refine ⟨by rw [same], fun key there => ?_⟩
  rwa [World.names, same]

/-- Names that last in two steps last. -/
theorem trans (first : world.Names later) (second : later.Names latest) : world.Names latest :=
  ⟨second.size.trans first.size, fun key there => second.named key (first.named key there)⟩

/-- All names last where nothing is done. -/
theorem refl (world : World) : world.Names world := .of_tables rfl

/-- A table with a name on the workers has one still. -/
theorem resultId? (names : world.Names later) (table : LazyTable)
    (there : (table.resultId? world.names).isSome) : (table.resultId? later.names).isSome := by
  cases table with
  | stored known => rfl
  | pending key => exact names.named key there

/-- Changing a table takes no name away, unless it takes that of this table. -/
theorem modify (world : World) (key : LazyKey) {change : PendingTable → PendingTable}
    (kept : ∀ table, table.id.isSome → (change table).id.isSome) :
    world.Names { world with tables := world.tables.modify key.index change } := by
  refine ⟨List.length_modify _ _ _, fun other there => ?_⟩
  unfold World.names at there ⊢
  dsimp only
  rw [List.getElem?_modify]
  cases found : world.tables[other.index]? with
  | none =>
    rw [found] at there
    cases there
  | some table =>
    rw [found] at there
    split
    · exact kept table there
    · exact there

end Names

end World

/-- Acting takes no name away that there was at the start, whatever is answered. -/
def IsNaming {α : Type} (acting : Acting α) : Prop :=
  ∀ (start world : World) (failed : Bool), start.Names world →
    (acting.run world).Always (fun _ ended => start.Names ended.2) failed

namespace IsNaming

variable {α β : Type}

/-- To give a value takes no name away. -/
theorem pure (value : α) : IsNaming (Pure.pure value) := fun _ _ _ names => names

/-- To look around takes no name away. -/
theorem get : IsNaming MonadState.get := fun _ _ _ names => names

/-- A change that takes no name away does not do so as an action. -/
theorem modify {update : World → World} (names : ∀ world : World, world.Names (update world)) :
    IsNaming (modify update : Acting Unit) :=
  fun _ world _ before => before.trans (names world)

/-- Two actions that take no name away take none away one after the other. -/
theorem bind {acting : Acting α} {next : α → Acting β} (first : IsNaming acting)
    (second : ∀ value, IsNaming (next value)) : IsNaming (acting >>= next) := by
  intro start world failed names
  apply Dialogue.always_bind _ _ _ (first start world failed names)
  rintro failed ⟨value, later⟩ names
  exact second value start later failed names

/-- What acting does can be told from what the coordinator knows. -/
theorem knowing {acting : Acting α} {told : World → Acting α} (names : ∀ world, IsNaming (told world))
    (same : ∀ world, acting.run world = (told world).run world) : IsNaming acting := by
  intro start world failed before
  rw [same]
  exact names world start world failed before

/-- To do something with each item takes no name away if this does not for one. -/
theorem forM (items : List α) (acting : α → Acting Unit) (each : ∀ item, IsNaming (acting item)) :
    IsNaming (items.forM acting) := by
  induction items with
  | nil => exact pure _
  | cons item rest inductionHypothesis => exact bind (each item) fun _ => inductionHypothesis

/-- To fail takes no name away. -/
theorem ofExcept (result : Except Failure α) : IsNaming (Coordinating.ofExcept result).run := pure _

/-- Two actions that can fail take no name away if neither of them does. -/
theorem coordinate {first : Coordinating α} {next : α → Coordinating β} (begins : IsNaming first.run)
    (goesOn : ∀ value, IsNaming (next value).run) : IsNaming (first >>= next).run := by
  refine begins.bind fun answer => ?_
  cases answer with
  | ok value => exact goesOn value
  | error stop => exact pure _

/-- An action that cannot fail takes no name away among those that can. -/
theorem lift {acting : Acting α} {next : α → Coordinating β} (begins : IsNaming acting)
    (goesOn : ∀ value, IsNaming (next value).run) : IsNaming (liftM acting >>= next).run := by
  intro start world failed
  show _ → ((liftM acting >>= next).run.run world).Always _ failed
  rw [Coordinating.run_lift]
  exact begins.bind goesOn start world failed

end IsNaming

namespace SpawnerId

variable (id : SpawnerId)

/-- To change a spawner takes no name away. -/
theorem naming_change (update : Spawner → Spawner) : IsNaming (id.change update) :=
  .modify fun _ => .of_tables rfl

/-- To talk with a group takes no name away. -/
theorem naming_talk {α : Type} (talk : StateT Group Dialogue α) : IsNaming (id.talk talk) := by
  intro start world failed names
  cases live : world.group? id with
  | none =>
    rw [run_talk_none id talk world live]
    exact names
  | some group =>
    rw [run_talk id talk world group live]
    exact Dialogue.always_bind _ _ _ (Dialogue.always_true _ failed) fun _ _ _ =>
      names.trans (.of_tables rfl)

/-- To free results takes no name away. -/
theorem naming_flush : IsNaming id.flush := by
  refine .bind .get fun world => ?_
  cases world.spawner? id with
  | none => exact .pure ()
  | some spawner => exact (id.naming_change _).bind fun _ => (id.naming_talk _).bind fun _ => .pure _

/-- To retire a group takes no name away. -/
theorem naming_retire : IsNaming id.retireIfUnusable := by
  refine .bind .get fun world => ?_
  cases world.group? id with
  | none => exact .pure ()
  | some group =>
    dsimp only
    split
    · exact (id.naming_talk _).bind fun _ => id.naming_change _
    · exact .pure ()

/-- To note a result takes no name away. -/
theorem naming_notePending (generation : Nat) (result : ResultId) :
    IsNaming (id.notePending generation result) :=
  id.naming_change _

/-- To free a result takes no name away. -/
theorem naming_free (generation : Nat) (result : ResultId) : IsNaming (id.free generation result) := by
  refine .bind .get fun world => ?_
  cases world.spawner? id with
  | none => exact .pure ()
  | some spawner =>
    dsimp only
    split
    · exact (id.naming_notePending _ _).bind fun _ => id.naming_flush
    · exact .pure ()

/-- To launch a group takes no name away. -/
theorem naming_launch (spawner : Spawner) : IsNaming (id.launch spawner).run := by
  intro start world failed names
  show ((id.launch spawner).run.run world).Always _ failed
  rw [run_launch]
  split
  · exact names.trans (.of_tables rfl)
  · exact ⟨fun _ => names.trans (.of_tables rfl), fun _ => names.trans (.of_tables rfl)⟩

/-- To make sure of a group takes no name away. -/
theorem naming_ensureGroup : IsNaming id.ensureGroup.run := by
  refine .knowing (fun world => ?_) id.ensureGroup_cases
  split
  · exact .ofExcept _
  · split
    · exact .pure _
    · exact id.naming_launch _

end SpawnerId

namespace Handle

/-- To hand out a handle takes no name away. -/
theorem naming_create (owner : SpawnerId) (generation : Nat) (result : ResultId) :
    IsNaming (create owner generation result) :=
  fun _ _ _ names => names.trans (.of_tables rfl)

/-- To give up a share takes no name away. -/
theorem naming_release (handle : Handle) : IsNaming handle.release := by
  refine .bind .get fun world => ?_
  split
  · refine .bind (.modify fun _ => .of_tables rfl) fun _ => ?_
    split
    · exact SpawnerId.naming_free _ _ _
    · exact .pure ()
  · exact .pure ()

/-- To fetch from the live group takes no name away. -/
theorem naming_gatherFrom (handle : Handle) : IsNaming handle.gatherFrom.run :=
  .lift (handle.owner.naming_talk _) fun _ => .lift handle.owner.naming_retire fun _ => .ofExcept _

/-- To fetch if the group is live takes no name away. -/
theorem naming_gatherLive (handle : Handle) : IsNaming handle.gatherLive.run := by
  refine .knowing (fun world => ?_) handle.gatherLive_cases
  split
  · exact .ofExcept _
  · split
    · exact .coordinate (.ofExcept _) fun _ => handle.naming_gatherFrom
    · exact handle.naming_gatherFrom

/-- To fetch a result takes no name away. -/
theorem naming_gather (handle : Handle) : IsNaming handle.gather.run := by
  have gathering := IsNaming.lift handle.owner.naming_flush fun _ => handle.naming_gatherLive
  refine .knowing (fun world => ?_) handle.gather_cases
  split
  · exact .coordinate (.ofExcept _) fun _ => gathering
  · exact gathering

end Handle

namespace Frame

/-- To give up a frame takes no name away. -/
theorem naming_release (frame : Frame) : IsNaming frame.release := by
  unfold release
  cases frame.handle? with
  | none => exact .pure ()
  | some handle => exact handle.naming_release

/-- To fetch the table of a frame takes no name away. -/
theorem naming_table (frame : Frame) : IsNaming frame.table.run := by
  cases frame with
  | collected table => exact .pure _
  | distributed partitioned handle => exact handle.naming_gather

end Frame

namespace Answer

mutual

/-- To hand out the handles for a reply takes no name away. -/
theorem naming_ofReply (owner : SpawnerId) (generation : Nat) (reply : Reply) :
    IsNaming (ofReply owner generation reply) := by
  cases reply with
  | value found => exact .pure _
  | partitioned found => exact (Handle.naming_create owner generation found.id).bind fun _ => .pure _
  | tuple items => exact (naming_ofReplies owner generation items).bind fun _ => .pure _
  | map entries => exact (naming_ofEntries owner generation entries).bind fun _ => .pure _

/-- To hand out the handles for several replies takes no name away. -/
theorem naming_ofReplies (owner : SpawnerId) (generation : Nat) (items : List Reply) :
    IsNaming (ofReplies owner generation items) := by
  cases items with
  | nil => exact .pure _
  | cons item rest =>
    exact (naming_ofReply owner generation item).bind fun _ =>
      (naming_ofReplies owner generation rest).bind fun _ => .pure _

/-- To hand out the handles for the entries of a reply takes no name away. -/
theorem naming_ofEntries (owner : SpawnerId) (generation : Nat) (entries : List (String × Reply)) :
    IsNaming (ofEntries owner generation entries) := by
  cases entries with
  | nil => exact .pure _
  | cons entry rest =>
    exact (naming_ofReply owner generation entry.2).bind fun _ =>
      (naming_ofEntries owner generation rest).bind fun _ => .pure _

end

/-- To take an answer for a frame takes no name away. -/
theorem naming_toFrame (answer : Answer) : IsNaming answer.toFrame.run := by
  have unexpected (answer : Answer) :
      IsNaming (answer.unexpected "distributed frame" : Coordinating Frame).run :=
    .lift (.forM _ _ Frame.naming_release) fun _ => .ofExcept _
  cases answer with
  | frame found => exact .pure _
  | _ => exact unexpected _

end Answer

namespace SpawnerId

variable (id : SpawnerId)

/-- To answer a call takes no name away. -/
theorem naming_answer (generation : Nat) (called : CallEnd) :
    IsNaming (id.answer generation called) := by
  unfold answer
  cases called.outcome with
  | ok reply => exact (Answer.naming_ofReply id generation reply).bind fun _ => .pure _
  | error abandoned =>
    have noting := IsNaming.forM abandoned.orphans _ fun orphan =>
      id.naming_notePending generation orphan.id
    exact noting.bind fun _ => .pure _

/-- To perform a call takes no name away. -/
theorem naming_perform (computation : Computation) (arguments : CallArguments) :
    IsNaming (id.perform computation arguments).run := by
  intro start world failed names
  show ((id.perform computation arguments).run.run world).Always _ failed
  cases live : world.group? id with
  | none =>
    rw [run_perform_none id computation arguments world live]
    exact names.trans (.of_tables rfl)
  | some group =>
    rw [run_perform id computation arguments world group live]
    apply Dialogue.always_bind _ _ _ (Dialogue.always_true _ failed)
    rintro failed ⟨called, later⟩ -
    have concluding : IsNaming (id.conclude group.generation called) :=
      (id.naming_answer _ _).bind fun _ => id.naming_retire.bind fun _ => .pure _
    exact Dialogue.always_bind _ _ _ (concluding start _ failed (names.trans (.of_tables rfl)))
      fun _ _ still => still

/-- To make a call takes no name away. -/
theorem naming_submit (computation : Computation) (arguments : CallArguments) :
    IsNaming (id.submit computation arguments).run := by
  rw [submit_eq]
  refine .coordinate ?_ fun _ => id.naming_perform computation arguments
  exact .coordinate id.naming_ensureGroup fun _ => id.naming_flush.bind fun _ => .pure _

/-- To put a table onto the workers takes no name away. -/
theorem naming_scatter (table : Batch) : IsNaming (id.scatter table).run :=
  .coordinate (id.naming_submit _ _) fun _ => .coordinate (.ofExcept _) Answer.naming_toFrame

end SpawnerId

namespace LazyTable

/-- To put a table that is kept onto the workers gives it a name and takes none away. -/
theorem naming_scatterPending (id : SpawnerId) (key : LazyKey) (kept : PendingTable) :
    IsNaming (scatterPending id key kept).run := by
  refine .coordinate kept.frame.naming_table fun table => .coordinate (id.naming_scatter table)
    fun frame => ?_
  cases frame.resultId? with
  | none => exact .ofExcept _
  | some name =>
    refine .lift (.modify fun world => .modify world key fun _ named => named) fun _ => .lift ?_ fun _ =>
      .pure _
    cases kept.scattered with
    | none => exact .pure ()
    | some copy => exact copy.naming_release

/-- Making sure of a table takes no name away, and if it succeeds the table has a name. -/
theorem settle_names (table : LazyTable) (id : SpawnerId) (start world : World) (failed : Bool)
    (names : start.Names world) :
    ((table.settle id).run.run world).Always (fun _ ended => start.Names ended.2 ∧
      ((∃ name, ended.1 = .ok name) → (table.resultId? ended.2.names).isSome)) failed := by
  have failing (failure : Failure) (world : World) (failed : Bool) (names : start.Names world) :
      ((Coordinating.fail failure : Coordinating ResultId).run.run world).Always
        (fun _ ended => start.Names ended.2 ∧
          ((∃ name, ended.1 = .ok name) → (table.resultId? ended.2.names).isSome)) failed :=
    ⟨names, nofun⟩
  cases table with
  | stored known => exact failing onWorker world failed names
  | pending key =>
    have noting (name : ResultId) (later : World) (failed : Bool) (names : start.Names later)
        (inside : key.index < start.tables.length) : ((note key name).run.run later).Always
          (fun _ ended => start.Names ended.2 ∧
            ((∃ name, ended.1 = .ok name) → (ended.2.names key).isSome)) failed := by
      refine ⟨names.trans (.modify later key fun _ _ => rfl), fun _ => ?_⟩
      exact Option.isSome_of_mem (later.names_named name (names.size ▸ inside))
    rw [settle_cases]
    cases found : world.tables[key.index]? with
    | none => exact failing onWorker world failed names
    | some kept =>
      have inside : key.index < start.tables.length :=
        names.size ▸ (List.getElem?_eq_some_iff.mp found).1
      dsimp only
      rw [settleKept_eq]
      cases kept.resident? world with
      | some handle => exact noting handle.id world failed names inside
      | none =>
        rw [Coordinating.run_bind]
        apply Dialogue.always_bind _ _ _ (naming_scatterPending id key kept start world failed names)
        rintro failed ⟨answer, later⟩ still
        cases answer with
        | error stop => exact ⟨still, nofun⟩
        | ok name => exact noting name later failed still inside

end LazyTable

namespace Executing

/-- Making sure of tables one after the other gives names to all of them. -/
theorem settleAll_names (id : SpawnerId) (found : List (NodeId × LazyTable)) (start world : World)
    (failed : Bool) (names : start.Names world) :
    ((found.forM fun entry => do let _ ← entry.2.settle id : Coordinating Unit).run.run world).Always
      (fun _ ended => start.Names ended.2 ∧ (ended.1 = .ok () →
        ∀ entry ∈ found, (entry.2.resultId? ended.2.names).isSome)) failed := by
  induction found generalizing start world failed with
  | nil => exact ⟨names, fun _ => nofun⟩
  | cons entry rest inductionHypothesis =>
    have first : ((do let _ ← entry.2.settle id : Coordinating Unit).run.run world).Always
        (fun _ ended => start.Names ended.2 ∧ (ended.1 = .ok () →
          (entry.2.resultId? ended.2.names).isSome)) failed := by
      rw [Coordinating.run_bind]
      apply Dialogue.always_bind _ _ _ (entry.2.settle_names id start world failed names)
      rintro failed ⟨answer, later⟩ ⟨still, named⟩
      cases answer with
      | error stop => exact ⟨still, nofun⟩
      | ok name => exact ⟨still, fun _ => named ⟨name, rfl⟩⟩
    rw [List.forM_eq_forM, List.forM_cons, Coordinating.run_bind]
    apply Dialogue.always_bind _ _ _ first
    rintro failed ⟨answer, later⟩ ⟨still, named⟩
    cases answer with
    | error stop => exact ⟨still, nofun⟩
    | ok _ =>
      apply Dialogue.always_imp _ _ (inductionHypothesis later later failed (.refl later))
      rintro _ ⟨result, last⟩ ⟨further, all⟩
      refine ⟨still.trans further, fun fine => List.forall_mem_cons.mpr ⟨?_, all fine⟩⟩
      exact further.resultId? entry.2 (named rfl)

/-- When the tables that a plan scans were made sure of, then the walk that looked for them came to
its end, and each of them has a name on the workers. -/
theorem settleScans_names {σ : Type} (outside : Outside σ) (arena : Arena) (root : NodeId)
    (spawner : SpawnerId) (world : World) (before : σ) {count : Nat} {later : World} {after : σ}
    (ends : ((settleScans arena root spawner).run.run world).run outside before =
      some ((.ok count, later), after)) :
    (arena.scans root).outcome = .ok () ∧
      ∀ entry ∈ (arena.scans root).found, (entry.2.resultId? later.names).isSome := by
  have always : ((settleScans arena root spawner).run.run world).Always
      (fun _ ended => (∃ count, ended.1 = .ok count) → (arena.scans root).outcome = .ok () ∧
        ∀ entry ∈ (arena.scans root).found, (entry.2.resultId? ended.2.names).isSome) false := by
    unfold settleScans
    rw [Coordinating.run_bind]
    apply Dialogue.always_bind _ _ _
      (settleAll_names spawner (arena.scans root).found world world false (.refl world))
    rintro failed ⟨answer, between⟩ ⟨-, all⟩
    cases answer with
    | error stop => exact nofun
    | ok _ =>
      dsimp only
      rw [Coordinating.run_bind]
      cases (arena.scans root).outcome with
      | error failure => exact nofun
      | ok _ => exact fun _ => ⟨rfl, all rfl⟩
  obtain ⟨_, all⟩ := Dialogue.always_run outside _ _ false always before after _ ends
  exact all ⟨count, rfl⟩

end Executing

end Rankwise
