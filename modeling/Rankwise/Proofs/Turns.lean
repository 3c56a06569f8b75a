import Rankwise.Proofs.Parts

/-!
# What a part does to its spawner

A part that is done with a spawner changes the record of this spawner only, in one of a few ways
(`Turn`): nothing becomes of the group, a group is launched or could not be launched, the group was
talked with, or it was ended. Each way tells what the outside was asked, in which order and over
which connection. `Part.turn` is the case analysis over all parts and all answers, and what is to be
shown about runs rests on it alone.
-/

namespace Rankwise

/-! Ending a group. -/

namespace Group

/-- To shut a group down is one question, and leaves it as it is. -/
theorem conducted_shutdown (group later : Group) (transcript : Transcript)
    (answer : Except Failure Unit)
    (conducted : (shutdown.run.run group).Conducted transcript (answer, later)) :
    transcript = [.shutdown group.link answer] ∧ later = group := by
  cases conducted with
  | shutdown _ _ reply rest =>
    obtain ⟨rfl, rfl, rfl⟩ := Dialogue.Conducted.of_done rest
    exact ⟨rfl, rfl⟩

/-- What is left of ending a group whose connection has failed. -/
theorem finish_broken (group : Group) (going : group.ended = false) (broken : group.broken = true) :
    finish.run.run group = shutdown.run.run group.left := by
  obtain ⟨link, size, generation, _, _⟩ := group
  obtain rfl : _ = false := going
  obtain rfl : _ = true := broken
  rfl

/-- Whatever is answered when a group is ended, its workers are told to leave, unless the connection
has failed, and then the connection is closed. -/
theorem conducted_finish (group later : Group) (going : group.ended = false)
    (transcript : Transcript) (answer : Except Failure Unit)
    (conducted : (finish.run.run group).Conducted transcript (answer, later)) :
    ∃ told closed, transcript = told ++ [.shutdown group.link closed] ∧
      (∀ inquiry ∈ told, inquiry.IsTalk Message.InEnding group.link) ∧
      (group.broken = true → told = []) := by
  cases broken : group.broken with
  | true =>
    rw [finish_broken group going broken] at conducted
    obtain ⟨rfl, -⟩ := conducted_shutdown group.left later transcript answer conducted
    exact ⟨[], answer, rfl, List.forall_mem_nil _, fun _ => rfl⟩
  | false =>
    have usable : group.isUnusable = false := by rw [isUnusable, going, broken]; rfl
    rw [finish_usable group usable] at conducted
    obtain ⟨told, ⟨_, middle⟩, rest, rfl, tells, conducted⟩ :=
      (Dialogue.conducted_bind _ _ _ _).mp conducted
    obtain ⟨closing, ⟨closed, last⟩, silent, rfl, closes, conducted⟩ :=
      (Dialogue.conducted_bind _ _ _ _).mp conducted
    obtain ⟨rfl, -⟩ := (Dialogue.conducted_done _ _ _).mp conducted
    obtain ⟨rfl, talks⟩ := utters_exit.conducted _ _ _ _ tells
    obtain ⟨rfl, -⟩ := conducted_shutdown _ _ _ _ closes
    exact ⟨told, closed, by rw [List.append_nil]; rfl, talks, fun is => by cases is⟩

/-- Whatever is answered when a result is to be freed, it is freed if it is of the generation of the
group. -/
theorem conducted_freeOwn (entry : Nat × ResultId) (group later : Group) (transcript : Transcript)
    (conducted : ((freeOwn entry).run group).Conducted transcript ((), later)) :
    later = group.marked transcript.hasFailed ∧
      ∀ inquiry ∈ transcript, inquiry.IsTalk
        (Message.InFreeing fun result => (group.generation, result) = entry) group.link := by
  have cases : (freeOwn entry).run group = (if entry.1 = group.generation then do
      let _ ← (deleteResult entry.2).run
    else Pure.pure () : StateT Group Dialogue Unit).run group := rfl
  rw [cases] at conducted
  by_cases own : entry.1 = group.generation
  · rw [if_pos own] at conducted
    have deletes : Utters (Message.InFreeing fun result => (group.generation, result) = entry) (do
        let _ ← (deleteResult entry.2).run) :=
      .bind (utters_deleteResult _ entry.2 (Prod.ext own.symm rfl)) fun _ => .pure _
    exact deletes.conducted group later transcript () conducted
  · rw [if_neg own] at conducted
    exact Utters.conducted (.pure ()) group later transcript () conducted

/-- Whatever is answered when results are freed, only those of the generation of the group are. -/
theorem conducted_frees (pending : List (Nat × ResultId)) (group later : Group)
    (transcript : Transcript)
    (conducted : ((pending.forM freeOwn).run group).Conducted transcript ((), later)) :
    later = group.marked transcript.hasFailed ∧
      ∀ inquiry ∈ transcript, inquiry.IsTalk
        (Message.InFreeing fun result => (group.generation, result) ∈ pending) group.link := by
  induction pending generalizing group transcript with
  | nil =>
    have nothing : Utters (fun _ => False) (Pure.pure () : StateT Group Dialogue Unit) := .pure ()
    obtain ⟨same, -⟩ := nothing.conducted group later transcript () conducted
    obtain ⟨rfl, -⟩ := (Dialogue.conducted_done _ _ _).mp conducted
    exact ⟨same, List.forall_mem_nil _⟩
  | cons entry rest inductionHypothesis =>
    obtain ⟨first, ⟨_, middle⟩, second, rfl, begun, ended⟩ :=
      (Dialogue.conducted_bind _ _ _ _).mp conducted
    obtain ⟨rfl, talks⟩ := conducted_freeOwn entry group middle first begun
    obtain ⟨rfl, talksOn⟩ := inductionHypothesis _ second ended
    refine ⟨?_, fun inquiry member => ?_⟩
    · rw [marked_marked, Transcript.hasFailed_append]
    · rcases List.mem_append.mp member with early | late
      · exact (talks inquiry early).mono fun message freeing =>
          freeing.mono fun result same => same ▸ List.mem_cons_self
      · exact (talksOn inquiry late).mono fun message freeing =>
          freeing.mono fun result member => List.mem_cons_of_mem _ member

end Group

/-! The record of a spawner. -/

namespace Spawner

variable (spawner : Spawner)

/-- The live group, unless the spawner is gone. -/
def group? : Option Group := if spawner.exists? then spawner.live? else none

/-- The spawner has noted the generation of its live group, which is going on and among the
generations that were used up. -/
structure IsSteady : Prop where
  noted : spawner.exists? = true → spawner.liveGeneration = spawner.live?.map Group.generation
  going : ∀ group, spawner.group? = some group → group.ended = false
  passed : ∀ group, spawner.group? = some group → group.generation ≤ spawner.lastGeneration

variable {spawner}

/-- A spawner has a live group if it exists and its state says so. -/
theorem group?_eq_some {group : Group} :
    spawner.group? = some group ↔ spawner.exists? = true ∧ spawner.live? = some group := by
  unfold group?
  split <;> simp_all

/-- The state says so if it is live. -/
theorem live?_eq_some {group : Group} :
    spawner.live? = some group ↔ spawner.state = .live group := by
  unfold live?
  split <;> simp_all

end Spawner

namespace World

variable (world : World) (id : SpawnerId)

/-- What is recorded of a spawner, also when it is gone. -/
def record? : Option Spawner := world.spawners[id.index]?

/-- Puts down what a spawner is like now. -/
def put (spawner : Spawner) : World := world.change id fun _ => spawner

variable {world id}

/-- A spawner is found if there is a record of it and it exists. -/
theorem spawner?_eq_some {spawner : Spawner} :
    world.spawner? id = some spawner ↔ world.record? id = some spawner ∧ spawner.exists? = true :=
  Option.filter_eq_some_iff

/-- The live group of a spawner is that of its record. -/
theorem group?_eq_bind : world.group? id = (world.record? id).bind Spawner.group? := by
  rw [group?_eq, spawner?, record?]
  cases world.spawners[id.index]? with
  | none => rfl
  | some spawner => cases present : spawner.exists? <;> simp [Option.filter, Spawner.group?, present]

/-- So it can be read from the record that is known. -/
theorem group?_of_record {spawner : Spawner} (found : world.record? id = some spawner) :
    world.group? id = spawner.group? := by
  rw [group?_eq_bind, found]
  rfl

/-- A change of a spawner is a change of its record. -/
theorem record?_change (update : Spawner → Spawner) :
    (world.change id update).record? id = (world.record? id).map update := by
  simp only [record?, change, List.getElem?_modify_eq]
  cases world.spawners[id.index]? <;> rfl

/-- A record that is put in the place of another is found there. -/
theorem record?_put {spawner : Spawner} (found : world.record? id = some spawner) (later : Spawner) :
    (world.put id later).record? id = some later := by
  rw [put, record?_change, found]
  rfl

/-- Only the record of the spawner itself changes. -/
theorem record?_put_of_ne (spawner : Spawner) {other : SpawnerId} (apart : other ≠ id) :
    (world.put id spawner).record? other = world.record? other := by
  have elsewhere : id.index ≠ other.index := by
    intro same
    obtain ⟨place⟩ := other
    obtain ⟨index⟩ := id
    exact apart (congrArg SpawnerId.mk same.symm)
  simp only [record?, put, change, List.getElem?_modify_ne _ _ elsewhere]

/-- Changing the record of a spawner is putting down what it is like then. -/
theorem change_eq_put {spawner : Spawner} (found : world.record? id = some spawner)
    (update : Spawner → Spawner) : world.change id update = world.put id (update spawner) := by
  have spawners : world.spawners.modify id.index update =
      world.spawners.modify id.index fun _ => update spawner := by
    apply List.ext_getElem?
    intro place
    rw [List.getElem?_modify, List.getElem?_modify]
    by_cases here : id.index = place
    · subst here
      rw [show world.spawners[id.index]? = some spawner from found]
      simp
    · simp [here]
  unfold put change
  rw [spawners]

/-- A record that was put there can be changed beforehand. -/
theorem change_put (spawner : Spawner) (update : Spawner → Spawner) :
    (world.put id spawner).change id update = world.put id (update spawner) := by
  simp only [put, change, List.modify_modify_eq]
  rfl

/-- To put back what is there changes nothing. -/
theorem put_self {spawner : Spawner} (found : world.record? id = some spawner) :
    world.put id spawner = world :=
  (change_eq_put found fun spawner => spawner).symm.trans (world.change_eq id _ fun _ _ => rfl)

/-- There is no record to change. -/
theorem change_absent (absent : world.record? id = none) (update : Spawner → Spawner) :
    world.change id update = world :=
  world.change_eq id update fun _ there => by cases absent.symm.trans there

end World

/-! Turns. -/

namespace Part

/-- Whether no group that cannot be used any more is left by the part. -/
def settles : Part → Bool
  | retire | reset => true
  | _ => false

/-- What may be said to the workers of a group in the part. -/
def MaySay (spawner : Spawner) (group : Group) : Part → Message → Prop
  | free => Message.InFreeing fun result => (group.generation, result) ∈ spawner.pending
  | call .. => Message.InCall
  | fetch result => Message.InFetching result
  | retire | reset | leave => Message.InEnding
  | _ => fun _ => False

end Part

/-- What a part can do to its spawner. -/
inductive Turn (id : SpawnerId) (spawner : Spawner) : Part → Transcript → Spawner → Prop
  /-- Nothing becomes of the group. -/
  | quiet (part : Part) (pending : List (Nat × ResultId)) (owners : Nat)
      (kept : ∀ group, spawner.group? = some group → 0 < owners)
      (gone : spawner.exists? = false → owners = spawner.owners)
      (settled : part.settles = true →
        ∀ group, spawner.group? = some group → group.isUnusable = false) :
      Turn id spawner part [] { spawner with pending, owners }
  /-- A group could not be launched. Its generation is used up. -/
  | refused (inquiries : Transcript) (there : spawner.exists? = true) (idle : spawner.live? = none)
      (failed : inquiries = [] ∨ ∃ request failure, inquiries = [.launch id request (.error failure)]) :
      Turn id spawner .ensure inquiries
        { spawner with lastGeneration := spawner.lastGeneration + 1 }
  | launched (request : LaunchRequest) (link : Link) (there : spawner.exists? = true)
      (idle : spawner.live? = none) :
      Turn id spawner .ensure [.launch id request (.ok link)] { spawner with
        lastGeneration := spawner.lastGeneration + 1
        state := .live { link, size := request.workers, generation := spawner.lastGeneration + 1 }
        liveGeneration := some (spawner.lastGeneration + 1) }
  /-- The live group was talked with. It is marked if an answer was a failure. -/
  | talked (part : Part) (inquiries : Transcript) (group : Group)
      (pending : List (Nat × ResultId)) (live : spawner.group? = some group)
      (open? : part.settles = false)
      (talks : ∀ inquiry ∈ inquiries, inquiry.IsTalk (part.MaySay spawner group) group.link) :
      Turn id spawner part inquiries
        { spawner with state := .live (group.marked inquiries.hasFailed), pending }
  | ended (part : Part) (group : Group) (told : Transcript) (closed : Except Failure Unit)
      (pending : List (Nat × ResultId)) (live : spawner.group? = some group)
      (ends : part.settles = true)
      (talks : ∀ inquiry ∈ told, inquiry.IsTalk Message.InEnding group.link) :
      Turn id spawner part (told ++ [.shutdown group.link closed])
        { spawner with state := .destroyed, liveGeneration := none, pending }
  /-- The last share of the spawner was given up, and its group was ended. -/
  | left (group after : Group) (told : Transcript) (closed : Except Failure Unit)
      (live : spawner.group? = some group)
      (talks : ∀ inquiry ∈ told, inquiry.IsTalk Message.InEnding group.link) :
      Turn id spawner .leave (told ++ [.shutdown group.link closed])
        { spawner with state := .live after, owners := 0 }

namespace Performed

variable {α : Type} {id : SpawnerId} {world later : World} {transcript : Transcript}

/-- An answer that is thrown away was some answer. -/
theorem discard_iff (acting : Acting α) :
    Performed (do let _ ← acting) world transcript () later ↔
      ∃ value, Performed acting world transcript value later := by
  constructor
  · intro performed
    obtain ⟨first, value, middle, second, rfl, begun, ended⟩ := (bind_iff _ _ _).mp performed
    obtain ⟨rfl, -, rfl⟩ := Dialogue.Conducted.of_done ended
    exact ⟨value, (List.append_nil first).symm ▸ begun⟩
  · rintro ⟨value, performed⟩
    exact (bind_iff _ _ _).mpr
      ⟨transcript, value, later, [], (List.append_nil _).symm, performed, .done _⟩

/-- Where there is no live group, nothing is said. -/
theorem of_talk_none {talk : StateT Group Dialogue α} {answer : Option α}
    (performed : Performed (id.talk talk) world transcript answer later)
    (idle : world.group? id = none) : transcript = [] ∧ answer = none ∧ later = world := by
  unfold Performed at performed
  rw [id.run_talk_none talk world idle] at performed
  obtain ⟨rfl, same⟩ := (Dialogue.conducted_done _ _ _).mp performed
  exact ⟨rfl, Prod.mk.inj same⟩

/-- Talk with the live group is talk with that group, which is noted afterwards. -/
theorem of_talk {talk : StateT Group Dialogue α} {answer : Option α}
    (performed : Performed (id.talk talk) world transcript answer later) {group : Group}
    (live : world.group? id = some group) :
    ∃ value after, (talk.run group).Conducted transcript (value, after) ∧ answer = some value ∧
      later = world.noted id after := by
  unfold Performed at performed
  rw [id.run_talk talk world group live] at performed
  obtain ⟨first, ⟨value, after⟩, second, rfl, talked, ended⟩ :=
    (Dialogue.conducted_bind _ _ _ _).mp performed
  obtain ⟨rfl, rfl, rfl⟩ := Dialogue.Conducted.of_done ended
  exact ⟨value, after, (List.append_nil first).symm ▸ talked, rfl, rfl⟩

end Performed

namespace SpawnerId

variable (id : SpawnerId) (world : World)

/-- The spawner once its group has ended. -/
def destroyed : World :=
  world.change id fun spawner => { spawner with state := .destroyed, liveGeneration := none }

/-- A group is ended after what is to be freed was forgotten. -/
theorem run_reset :
    id.reset.run.run world = ((id.talk Group.finish.run).run (world.emptied id)).bind
      fun (answer, later) => match answer with
        | none => .done (.ok (), later)
        | some answer => .done (answer.mapError Stop.failed, id.destroyed later) := by
  refine (Coordinating.run_lift (id.talk Group.finish.run) _ (world.emptied id)).trans ?_
  refine congrArg (Dialogue.bind _) (funext fun (answer, later) => ?_)
  cases answer with
  | none => rfl
  | some answer => rfl

/-- The last share of a spawner ends its group, and any other only counts one less. -/
theorem run_release :
    id.release.run world = (match world.spawner? id with
      | none => Pure.pure ()
      | some spawner => do
        if spawner.owners = 1 then
          let _ ← id.talk Group.finish.run
        id.change fun spawner => { spawner with owners := spawner.owners - 1 } :
      Acting Unit).run world := rfl

end SpawnerId

namespace Part

variable {id : SpawnerId} {world later : World} {transcript : Transcript} {spawner : Spawner}

/-- Nothing can be done with a spawner that is gone or was never created, but that results to be
freed are noted and forgotten. -/
theorem idles (part : Part) (performed : Performed (part.perform id) world transcript () later)
    (absent : world.spawner? id = none) :
    transcript = [] ∧ ∃ pending : Spawner → List (Nat × ResultId),
      later = world.change id fun spawner => { spawner with pending := pending spawner } := by
  have idle : world.group? id = none := by rw [World.group?_eq, absent]; rfl
  have unchanged (same : transcript = [] ∧ later = world) :
      transcript = [] ∧ ∃ pending : Spawner → List (Nat × ResultId),
        later = world.change id fun spawner => { spawner with pending := pending spawner } :=
    ⟨same.1, Spawner.pending, same.2.trans (world.change_eq id _ fun _ _ => rfl).symm⟩
  have talks {α : Type} {talk : StateT Group Dialogue α}
      (performed : Performed (do let _ ← id.talk talk) world transcript () later) :
      transcript = [] ∧ later = world := by
    obtain ⟨_, talked⟩ := (Performed.discard_iff _).mp performed
    obtain ⟨rfl, -, same⟩ := talked.of_talk_none idle
    exact ⟨rfl, same⟩
  have silent {α : Type} {value result : α} {reached : World}
      (conducted : (Dialogue.done (result, reached)).Conducted transcript (value, later)) :
      transcript = [] ∧ later = reached := by
    obtain ⟨rfl, same⟩ := (Dialogue.conducted_done _ _ _).mp conducted
    exact ⟨rfl, (Prod.mk.inj same).2⟩
  -- Every part looks for the spawner or for its live group first, and finds neither.
  cases part with
  | ensure =>
    obtain ⟨_, ensured⟩ := (Performed.discard_iff _).mp performed
    unfold Performed at ensured
    have gone := id.run_ensureGroup_gone world absent
    exact unchanged (silent (gone ▸ ensured))
  | free =>
    unfold Performed at performed
    rw [perform, SpawnerId.flush_cases, absent] at performed
    exact unchanged (silent performed)
  | call isLive surroundings name computation arguments => exact unchanged (talks performed)
  | fetch result => exact unchanged (talks performed)
  | retire =>
    unfold Performed at performed
    rw [perform, id.run_retire_usable world fun group live => by cases idle.symm.trans live]
      at performed
    exact unchanged (silent performed)
  | reset =>
    obtain ⟨_, reset⟩ := (Performed.discard_iff _).mp performed
    unfold Performed at reset
    have emptied := id.run_reset world
    rw [id.run_talk_none _ _ ((world.group?_emptied id).trans idle)] at emptied
    obtain ⟨rfl, same⟩ := silent (emptied ▸ reset)
    exact ⟨rfl, fun _ => [], same⟩
  | keep =>
    have kept : (perform id keep).run world = .done ((), world) := by
      show (if (world.spawner? id).isSome then id.share else Pure.pure () : Acting Unit).run world = _
      rw [absent]
      rfl
    unfold Performed at performed
    rw [kept] at performed
    exact unchanged (silent performed)
  | leave =>
    unfold Performed at performed
    rw [perform, id.run_release, absent] at performed
    exact unchanged (silent performed)
  | note generation result =>
    obtain ⟨rfl, same⟩ := silent performed
    have noted := congrArg (world.change id) (funext (Custody.noting_eq generation result))
    exact ⟨rfl, _, same.trans noted⟩

/-- Talk is a turn. -/
theorem turn_talk {α : Type} {talk : StateT Group Dialogue α} (part : Part)
    (found : world.record? id = some spawner)
    (open? : part.settles = false)
    (utters : ∀ group, Group.Utters (part.MaySay spawner group) talk)
    (performed : Performed (do let _ ← id.talk talk) world transcript () later) :
    ∃ last, Turn id spawner part transcript last ∧ later = world.put id last := by
  obtain ⟨answer, talked⟩ := (Performed.discard_iff _).mp performed
  have same := World.group?_of_record found
  cases live : spawner.group? with
  | none =>
    obtain ⟨rfl, -, rfl⟩ := talked.of_talk_none (same.trans live)
    refine ⟨spawner, .quiet part spawner.pending spawner.owners ?_ (fun _ => rfl) ?_,
      (World.put_self found).symm⟩
    · intro group running
      cases live.symm.trans running
    · intro settles
      cases open?.symm.trans settles
  | some group =>
    obtain ⟨value, after, conducted, -, rfl⟩ := talked.of_talk (same.trans live)
    obtain ⟨rfl, talks⟩ := (utters group).conducted group after transcript value conducted
    exact ⟨_, .talked part transcript group spawner.pending live open? talks,
      World.change_eq_put found _⟩

/-- Ending the live group is a turn. -/
theorem turn_ended (part : Part) {group after : Group} {answer : Except Failure Unit}
    (steady : spawner.IsSteady) (live : spawner.group? = some group) (ends : part.settles = true)
    (conducted : (Group.finish.run.run group).Conducted transcript (answer, after))
    (pending : List (Nat × ResultId)) :
    Turn id spawner part transcript
      { spawner with state := .destroyed, liveGeneration := none, pending } := by
  obtain ⟨told, closed, rfl, talks, -⟩ :=
    Group.conducted_finish group after (steady.going group live) transcript answer conducted
  exact .ended part group told closed pending live ends talks

/-- Nothing is asked and nothing becomes of the group. -/
theorem turn_quiet (part : Part) (owned : 0 < spawner.owners) (pending : List (Nat × ResultId))
    (settled : part.settles = true →
      ∀ group, spawner.group? = some group → group.isUnusable = false) :
    Turn id spawner part [] { spawner with pending } :=
  .quiet part pending spawner.owners (fun _ _ => owned) (fun _ => rfl) settled

/-- To make sure of a group is to start one if none is live, and if that goes well. -/
theorem turn_ensure (found : world.record? id = some spawner) (present : spawner.exists? = true)
    (owned : 0 < spawner.owners)
    (performed : Performed (perform id ensure) world transcript () later) :
    ∃ last, Turn id spawner ensure transcript last ∧ later = world.put id last := by
  have there : world.spawner? id = some spawner := World.spawner?_eq_some.mpr ⟨found, present⟩
  obtain ⟨answer, ensured⟩ := (Performed.discard_iff _).mp performed
  unfold Performed at ensured
  -- A live group stays. Otherwise one is launched, unless the number of workers is wrong or it
  -- fails.
  cases live : spawner.live? with
  | some group =>
    have running : world.group? id = some group := by rw [World.group?_eq, there]; exact live
    have stays := id.run_ensureGroup_live world group running
    obtain ⟨rfl, -, rfl⟩ := Performed.of_done ensured stays
    exact ⟨spawner, turn_quiet ensure owned spawner.pending (fun is => by cases is),
      (World.put_self found).symm⟩
  | none =>
    have idle : world.group? id = none := by rw [World.group?_eq, there]; exact live
    have counted : id.counted spawner world =
        world.put id { spawner with lastGeneration := spawner.lastGeneration + 1 } :=
      World.change_eq_put found _
    have launches := (id.run_ensureGroup_launch world spawner there idle).trans
      (id.run_launch spawner world)
    cases workers : SpawnerId.workers? spawner world with
    | error failure =>
      rw [workers] at launches
      obtain ⟨rfl, -, rfl⟩ := Performed.of_done ensured launches
      exact ⟨_, .refused [] present live (.inl rfl), counted⟩
    | ok workers =>
      rw [workers] at launches
      have asked : Dialogue.Conducted _ transcript (answer, later) := launches ▸ ensured
      cases asked with
      | launch _ request _ reply rest =>
        cases reply with
        | error failure =>
          obtain ⟨rfl, -, rfl⟩ := Dialogue.Conducted.of_done rest
          exact ⟨_, .refused _ present live (.inr ⟨_, failure, rfl⟩), counted⟩
        | ok link =>
          obtain ⟨rfl, -, rfl⟩ := Dialogue.Conducted.of_done rest
          refine ⟨_, .launched _ link present live, ?_⟩
          rw [SpawnerId.manned, counted, World.change_put]
          rfl

/-- To free results tells the live group, and notes nothing any more. -/
theorem turn_free (found : world.record? id = some spawner) (present : spawner.exists? = true)
    (owned : 0 < spawner.owners)
    (performed : Performed (perform id free) world transcript () later) :
    ∃ last, Turn id spawner free transcript last ∧ later = world.put id last := by
  have there : world.spawner? id = some spawner := World.spawner?_eq_some.mpr ⟨found, present⟩
  have emptied : world.emptied id = world.put id { spawner with pending := [] } :=
    World.change_eq_put found _
  have flushed : Performed (do let _ ← id.talk (spawner.pending.forM Group.freeOwn)) (world.emptied id)
      transcript () later := by
    unfold Performed at performed
    rw [perform, SpawnerId.flush_cases, there] at performed
    exact performed
  obtain ⟨answer, talked⟩ := (Performed.discard_iff _).mp flushed
  have same : (world.emptied id).group? id = spawner.group? :=
    (world.group?_emptied id).trans (World.group?_of_record found)
  cases live : spawner.group? with
  | none =>
    obtain ⟨rfl, -, rfl⟩ := talked.of_talk_none (same.trans live)
    exact ⟨_, turn_quiet free owned [] (fun is => by cases is), emptied⟩
  | some group =>
    obtain ⟨_, after, conducted, -, rfl⟩ := talked.of_talk (same.trans live)
    obtain ⟨rfl, talks⟩ := Group.conducted_frees spawner.pending group after transcript conducted
    refine ⟨_, .talked free transcript group [] live rfl talks, ?_⟩
    rw [World.noted, emptied, World.change_put]

/-- To retire a group that cannot be used ends it, and any other is left alone. -/
theorem turn_retire (found : world.record? id = some spawner) (owned : 0 < spawner.owners)
    (steady : spawner.IsSteady)
    (performed : Performed (perform id retire) world transcript () later) :
    ∃ last, Turn id spawner retire transcript last ∧ later = world.put id last := by
  have same := World.group?_of_record found
  unfold Performed at performed
  by_cases doomed : ∃ group, spawner.group? = some group ∧ group.isUnusable = true
  · obtain ⟨group, live, unusable⟩ := doomed
    have retires := id.run_retire_unusable world group (same.trans live) unusable
    obtain ⟨first, ⟨answer, middle⟩, second, rfl, talked, ended⟩ :=
      (Dialogue.conducted_bind _ _ _ _).mp (retires ▸ performed)
    obtain ⟨rfl, -, rfl⟩ := Dialogue.Conducted.of_done ended
    obtain ⟨_, after, conducted, -, rfl⟩ := Performed.of_talk talked (same.trans live)
    rw [List.append_nil]
    refine ⟨_, turn_ended retire steady live rfl conducted spawner.pending, ?_⟩
    rw [World.noted, World.change_eq_put found, World.change_put]
  · have usable (group : Group) (live : spawner.group? = some group) : group.isUnusable = false := by
      cases unusable : group.isUnusable with
      | true => exact absurd ⟨group, live, unusable⟩ doomed
      | false => rfl
    have stays := id.run_retire_usable world fun group live => usable group (same.symm.trans live)
    obtain ⟨rfl, -, rfl⟩ := Performed.of_done performed stays
    exact ⟨spawner, turn_quiet retire owned spawner.pending (fun _ => usable),
      (World.put_self found).symm⟩

/-- To reset a spawner ends the live group, if there is one. -/
theorem turn_reset (found : world.record? id = some spawner) (owned : 0 < spawner.owners)
    (steady : spawner.IsSteady)
    (performed : Performed (perform id reset) world transcript () later) :
    ∃ last, Turn id spawner reset transcript last ∧ later = world.put id last := by
  obtain ⟨answer, ended⟩ := (Performed.discard_iff _).mp performed
  have emptied : world.emptied id = world.put id { spawner with pending := [] } :=
    World.change_eq_put found _
  have same : (world.emptied id).group? id = spawner.group? :=
    (world.group?_emptied id).trans (World.group?_of_record found)
  have resets := id.run_reset world
  unfold Performed at ended
  obtain ⟨first, ⟨told, middle⟩, second, rfl, talked, rest⟩ :=
    (Dialogue.conducted_bind _ _ _ _).mp (resets ▸ ended)
  cases live : spawner.group? with
  | none =>
    obtain ⟨rfl, rfl, rfl⟩ := Performed.of_talk_none talked (same.trans live)
    obtain ⟨rfl, -, rfl⟩ := Dialogue.Conducted.of_done rest
    refine ⟨_, turn_quiet reset owned [] fun _ group running => ?_, emptied⟩
    cases live.symm.trans running
  | some group =>
    obtain ⟨_, after, conducted, rfl, rfl⟩ := Performed.of_talk talked (same.trans live)
    obtain ⟨rfl, -, rfl⟩ := Dialogue.Conducted.of_done rest
    rw [List.append_nil]
    refine ⟨_, turn_ended reset steady live rfl conducted [], ?_⟩
    rw [SpawnerId.destroyed, World.noted, emptied, World.change_put, World.change_put]

/-- To keep a spawner only counts one share more. -/
theorem turn_keep (found : world.record? id = some spawner) (present : spawner.exists? = true)
    (performed : Performed (perform id keep) world transcript () later) :
    ∃ last, Turn id spawner keep transcript last ∧ later = world.put id last := by
  have there : world.spawner? id = some spawner := World.spawner?_eq_some.mpr ⟨found, present⟩
  have shared : (perform id keep).run world =
      .done ((), world.change id fun spawner => { spawner with owners := spawner.owners + 1 }) := by
    show (if (world.spawner? id).isSome then id.share else Pure.pure () : Acting Unit).run world = _
    rw [there]
    rfl
  unfold Performed at performed
  obtain ⟨rfl, -, rfl⟩ := Performed.of_done performed shared
  exact ⟨_, .quiet keep spawner.pending (spawner.owners + 1) (fun _ _ => Nat.succ_pos _)
    (fun absent => by cases present.symm.trans absent) (fun is => by cases is),
    World.change_eq_put found _⟩

/-- To give up a share ends the live group if it is the last one. -/
theorem turn_leave (found : world.record? id = some spawner) (present : spawner.exists? = true)
    (owned : 0 < spawner.owners) (steady : spawner.IsSteady)
    (performed : Performed (perform id leave) world transcript () later) :
    ∃ last, Turn id spawner leave transcript last ∧ later = world.put id last := by
  have there : world.spawner? id = some spawner := World.spawner?_eq_some.mpr ⟨found, present⟩
  have same := World.group?_of_record found
  let lessen (spawner : Spawner) : Spawner := { spawner with owners := spawner.owners - 1 }
  have leaves := id.run_release world
  rw [there] at leaves
  dsimp only at leaves
  unfold Performed at performed
  by_cases last : spawner.owners = 1
  · rw [if_pos last] at leaves
    obtain ⟨first, answer, middle, second, rfl, talked, ended⟩ := (Performed.bind_iff
      (id.talk Group.finish.run) (fun _ => id.change lessen) ()).mp (leaves ▸ performed)
    obtain ⟨rfl, -, rfl⟩ := Dialogue.Conducted.of_done ended
    rw [List.append_nil]
    cases live : spawner.group? with
    | none =>
      obtain ⟨rfl, -, rfl⟩ := talked.of_talk_none (same.trans live)
      refine ⟨lessen spawner, .quiet leave spawner.pending (spawner.owners - 1) ?_
        (fun absent => by cases present.symm.trans absent) (fun is => by cases is),
        World.change_eq_put found lessen⟩
      intro group running
      cases live.symm.trans running
    | some group =>
      obtain ⟨value, after, conducted, -, rfl⟩ := talked.of_talk (same.trans live)
      obtain ⟨told, closed, rfl, talks, -⟩ :=
        Group.conducted_finish group after (steady.going group live) first value conducted
      refine ⟨_, .left group after told closed live talks, ?_⟩
      have noted : world.noted id after = world.put id { spawner with state := .live after } :=
        World.change_eq_put found _
      show (world.noted id after).change id lessen = _
      rw [noted, World.change_put]
      exact congrArg (fun owners => world.put id { spawner with state := .live after, owners })
        (Nat.sub_eq_zero_of_le last.le)
  · rw [if_neg last] at leaves
    obtain ⟨rfl, -, rfl⟩ := Performed.of_done performed leaves
    exact ⟨lessen spawner, .quiet leave spawner.pending (spawner.owners - 1)
      (fun _ _ => by omega) (fun absent => by cases present.symm.trans absent)
      (fun is => by cases is), World.change_eq_put found lessen⟩

/-- What a part does to the record of its spawner, whatever is answered. -/
theorem turn (part : Part) (performed : Performed (part.perform id) world transcript () later)
    (found : world.record? id = some spawner) (steady : spawner.IsSteady) :
    ∃ last, Turn id spawner part transcript last ∧ later = world.put id last := by
  have same := World.group?_of_record found
  cases present : spawner.exists? with
  | false =>
    have absent : world.spawner? id = none := by
      show (world.record? id).filter Spawner.exists? = none
      rw [found]
      simp [Option.filter, present]
    have idle : spawner.group? = none := by rw [Spawner.group?, present]; rfl
    obtain ⟨rfl, pending, rfl⟩ := part.idles performed absent
    refine ⟨_, .quiet part (pending spawner) spawner.owners ?_ (fun _ => rfl) ?_,
      World.change_eq_put found _⟩
    · intro group live
      cases idle.symm.trans live
    · intro _ group live
      cases idle.symm.trans live
  | true =>
    have there : world.spawner? id = some spawner := World.spawner?_eq_some.mpr ⟨found, present⟩
    have owned : 0 < spawner.owners := of_decide_eq_true present
    cases part with
    | ensure => exact turn_ensure found present owned performed
    | free => exact turn_free found present owned performed
    | call isLive surroundings name computation arguments =>
      exact turn_talk _ found rfl (fun _ => Group.utters_submit ..) performed
    | fetch result =>
      exact turn_talk _ found rfl (fun _ => Group.utters_gatherResult result) performed
    | retire => exact turn_retire found owned steady performed
    | reset => exact turn_reset found owned steady performed
    | keep => exact turn_keep found present performed
    | leave => exact turn_leave found present owned steady performed
    | note generation result =>
      obtain ⟨rfl, -, rfl⟩ := Dialogue.Conducted.of_done performed
      exact ⟨_, turn_quiet (note generation result) owned _ (fun is => by cases is),
        (World.change_eq_put found _).trans
          (congrArg (world.put id) (Custody.noting_eq generation result spawner))⟩

end Part

namespace Turn

variable {id : SpawnerId} {spawner last : Spawner} {part : Part} {transcript : Transcript}

/-- A spawner that stays has the same group as before, and one that is gone has none. -/
theorem group?_quiet (pending : List (Nat × ResultId)) (owners : Nat)
    (kept : ∀ group, spawner.group? = some group → 0 < owners)
    (gone : spawner.exists? = false → owners = spawner.owners) :
    Spawner.group? { spawner with pending, owners } = spawner.group? := by
  cases there : spawner.exists? with
  | false =>
    have absent : Spawner.exists? { spawner with pending, owners } = spawner.exists? := by
      simp only [Spawner.exists?, gone there]
    unfold Spawner.group?
    rw [absent]
    rfl
  | true =>
    cases live : spawner.group? with
    | none =>
      have idle : spawner.live? = none := by rwa [Spawner.group?, if_pos there] at live
      exact ite_eq_right_iff.mpr fun _ => idle
    | some group =>
      have owned : Spawner.exists? { spawner with pending, owners } = true :=
        decide_eq_true (kept group live)
      exact (if_pos owned).trans (Spawner.group?_eq_some.mp live).2

/-- Where no group is live, a launch that is refused leaves none. -/
theorem group?_refused (idle : spawner.live? = none) (lastGeneration : Nat) :
    Spawner.group? { spawner with lastGeneration } = none :=
  ite_eq_right_iff.mpr fun _ => idle

/-- A group that is put into the state is the live one. -/
theorem group?_live (there : spawner.exists? = true) (group : Group) (liveGeneration : Option Nat)
    (lastGeneration : Nat) (pending : List (Nat × ResultId)) :
    Spawner.group? { spawner with
      state := .live group, liveGeneration, lastGeneration, pending } = some group :=
  if_pos there

/-- A spawner whose group has ended has none. -/
theorem group?_ended (pending : List (Nat × ResultId)) :
    Spawner.group? { spawner with state := .destroyed, liveGeneration := none, pending } = none :=
  ite_eq_right_iff.mpr fun _ => rfl

/-- A spawner stays steady. -/
theorem steady (turn : Turn id spawner part transcript last) (before : spawner.IsSteady) :
    last.IsSteady := by
  have idle {after : Spawner} (absent : after.group? = none) (group : Group)
      (live : after.group? = some group) : False := by cases absent.symm.trans live
  -- Talk leaves the generation of a group as it is, and only a launch makes a new one.
  cases turn with
  | quiet _ pending owners kept gone _ =>
    have same := group?_quiet pending owners kept gone
    refine ⟨fun present => ?_, fun group live => before.going group (same.symm.trans live),
      fun group live => before.passed group (same.symm.trans live)⟩
    cases there : spawner.exists? with
    | true => exact before.noted there
    | false =>
      have absent : Spawner.exists? { spawner with pending, owners } = spawner.exists? := by
        simp only [Spawner.exists?, gone there]
      cases present.symm.trans (absent.trans there)
  | refused _ there absent _ =>
    exact ⟨before.noted, fun group live => (idle (group?_refused absent _) group live).elim,
      fun group live => (idle (group?_refused absent _) group live).elim⟩
  | launched request link there _ =>
    refine ⟨fun _ => rfl, fun group live => ?_, fun group live => ?_⟩
    · obtain rfl := Option.some.inj ((group?_live there _ _ _ _).symm.trans live)
      rfl
    · obtain rfl := Option.some.inj ((group?_live there _ _ _ _).symm.trans live)
      exact Nat.le_refl _
  | talked _ _ group pending live _ _ =>
    obtain ⟨there, running⟩ := Spawner.group?_eq_some.mp live
    refine ⟨fun _ => ?_, fun other found => ?_, fun other found => ?_⟩
    · have noted := before.noted there
      rw [running] at noted
      exact noted
    · obtain rfl := Option.some.inj ((group?_live there _ _ _ _).symm.trans found)
      exact before.going group live
    · obtain rfl := Option.some.inj ((group?_live there _ _ _ _).symm.trans found)
      exact before.passed group live
  | ended _ _ _ _ pending _ _ _ =>
    exact ⟨fun _ => rfl, fun group live => (idle (group?_ended pending) group live).elim,
      fun group live => (idle (group?_ended pending) group live).elim⟩
  | left _ after _ _ _ _ =>
    have absent : Spawner.group? { spawner with state := .live after, owners := 0 } = none := rfl
    exact ⟨fun there => (by cases there), fun group live => (idle absent group live).elim,
      fun group live => (idle absent group live).elim⟩

/-- The generations that were used up stay used up. -/
theorem lastGeneration_le (turn : Turn id spawner part transcript last) :
    spawner.lastGeneration ≤ last.lastGeneration := by
  cases turn with
  | refused => exact Nat.le_succ _
  | launched => exact Nat.le_succ _
  | _ => exact Nat.le_refl _

/-- A spawner that is gone does not come back. -/
theorem gone (turn : Turn id spawner part transcript last) (absent : spawner.exists? = false) :
    last.exists? = false := by
  have none (group : Group) (live : spawner.group? = some group) : False := by
    cases absent.symm.trans (Spawner.group?_eq_some.mp live).1
  cases turn with
  | quiet _ pending owners _ gone _ =>
    have same : Spawner.exists? { spawner with pending, owners } = spawner.exists? := by
      simp only [Spawner.exists?, gone absent]
    exact same.trans absent
  | refused _ there _ _ => cases absent.symm.trans there
  | launched _ _ there _ => cases absent.symm.trans there
  | talked _ _ group _ live _ _ => exact (none group live).elim
  | ended _ group _ _ _ live _ _ => exact (none group live).elim
  | left group _ _ _ live _ => exact (none group live).elim

/-- Over a link, whatever fails breaks the group. -/
theorem breaks_talk {may : Message → Prop} {link : Link}
    (talks : ∀ inquiry ∈ transcript, inquiry.IsTalk may link) :
    transcript.any Inquiry.breaks = transcript.hasFailed := by
  induction transcript with
  | nil => rfl
  | cons inquiry rest inductionHypothesis =>
    obtain ⟨here, others⟩ := List.forall_mem_cons.mp talks
    have same : inquiry.breaks = inquiry.hasFailed := by
      cases inquiry with
      | send along rank message answer => cases answer <;> rfl
      | receive along rank answer => cases answer <;> rfl
      | launch asking request answer => cases here
      | shutdown along answer => cases here
    rw [Transcript.hasFailed, List.any_cons, List.any_cons, same]
    exact congrArg (inquiry.hasFailed || ·) (inductionHypothesis others)

/-- There is a live group that can no longer be used if that was so before or if talk has failed,
but not if the part sees to it that no such group is left. -/
theorem isUnusable (turn : Turn id spawner part transcript last) (there : last.exists? = true) :
    last.group?.any Group.isUnusable =
      (!part.settles && (spawner.group?.any Group.isUnusable || transcript.any Inquiry.breaks)) := by
  cases turn with
  | quiet _ pending owners kept gone settled =>
    rw [group?_quiet pending owners kept gone]
    cases settles : part.settles with
    | true =>
      cases live : spawner.group? with
      | none => rfl
      | some group => simp [settled settles group live]
    | false => simp
  | refused _ present idle failed =>
    have absent : spawner.group? = none := by rw [Spawner.group?, if_pos present, idle]
    rw [group?_refused idle (spawner.lastGeneration + 1), absent]
    obtain rfl | ⟨request, failure, rfl⟩ := failed
    · rfl
    · rfl
  | launched request link present idle =>
    have absent : spawner.group? = none := by rw [Spawner.group?, if_pos present, idle]
    rw [group?_live present, absent]
    rfl
  | talked _ _ before pending running unsettled talks =>
    obtain ⟨present, -⟩ := Spawner.group?_eq_some.mp running
    rw [group?_live present, running, breaks_talk talks, unsettled]
    simp [Group.isUnusable, Group.marked, Bool.or_assoc]
  | ended _ _ _ _ pending _ ends _ =>
    rw [group?_ended, ends]
    rfl
  | left => cases there

end Turn

end Rankwise
