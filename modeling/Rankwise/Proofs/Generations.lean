import Rankwise.Proofs.Turns

/-!
# Generations

Groups of a spawner follow each other: each has a larger generation than all before it, no group is
launched before the last one was shut down, and none is shut down twice (`SpawnerId.follow` tells
what can be asked of the outside next). What belongs to one generation does not reach another one: a
result is freed only in the group for whose generation this was noted, and fetched only from the
group of the generation of its handle.

Main statement (`Deeds.generations_in_order`): all this holds over every run of what clients do,
with any number of spawners, whatever the outside answers at any point.
-/

namespace Rankwise

open Environment (GroupOptions)

namespace Inquiry

/-- The connection of a group that was launched. -/
def launched? : Inquiry → Option Link
  | launch _ _ (.ok link) => some link
  | _ => none

end Inquiry

/-- The group that was launched in a stage, as it is after it. -/
def Stage.launched? (stage : Stage) : Option Group :=
  if (stage.inquiries.filterMap Inquiry.launched?).isEmpty then none
  else stage.after.group? stage.id

namespace SpawnerId

variable (id : SpawnerId)

/-- The stages in which something was done with the spawner. -/
def own (stages : List Stage) : List Stage := stages.filter (·.id = id)

/-- The groups that were launched for the spawner, in order. -/
def launched (stages : List Stage) : List Group := (id.own stages).filterMap Stage.launched?

/-- What can be asked of the outside for the spawner, given the connection to its group that was
launched and not shut down yet, and what becomes of this: where there is such a group it is talked
with and shut down, and where there is none one can be launched. -/
def follow : Option Link → Inquiry → Option (Option Link)
  | none, .launch spawner _ answer => if spawner = id then some answer.toOption else none
  | some link, .send along _ _ _ => if along = link then some (some link) else none
  | some link, .receive along _ _ => if along = link then some (some link) else none
  | some link, .shutdown along _ => if along = link then some none else none
  | _, _ => none

/-- The groups of the spawner follow each other as they should. -/
structure IsOrderly (stages : List Stage) (last : World) : Prop where
  /-- There is a group for each launch that went well. -/
  launched : (id.launched stages).map Group.link =
    (inquiriesOf (id.own stages)).filterMap Inquiry.launched?
  increasing : (id.launched stages).Pairwise fun earlier later =>
    earlier.generation < later.generation
  /-- One group at a time is launched and not yet shut down, and at the end it is the live one. -/
  oneByOne : (inquiriesOf (id.own stages)).foldlM id.follow none =
    some ((last.group? id).map Group.link)
  /-- Once the spawner is gone, its last group was shut down as well. -/
  closed : last.spawner? id = none → (inquiriesOf (id.own stages)).foldlM id.follow none = some none
  /-- Workers free only what is to be freed in the generation of their group. -/
  freed : ∀ stage ∈ id.own stages, ∀ link rank reply,
    .send link rank (.command .deleteResult) reply ∈ stage.inquiries →
      ∃ spawner group, stage.before.spawner? id = some spawner ∧ spawner.state = .live group ∧
        group.link = link ∧ ∀ along rank result reply,
          .send along rank (.resultId result) reply ∈ stage.inquiries →
            along = link ∧ (group.generation, result) ∈ spawner.pending

end SpawnerId

/-! What one stage does. -/

/-- All spawners are steady. -/
def World.IsSteady (world : World) : Prop :=
  ∀ id spawner, world.record? id = some spawner → spawner.IsSteady

namespace Stage

variable {stage : Stage}

/-- A stage is a turn of its spawner, if there is one. -/
theorem turns (performed : stage.IsPerformed) (steady : stage.before.IsSteady) :
    (stage.before.record? stage.id = none ∧ stage.inquiries = [] ∧ stage.after = stage.before) ∨
      ∃ spawner last, stage.before.record? stage.id = some spawner ∧
        Turn stage.id spawner stage.part stage.inquiries last ∧
        stage.after = stage.before.put stage.id last := by
  cases found : stage.before.record? stage.id with
  | none =>
    have absent : stage.before.spawner? stage.id = none := by
      show (stage.before.record? stage.id).filter Spawner.exists? = none
      rw [found]
      rfl
    obtain ⟨silent, pending, same⟩ := stage.part.idles performed absent
    exact .inl ⟨rfl, silent, same.trans (World.change_absent found _)⟩
  | some spawner =>
    obtain ⟨last, turn, same⟩ := stage.part.turn performed found (steady stage.id spawner found)
    exact .inr ⟨spawner, last, rfl, turn, same⟩

/-- A stage changes the record of its own spawner only. -/
theorem record?_of_ne (performed : stage.IsPerformed) (steady : stage.before.IsSteady)
    {other : SpawnerId} (apart : other ≠ stage.id) :
    stage.after.record? other = stage.before.record? other := by
  obtain ⟨-, -, same⟩ | ⟨spawner, last, -, -, same⟩ := stage.turns performed steady
  · rw [same]
  · rw [same, World.record?_put_of_ne last apart]

/-- Spawners stay steady in a stage. -/
theorem steady (performed : stage.IsPerformed) (before : stage.before.IsSteady) :
    stage.after.IsSteady := by
  intro id spawner found
  by_cases own : id = stage.id
  · subst own
    obtain ⟨absent, -, same⟩ | ⟨earlier, last, there, turn, same⟩ := stage.turns performed before
    · rw [same, absent] at found
      cases found
    · rw [same, World.record?_put there] at found
      obtain rfl := Option.some.inj found
      exact turn.steady (before stage.id earlier there)
  · exact before id spawner ((stage.record?_of_ne performed before own).symm.trans found)

end Stage

namespace Turn

variable {id : SpawnerId} {spawner last : Spawner} {part : Part} {transcript : Transcript}

/-- The group stays launched while it is talked with. -/
theorem follow_talk {may : Message → Prop} {link : Link}
    (talks : ∀ inquiry ∈ transcript, inquiry.IsTalk may link) :
    transcript.foldlM id.follow (some link) = some (some link) := by
  induction transcript with
  | nil => rfl
  | cons inquiry rest inductionHypothesis =>
    obtain ⟨here, others⟩ := List.forall_mem_cons.mp talks
    have stays : id.follow (some link) inquiry = some (some link) := by
      cases inquiry with
      | send along rank message reply => exact if_pos here.1
      | receive along rank reply => exact if_pos here
      | launch asking request reply => cases here
      | shutdown along reply => cases here
    rw [List.foldlM_cons, stays]
    exact inductionHypothesis others

/-- When the group was talked with and closed, none is launched. -/
theorem follow_ending {may : Message → Prop} {link : Link}
    (talks : ∀ inquiry ∈ transcript, inquiry.IsTalk may link) (closed : Except Failure Unit) :
    (transcript ++ [Inquiry.shutdown link closed]).foldlM id.follow (some link) = some none := by
  rw [List.foldlM_append, follow_talk talks]
  simp [SpawnerId.follow]

/-- A turn asks for what can be asked for. -/
theorem follows (turn : Turn id spawner part transcript last) :
    transcript.foldlM id.follow (spawner.group?.map Group.link) =
      some (last.group?.map Group.link) := by
  cases turn with
  | quiet _ pending owners kept gone _ => rw [group?_quiet pending owners kept gone]; rfl
  | refused _ there idle failed =>
    have absent : spawner.group? = none := by rw [Spawner.group?, if_pos there, idle]
    rw [absent, group?_refused idle (spawner.lastGeneration + 1)]
    obtain rfl | ⟨request, failure, rfl⟩ := failed
    · rfl
    · simp [SpawnerId.follow]
      rfl
  | launched request link there idle =>
    have absent : spawner.group? = none := by rw [Spawner.group?, if_pos there, idle]
    rw [absent, group?_live there]
    simp [SpawnerId.follow]
    rfl
  | talked _ _ group pending live _ talks =>
    obtain ⟨there, -⟩ := Spawner.group?_eq_some.mp live
    rw [group?_live there, live]
    exact follow_talk talks
  | ended _ group told closed pending live _ talks =>
    rw [group?_ended, live]
    exact follow_ending talks closed
  | left group after told closed live talks =>
    rw [live]
    exact follow_ending talks closed

/-- Talk with a group launches none. -/
theorem launched?_talk {may : Message → Prop} {link : Link}
    (talks : ∀ inquiry ∈ transcript, inquiry.IsTalk may link) :
    transcript.filterMap Inquiry.launched? = [] := by
  rw [List.filterMap_eq_nil_iff]
  intro inquiry member
  cases inquiry with
  | launch asking request reply => cases talks _ member
  | _ => rfl

/-- A group that was launched has a generation that was not used up before. -/
theorem launches (turn : Turn id spawner part transcript last) :
    transcript.filterMap Inquiry.launched? = [] ∨
      ∃ group, last.group? = some group ∧ spawner.lastGeneration < group.generation ∧
        group.generation = last.lastGeneration ∧
        transcript.filterMap Inquiry.launched? = [group.link] := by
  cases turn with
  | quiet => exact .inl rfl
  | refused _ _ _ failed =>
    obtain rfl | ⟨request, failure, rfl⟩ := failed
    · exact .inl rfl
    · exact .inl rfl
  | launched request link there idle =>
    exact .inr ⟨_, group?_live there _ _ _ _, Nat.lt_succ_self _, rfl, rfl⟩
  | talked _ _ _ _ _ _ talks => exact .inl (launched?_talk talks)
  | ended _ _ _ _ _ _ _ talks =>
    refine .inl ?_
    rw [List.filterMap_append, launched?_talk talks]
    rfl
  | left _ _ _ _ _ talks =>
    refine .inl ?_
    rw [List.filterMap_append, launched?_talk talks]
    rfl

/-- What is said to workers is said to those of the live group, and the part may say it. -/
theorem said (turn : Turn id spawner part transcript last) {link : Link} {rank : Nat}
    {message : Message} {reply : Except Failure Unit}
    (sent : .send link rank message reply ∈ transcript) :
    ∃ group, spawner.group? = some group ∧ link = group.link ∧ part.MaySay spawner group message := by
  have ending {group : Group} {told : Transcript} {closed : Except Failure Unit}
      (talks : ∀ inquiry ∈ told, inquiry.IsTalk Message.InEnding group.link)
      (sent : .send link rank message reply ∈ told ++ [.shutdown group.link closed]) :
      link = group.link ∧ message.InEnding := by
    rcases List.mem_append.mp sent with early | late
    · exact talks _ early
    · cases List.mem_singleton.mp late
  cases turn with
  | quiet => cases sent
  | refused _ _ _ failed =>
    obtain rfl | ⟨request, failure, rfl⟩ := failed
    · cases sent
    · cases List.mem_singleton.mp sent
  | launched => cases List.mem_singleton.mp sent
  | talked _ _ group _ live _ talks => exact ⟨group, live, talks _ sent⟩
  | ended _ group told closed _ live ends talks =>
    refine ⟨group, live, ?_⟩
    cases part with
    | retire => exact ending talks sent
    | reset => exact ending talks sent
    | _ => cases ends
  | left group _ told closed live talks => exact ⟨group, live, ending talks sent⟩

/-- Freeing results does not give a spawner another group. -/
theorem same_group (turn : Turn id spawner .free transcript last) :
    (last.group?.map fun group => (group.link, group.generation, group.size)) =
      spawner.group?.map fun group => (group.link, group.generation, group.size) := by
  cases turn with
  | quiet _ pending owners kept gone _ => rw [group?_quiet pending owners kept gone]
  | talked _ _ before _ running _ _ =>
    obtain ⟨there, -⟩ := Spawner.group?_eq_some.mp running
    rw [group?_live there, running]
    rfl
  | ended _ _ _ _ _ _ ends _ => cases ends

/-- Only where results are freed workers are told to free any, and only those of their generation.
-/
theorem frees (turn : Turn id spawner part transcript last) {link : Link} {rank : Nat}
    {reply : Except Failure Unit}
    (orders : .send link rank (.command .deleteResult) reply ∈ transcript) :
    ∃ group, spawner.group? = some group ∧ group.link = link ∧ ∀ along rank result reply,
      .send along rank (.resultId result) reply ∈ transcript →
        along = link ∧ (group.generation, result) ∈ spawner.pending := by
  obtain ⟨group, live, rfl, may⟩ := turn.said orders
  obtain rfl : part = .free := by
    cases part with
    | free => rfl
    | _ => cases may
  refine ⟨group, live, rfl, fun along rank result reply named => ?_⟩
  obtain ⟨same, running, there, listed⟩ := turn.said named
  obtain rfl := Option.some.inj (live.symm.trans running)
  exact ⟨there, listed⟩

end Turn

/-- A stage launches nothing, or one group of a generation that its spawner had not used up before
and has used up behind it. -/
theorem Stage.launches {stage : Stage} (performed : stage.IsPerformed)
    (steady : stage.before.IsSteady) :
    (stage.launched? = none ∧ stage.inquiries.filterMap Inquiry.launched? = [] ∧
      ∀ spawner, stage.before.record? stage.id = some spawner →
        ∃ after, stage.after.record? stage.id = some after ∧
          spawner.lastGeneration ≤ after.lastGeneration) ∨
      ∃ spawner after group, stage.before.record? stage.id = some spawner ∧
        stage.after.record? stage.id = some after ∧ stage.launched? = some group ∧
        stage.inquiries.filterMap Inquiry.launched? = [group.link] ∧
        spawner.lastGeneration < group.generation ∧ group.generation = after.lastGeneration := by
  have nothing (none : stage.inquiries.filterMap Inquiry.launched? = []) :
      stage.launched? = .none := by rw [Stage.launched?, none]; rfl
  obtain ⟨absent, silent, -⟩ | ⟨spawner, after, found, turn, same⟩ := stage.turns performed steady
  · have none : stage.inquiries.filterMap Inquiry.launched? = [] := by rw [silent]; rfl
    exact .inl ⟨nothing none, none, fun _ found => by cases absent.symm.trans found⟩
  · have there : stage.after.record? stage.id = some after := by
      rw [same, World.record?_put found after]
    obtain none | ⟨group, live, fresh, numbered, one⟩ := turn.launches
    · refine .inl ⟨nothing none, none, fun known recorded => ?_⟩
      obtain rfl := Option.some.inj (found.symm.trans recorded)
      exact ⟨after, there, turn.lastGeneration_le⟩
    · refine .inr ⟨spawner, after, group, found, there, ?_, one, fresh, numbered⟩
      rw [Stage.launched?, one, World.group?_of_record there]
      exact live

/-! Runs. -/

namespace World

variable {world : World} {id : SpawnerId}

/-- What is on record of a spawner depends on the spawners alone. -/
theorem record?_of_spawners {other : World} (same : other.spawners = world.spawners) :
    other.record? id = world.record? id := by rw [record?, record?, same]

/-- What is recorded of a spawner once a further one was created: as before, or it is this one. -/
theorem record?_create (world : World) (id : SpawnerId) (options : GroupOptions) :
    ({ world with spawners := world.spawners ++ [({ options } : Spawner)] } : World).record? id =
        world.record? id ∨
      world.record? id = none ∧
        ({ world with spawners := world.spawners ++ [({ options } : Spawner)] } : World).record? id =
          some { options } := by
  unfold record?
  rw [List.getElem?_append]
  split
  case isTrue => exact .inl rfl
  case isFalse beyond =>
    have absent : world.spawners[id.index]? = none :=
      List.getElem?_eq_none (Nat.le_of_not_lt beyond)
    rw [absent]
    cases there : id.index - world.spawners.length with
    | zero => exact .inr ⟨rfl, rfl⟩
    | succ further => exact .inl rfl

/-- A spawner that was just created is steady, and the others stay so. -/
theorem steady_create (steady : world.IsSteady) (options : GroupOptions) :
    ({ world with spawners := world.spawners ++ [({ options } : Spawner)] } : World).IsSteady := by
  intro id spawner found
  rcases record?_create world id options with same | ⟨-, fresh⟩
  · exact steady id spawner (same ▸ found)
  · obtain rfl := Option.some.inj (fresh.symm.trans found)
    exact ⟨fun _ => rfl, fun group live => (by cases live), fun group live => (by cases live)⟩

/-- To create a spawner launches no group. -/
theorem group?_create (world : World) (id : SpawnerId) (options : GroupOptions) :
    ({ world with spawners := world.spawners ++ [({ options } : Spawner)] } : World).group? id =
      world.group? id := by
  rw [group?_eq_bind, group?_eq_bind]
  rcases record?_create world id options with same | ⟨absent, fresh⟩
  · rw [same]
  · rw [fresh, absent]
    rfl

end World

namespace Passes

variable {world last : World} {stages : List Stage}

/-- Spawners stay steady in every run. -/
theorem steady (passes : Passes world stages last) (before : world.IsSteady) : last.IsSteady := by
  induction passes with
  | nil world => exact before
  | part stage performed _ inductionHypothesis =>
    exact inductionHypothesis (stage.steady performed before)
  | besides world middle same _ inductionHypothesis =>
    exact inductionHypothesis fun id spawner found =>
      before id spawner ((World.record?_of_spawners same).symm.trans found)
  | create world options _ inductionHypothesis =>
    exact inductionHypothesis (World.steady_create before options)

/-- What is asked for a spawner can be asked for. -/
theorem follows (passes : Passes world stages last) (before : world.IsSteady) (id : SpawnerId) :
    (inquiriesOf (id.own stages)).foldlM id.follow ((world.group? id).map Group.link) =
      some ((last.group? id).map Group.link) := by
  -- Stage by stage. What is asked along one spawner is asked in its own stages.
  induction passes with
  | nil world => rfl
  | part stage performed _ inductionHypothesis =>
    have later := inductionHypothesis (stage.steady performed before)
    by_cases own : stage.id = id
    · subst own
      have turned : stage.inquiries.foldlM stage.id.follow
          ((stage.before.group? stage.id).map Group.link) =
            some ((stage.after.group? stage.id).map Group.link) := by
        obtain ⟨-, silent, same⟩ | ⟨spawner, after, found, turn, same⟩ := stage.turns performed before
        · rw [silent, same]
          rfl
        · rw [same, World.group?_of_record found,
            World.group?_of_record (World.record?_put found after)]
          exact turn.follows
      rw [SpawnerId.own, List.filter_cons_of_pos (by simp), inquiriesOf, List.flatMap_cons,
        List.foldlM_append, turned]
      exact later
    · have same : stage.after.group? id = stage.before.group? id := by
        rw [World.group?_eq_bind, World.group?_eq_bind,
          stage.record?_of_ne performed before (Ne.symm own)]
      rw [SpawnerId.own, List.filter_cons_of_neg (by simpa using own), ← same]
      exact later
  | besides world middle same _ inductionHypothesis =>
    have group : middle.group? id = world.group? id := by
      rw [World.group?_eq_bind, World.group?_eq_bind, World.record?_of_spawners same]
    rw [← group]
    exact inductionHypothesis fun id spawner found =>
      before id spawner ((World.record?_of_spawners same).symm.trans found)
  | create world options _ inductionHypothesis =>
    rw [← World.group?_create world id options]
    exact inductionHypothesis (World.steady_create before options)

/-- The groups that are launched for a spawner have generations that were not used up before, each a
larger one than those before it. -/
theorem launches (passes : Passes world stages last) (before : world.IsSteady) (id : SpawnerId) :
    (id.launched stages).map Group.link =
        (inquiriesOf (id.own stages)).filterMap Inquiry.launched? ∧
      ((id.launched stages).Pairwise fun earlier later => earlier.generation < later.generation) ∧
      ∀ spawner, world.record? id = some spawner → ∀ group ∈ id.launched stages,
        spawner.lastGeneration < group.generation := by
  induction passes with
  | nil world => exact ⟨rfl, .nil, fun _ _ => List.forall_mem_nil _⟩
  | part stage performed _ inductionHypothesis =>
    obtain ⟨links, increasing, above⟩ := inductionHypothesis (stage.steady performed before)
    by_cases own : stage.id = id
    · subst own
      rw [SpawnerId.launched, SpawnerId.own, List.filter_cons_of_pos (by simp),
        List.filterMap_cons, inquiriesOf, List.flatMap_cons, List.filterMap_append]
      obtain ⟨none, silent, kept⟩ |
          ⟨spawner, after, group, found, there, launched, one, fresh, numbered⟩ :=
        stage.launches performed before
      · rw [none, silent]
        refine ⟨links, increasing, fun spawner found group member => ?_⟩
        obtain ⟨after, there, grown⟩ := kept spawner found
        exact Nat.lt_of_le_of_lt grown (above after there group member)
      · have beyond (later : Group) (member : later ∈ stage.id.launched _) :
            group.generation < later.generation :=
          numbered ▸ above after there later member
        rw [launched, one]
        refine ⟨congrArg (group.link :: ·) links,
          List.pairwise_cons.mpr ⟨beyond, increasing⟩, fun known recorded => ?_⟩
        obtain rfl := Option.some.inj (found.symm.trans recorded)
        exact List.forall_mem_cons.mpr
          ⟨fresh, fun later member => fresh.trans (beyond later member)⟩
    · rw [SpawnerId.launched, SpawnerId.own, List.filter_cons_of_neg (by simpa using own)]
      exact ⟨links, increasing, fun spawner found => above spawner
        ((stage.record?_of_ne performed before (Ne.symm own)).trans found)⟩
  | besides world middle same _ inductionHypothesis =>
    obtain ⟨links, increasing, above⟩ := inductionHypothesis fun id spawner found =>
      before id spawner ((World.record?_of_spawners same).symm.trans found)
    exact ⟨links, increasing, fun spawner found =>
      above spawner ((World.record?_of_spawners same).trans found)⟩
  | create world options _ inductionHypothesis =>
    obtain ⟨links, increasing, above⟩ := inductionHypothesis (World.steady_create before options)
    refine ⟨links, increasing, fun spawner found => above spawner ?_⟩
    rcases World.record?_create world id options with same | ⟨absent, -⟩
    · exact same.trans found
    · cases absent.symm.trans found

/-- Each stage was done with steady spawners. -/
theorem performed (passes : Passes world stages last) (before : world.IsSteady) (stage : Stage)
    (member : stage ∈ stages) : stage.IsPerformed ∧ stage.before.IsSteady := by
  induction passes with
  | nil world => cases member
  | part first done _ inductionHypothesis =>
    rcases List.mem_cons.mp member with rfl | later
    · exact ⟨done, before⟩
    · exact inductionHypothesis (first.steady done before) later
  | besides world middle same _ inductionHypothesis =>
    exact inductionHypothesis (fun id spawner found =>
      before id spawner ((World.record?_of_spawners same).symm.trans found)) member
  | create world options _ inductionHypothesis =>
    exact inductionHypothesis (World.steady_create before options) member

/-- The groups of a spawner follow each other as they should, from the start. -/
theorem isOrderly (passes : Passes world stages last) (fresh : world.spawners = [])
    (id : SpawnerId) : id.IsOrderly stages last := by
  have absent (other : SpawnerId) : world.record? other = none := by rw [World.record?, fresh]; rfl
  have before : world.IsSteady := fun other spawner found => by cases (absent other).symm.trans found
  obtain ⟨links, increasing, -⟩ := passes.launches before id
  have idle : world.group? id = none := by rw [World.group?_eq_bind, absent]; rfl
  have follows := passes.follows before id
  rw [idle] at follows
  refine ⟨links, increasing, follows, ?_, ?_⟩
  · intro gone
    have none : last.group? id = none := by rw [World.group?_eq, gone]; rfl
    rwa [none] at follows
  · intro stage member link rank reply orders
    obtain ⟨listed, own⟩ := List.mem_filter.mp member
    obtain rfl : stage.id = id := of_decide_eq_true own
    obtain ⟨performed, steady⟩ := passes.performed before stage listed
    obtain ⟨-, silent, -⟩ | ⟨spawner, after, found, turn, -⟩ := stage.turns performed steady
    · rw [silent] at orders
      cases orders
    · obtain ⟨group, live, along, named⟩ := turn.frees orders
      obtain ⟨there, running⟩ := Spawner.group?_eq_some.mp live
      exact ⟨spawner, group, World.spawner?_eq_some.mpr ⟨found, there⟩,
        Spawner.live?_eq_some.mp running, along, named⟩

end Passes

/-! Fetching. -/

namespace Group

variable {group after : Group} {transcript : Transcript} {result : ResultId}
  {answer : Except Failure Batch}

/-- A group that can no longer be used fails the check for it. -/
theorem ensureUsable_unusable (unusable : group.isUnusable = true) :
    ensureUsable.run.run group = .done (.error (Group.unusable group.generation), group) := by
  have cases : ensureUsable.run.run group =
      (if group.isUnusable then throw (Group.unusable group.generation) else Pure.pure () :
        Talk Unit).run.run group := rfl
  rw [cases, if_pos unusable]
  rfl

/-- A group that can no longer be used is not asked for anything. -/
theorem gatherResult_unusable (unusable : group.isUnusable = true) :
    (gatherResult result).run.run group = .done (.error (Group.unusable group.generation), group) :=
  congrArg (fun dialogue => Dialogue.bind dialogue _) (ensureUsable_unusable unusable)

/-- What is said to all ranks of a group that has any is said to rank zero first. -/
theorem conducted_broadcast {message : Message} {size : Nat} (sized : group.size = size + 1)
    {told : Except Failure Unit}
    (conducted : ((broadcast message).run.run group).Conducted transcript (told, after)) :
    ∃ reply others, transcript = .send group.link 0 message reply :: others := by
  have cases : (broadcast message).run.run group =
      ((List.range group.size).forM fun rank => send rank message).run.run group := rfl
  rw [cases, sized, List.range_succ_eq_map] at conducted
  obtain ⟨first, _, rest, rfl, sent, -⟩ := (Dialogue.conducted_bind _ _ _ _).mp conducted
  cases sent with
  | send _ _ _ _ reply _ => exact ⟨reply, _, rfl⟩

/-- A group that can be used and has ranks asks rank zero first to send its partition. -/
theorem conducted_gatherResult_usable (usable : group.isUnusable = false) (manned : 0 < group.size)
    (conducted : ((gatherResult result).run.run group).Conducted transcript (answer, after)) :
    ∃ reply others, transcript = .send group.link 0 (.command .gather) reply :: others := by
  obtain ⟨link, size, generation, broken, ended⟩ := group
  obtain ⟨rfl, rfl⟩ : ended = false ∧ broken = false := by
    rwa [isUnusable, Bool.or_eq_false_iff] at usable
  obtain ⟨size, rfl⟩ := Nat.exists_eq_succ_of_ne_zero (Nat.pos_iff_ne_zero.mp manned)
  obtain ⟨first, _, rest, rfl, told, -⟩ := (Dialogue.conducted_bind
    ((broadcast (.command .gather)).run.run
      { link, size := size + 1, generation, broken := false, ended := false }) _ _ _).mp conducted
  obtain ⟨reply, others, rfl⟩ := conducted_broadcast rfl told
  exact ⟨reply, others ++ rest, rfl⟩

/-- If no rank was told to send its partition, fetching has failed for that reason. -/
theorem conducted_gatherResult
    (conducted : ((gatherResult result).run.run group).Conducted transcript (answer, after))
    (untold : ∀ rank reply, .send group.link rank (.command .gather) reply ∉ transcript) :
    ∃ failure, answer = .error failure ∧ failure.kind = .protocol := by
  cases unusable : group.isUnusable with
  | true =>
    rw [gatherResult_unusable unusable] at conducted
    obtain ⟨-, same⟩ := (Dialogue.conducted_done _ _ _).mp conducted
    exact ⟨_, (Prod.mk.inj same).1, rfl⟩
  | false =>
    cases manned : group.size with
    | zero =>
      obtain ⟨link, size, generation, broken, ended⟩ := group
      obtain ⟨rfl, rfl⟩ : ended = false ∧ broken = false := by
        rwa [isUnusable, Bool.or_eq_false_iff] at unusable
      obtain rfl : size = 0 := manned
      obtain ⟨-, same⟩ := (Dialogue.conducted_done _ _ _).mp conducted
      exact ⟨_, (Prod.mk.inj same).1, rfl⟩
    | succ size =>
      obtain ⟨reply, others, rfl⟩ :=
        conducted_gatherResult_usable unusable (manned ▸ size.succ_pos) conducted
      exact absurd List.mem_cons_self (untold 0 reply)

end Group

/-- How fetching through a handle can go. -/
inductive Handle.Gathers (handle : Handle) (world : World) :
    Transcript → Except Stop Batch → World → Prop
  | gone (absent : world.spawner? handle.owner = none) :
      Gathers handle world [] (.error (.failed SpawnerId.gone)) world
  /-- The group of the handle has ended. -/
  | stale {freeing : Transcript} {middle : World}
      (freed : Performed handle.owner.flush world freeing () middle)
      (other : ∀ group, middle.group? handle.owner = some group →
        group.generation ≠ handle.generation) :
      Gathers handle world freeing (.error (.failed (Handle.ofEndedGroup handle.generation))) middle
  | fetched {freeing fetching retiring : Transcript} {middle between later : World} {group : Group}
      {table : Except Failure Batch} (freed : Performed handle.owner.flush world freeing () middle)
      (live : middle.group? handle.owner = some group)
      (own : group.generation = handle.generation)
      (talked : Performed (handle.owner.talk (Group.gatherResult handle.id).run) middle fetching
        (some table) between)
      (retired : Performed handle.owner.retireIfUnusable between retiring () later) :
      Gathers handle world (freeing ++ (fetching ++ retiring)) (table.mapError .failed) later

namespace Handle

variable {handle : Handle} {world later : World} {transcript : Transcript}
  {answer : Except Stop Batch}

/-- Once results were freed, one fetches from the live group if it is of the generation of the
handle. -/
theorem gathers_live {freeing : Transcript} {middle : World}
    (freed : Performed handle.owner.flush world freeing () middle)
    (performed : Performed handle.gatherLive.run middle transcript answer later) :
    handle.Gathers world (freeing ++ transcript) answer later := by
  have failing (stale : handle.gatherLive.run.run middle =
        .done (.error (.failed (ofEndedGroup handle.generation)), middle))
      (other : ∀ group, middle.group? handle.owner = some group →
        group.generation ≠ handle.generation) :
      handle.Gathers world (freeing ++ transcript) answer later := by
    unfold Performed at performed
    obtain ⟨rfl, rfl, rfl⟩ := Performed.of_done performed stale
    rw [List.append_nil]
    exact .stale freed other
  have cases := gatherLive_cases handle middle
  cases live : middle.group? handle.owner with
  | none =>
    rw [live] at cases
    exact failing cases fun group running => by cases live.symm.trans running
  | some group =>
    rw [live] at cases
    dsimp only at cases
    by_cases own : group.generation = handle.generation
    · rw [if_neg (not_not.mpr own)] at cases
      have fetches : Performed handle.gatherFrom.run middle transcript answer later := by
        unfold Performed at performed ⊢
        exact cases ▸ performed
      obtain ⟨fetching, told, between, rest, rfl, talked, performed⟩ := (Performed.lift_iff
        (handle.owner.talk (Group.gatherResult handle.id).run) _ _).mp fetches
      obtain ⟨retiring, _, last, silent, rfl, retired, performed⟩ :=
        (Performed.lift_iff handle.owner.retireIfUnusable _ _).mp performed
      obtain ⟨rfl, rfl, rfl⟩ := Dialogue.Conducted.of_done performed
      obtain ⟨table, after, -, rfl, -⟩ := talked.of_talk live
      rw [List.append_nil]
      exact .fetched freed live own talked retired
    · rw [if_pos own] at cases
      exact failing cases fun other running =>
        Option.some.inj (live.symm.trans running) ▸ own

/-- Fetching goes one of these ways. -/
theorem gathers (performed : Performed handle.gather.run world transcript answer later) :
    handle.Gathers world transcript answer later := by
  unfold Performed at performed
  have cases := gather_cases handle world
  cases found : world.spawner? handle.owner with
  | none =>
    rw [found] at cases
    obtain ⟨rfl, rfl, rfl⟩ := Performed.of_done performed cases
    exact .gone found
  | some spawner =>
    rw [found] at cases
    obtain ⟨freeing, _, middle, rest, rfl, freed, performed⟩ :=
      (Performed.lift_iff handle.owner.flush (fun _ => handle.gatherLive) _).mp (cases ▸ performed)
    exact gathers_live freed performed

/-- Freeing results leaves a spawner its live group. The group can be used afterwards if it could be
used before and no talk with it has failed since. -/
theorem kept_freed {freeing : Transcript} {middle : World} {group : Group}
    (steady : world.IsSteady)
    (freed : Performed handle.owner.flush world freeing () middle)
    (live : world.group? handle.owner = some group) :
    ∃ kept, middle.group? handle.owner = some kept ∧ kept.link = group.link ∧
      kept.generation = group.generation ∧ kept.size = group.size ∧
      kept.isUnusable = (group.isUnusable || freeing.any Inquiry.breaks) := by
  have free : Stage.IsPerformed ⟨handle.owner, .free, world, freeing, middle⟩ := freed
  obtain ⟨absent, -, -⟩ | ⟨before, last, recorded, turn, same⟩ := Stage.turns free steady
  · have absent : world.record? handle.owner = none := absent
    rw [World.group?_eq_bind, absent] at live
    cases live
  · have same : middle = world.put handle.owner last := same
    rw [World.group?_of_record recorded] at live
    rw [same, World.group?_of_record (World.record?_put recorded last)]
    have kept := turn.same_group
    have unusable := turn.isUnusable
    rw [live] at kept unusable
    obtain ⟨after, running, kept⟩ := Option.map_eq_some_iff.mp kept
    rw [running] at unusable
    simp only [Prod.mk.injEq] at kept
    exact ⟨after, running, kept.1, kept.2.1, kept.2.2,
      unusable (Spawner.group?_eq_some.mp running).1⟩

/-- The group that is live once results were freed was live before, and can be used if it could be
used then and no talk with it has failed since. -/
theorem group?_freed {freeing : Transcript} {middle : World} {group : Group}
    (steady : world.IsSteady)
    (freed : Performed handle.owner.flush world freeing () middle)
    (live : middle.group? handle.owner = some group) :
    ∃ first, world.group? handle.owner = some first ∧ group.link = first.link ∧
      group.generation = first.generation ∧ group.size = first.size ∧
      group.isUnusable = (first.isUnusable || freeing.any Inquiry.breaks) := by
  cases running : world.group? handle.owner with
  | some first =>
    obtain ⟨_, again, same⟩ := kept_freed steady freed running
    obtain rfl := Option.some.inj (live.symm.trans again)
    exact ⟨first, rfl, same⟩
  | none =>
    have free : Stage.IsPerformed ⟨handle.owner, .free, world, freeing, middle⟩ := freed
    obtain ⟨-, -, same⟩ | ⟨before, last, recorded, turn, same⟩ := Stage.turns free steady
    · have same : middle = world := same
      rw [same, running] at live
      cases live
    · have same : middle = world.put handle.owner last := same
      have kept := turn.same_group
      rw [← World.group?_of_record recorded, running,
        ← World.group?_of_record (World.record?_put recorded last), ← same, live] at kept
      cases kept

/-- Neither freeing results nor retiring a group tells workers to send partitions. -/
theorem unsaid_gather {stage : Stage} (performed : stage.IsPerformed)
    (steady : stage.before.IsSteady) (apart : stage.part = .free ∨ stage.part = .retire)
    (link : Link) (rank : Nat) (reply : Except Failure Unit) :
    .send link rank (.command .gather) reply ∉ stage.inquiries := by
  intro sent
  obtain ⟨-, silent, -⟩ | ⟨spawner, last, -, turn, -⟩ := stage.turns performed steady
  · rw [silent] at sent
    cases sent
  · obtain ⟨group, -, -, may⟩ := turn.said sent
    rcases apart with free | retire
    · rw [free] at may
      cases may
    · rw [retire] at may
      cases may

/-- A result was fetched from the live group of the generation of its handle, or not at all, and
then this has failed. -/
structure IsFetched (handle : Handle) (world : World) (transcript : Transcript)
    (answer : Except Stop Batch) : Prop where
  /-- Where such a group can be used, its rank zero is asked for its partition, once it was told
  what to free, unless talk with it has failed in this. -/
  asked : ∀ group, world.group? handle.owner = some group → group.generation = handle.generation →
    group.isUnusable = false → 0 < group.size → ∃ freeing fetching, transcript = freeing ++ fetching ∧
      (freeing.any Inquiry.breaks = true ∨
        ∃ reply others, fetching = .send group.link 0 (.command .gather) reply :: others)
  told : ∀ link rank reply, .send link rank (.command .gather) reply ∈ transcript →
    ∃ group, world.group? handle.owner = some group ∧ group.generation = handle.generation ∧
      group.link = link
  untold : (∀ link rank reply, .send link rank (.command .gather) reply ∉ transcript) →
    ∃ failure, answer = .error (.failed failure) ∧ failure.kind = .protocol

/-- Whatever is answered, a result is fetched from the live group of the generation of its handle,
or this has failed. -/
theorem isFetched (steady : world.IsSteady)
    (performed : Performed handle.gather.run world transcript answer later) :
    handle.IsFetched world transcript answer := by
  have failed {failure : Failure} {told : Transcript} (kind : failure.kind = .protocol)
      (other : ∀ group, world.group? handle.owner = some group →
        group.generation ≠ handle.generation)
      (silent : ∀ link rank reply, .send link rank (.command .gather) reply ∉ told) :
      handle.IsFetched world told (.error (.failed failure)) :=
    ⟨fun group live own => absurd own (other group live),
      fun link rank reply sent => absurd sent (silent link rank reply), fun _ => ⟨failure, rfl, kind⟩⟩
  -- The spawner is gone, its live group is another one, or a result is asked for.
  cases gathers performed with
  | gone absent =>
    refine failed rfl (fun group live => ?_) fun _ _ _ => List.not_mem_nil
    rw [World.group?_eq, absent] at live
    cases live
  | @stale freeing middle freed other =>
    have free : Stage.IsPerformed ⟨handle.owner, .free, world, transcript, later⟩ := freed
    refine failed rfl (fun group live own => ?_) (unsaid_gather free steady (.inl rfl))
    obtain ⟨kept, running, -, same, -⟩ := kept_freed steady freed live
    exact other kept running (same.trans own)
  | @fetched freeing fetching retiring middle between _ group table freed live own talked retired =>
    have free : Stage.IsPerformed ⟨handle.owner, .free, world, freeing, middle⟩ := freed
    have fetch : Stage.IsPerformed ⟨handle.owner, .fetch handle.id, middle, fetching, between⟩ :=
      (Performed.discard_iff _).mpr ⟨_, talked⟩
    have retire : Stage.IsPerformed ⟨handle.owner, .retire, between, retiring, later⟩ := retired
    have before := Stage.steady free steady
    obtain ⟨value, after, conducted, reached, -⟩ := talked.of_talk live
    obtain rfl := Option.some.inj reached
    have talks := ((Group.utters_gatherResult handle.id).conducted group after fetching table
      conducted).2
    obtain ⟨first, running, along, generation, size, unusable⟩ := group?_freed steady freed live
    refine ⟨fun asked there _ usable manned => ?_, fun link rank reply sent => ?_, fun untold => ?_⟩
    · obtain rfl := Option.some.inj (running.symm.trans there)
      refine ⟨freeing, fetching ++ retiring, rfl, ?_⟩
      cases breaks : freeing.any Inquiry.breaks with
      | true => exact .inl rfl
      | false =>
        rw [usable, breaks] at unusable
        obtain ⟨reply, others, rfl⟩ :=
          Group.conducted_gatherResult_usable unusable (size ▸ manned) conducted
        exact .inr ⟨reply, others ++ retiring, by rw [along, List.cons_append]⟩
    · rcases List.mem_append.mp sent with early | sent
      · exact absurd early (unsaid_gather free steady (.inl rfl) link rank reply)
      · rcases List.mem_append.mp sent with said | late
        · exact ⟨first, running, generation.symm.trans own, along.symm.trans (talks _ said).1.symm⟩
        · exact absurd late
            (unsaid_gather retire (Stage.steady fetch before) (.inr rfl) link rank reply)
    · obtain ⟨failure, rfl, kind⟩ := Group.conducted_gatherResult conducted fun rank reply sent =>
        untold group.link rank reply (List.mem_append_right _ (List.mem_append_left _ sent))
      exact ⟨failure, rfl, kind⟩

end Handle

/-- Over every run of what clients do, whatever the outside answers: the groups of each spawner
follow each other as they should, results are freed only in their generation, and fetched only from
it. -/
theorem Deeds.generations_in_order {start last : World} {deeds : List (Deed × Transcript)}
    (fresh : start.spawners = []) (done : Deeds start deeds last) :
    (∃ stages, Passes start stages last ∧ inquiriesOf stages = deeds.flatMap Prod.snd) ∧
      (∀ stages, Passes start stages last → ∀ id : SpawnerId, id.IsOrderly stages last) ∧
      ∀ (handle : Handle) transcript answer later,
        Performed handle.gather.run last transcript answer later →
          handle.IsFetched last transcript answer := by
  obtain ⟨stages, passes, same⟩ := done.passes
  have before : start.IsSteady := by
    intro id spawner found
    rw [World.record?, fresh] at found
    cases found
  exact ⟨⟨stages, passes, same⟩, fun _ passes => passes.isOrderly fresh,
    fun _ _ _ _ => Handle.isFetched (passes.steady before)⟩

/-! Three groups of one worker. The connection to the first one fails in a call. The second one
stores a result, which is fetched and freed, and is ended by a reset. The third one stores a result
as well. -/

namespace Deeds.successors

/-- What the worker keeps for each result. -/
def part : Batch := { schema := { fields := [] }, columns := [], rows := 1 }

/-- What a group is launched with. -/
def request : LaunchRequest := { workers := 1, environment := [], verbosity := 0 }

/-- The result that a group of this generation stores for a call. -/
def handle (key generation call : Nat) : Handle where
  key := key
  id := .ofOutput (.ofCounter call) 0
  generation := generation
  owner := ⟨0⟩

/-- A call that stores a result in the group that is launched for it. -/
def storing (link : Link) (call : Nat) : Transcript :=
  [.launch ⟨0⟩ request (.ok link),
    .send link 0 (.command .execute) (.ok ()),
    .send link 0 (.environment []) (.ok ()),
    .send link 0 (.arguments [] []) (.ok ()),
    .send link 0 (.computation { name := "give" } (.ofCounter call)) (.ok ()),
    .receive link 0 (.ok .completed),
    .receive link 0 (.ok (.status none)),
    .send link 0 (.proceed true) (.ok ()),
    .receive link 0 (.ok (.outputShape .distributed)),
    .receive link 0 (.ok (.partitionMeta (some (.ofBatch part))))]

/-- To fetch a result from a group is to ask for it by its name. -/
def fetching (link : Link) (handle : Handle) : Transcript :=
  [.send link 0 (.command .gather) (.ok ()),
    .send link 0 (.resultId handle.id) (.ok ()),
    .receive link 0 (.ok (.partition (some part)))]

end Deeds.successors

/-- What is done with the spawner, and what is asked of the outside in this. -/
def Deeds.successors : List (Deed × Transcript) :=
  [(.create { workers := some 1 }, []),
    (.submit ⟨0⟩ {} { name := "echo" } {}, [
      .launch ⟨0⟩ successors.request (.ok ⟨0⟩),
      .send ⟨0⟩ 0 (.command .execute) (.error { message := "" }),
      .shutdown ⟨0⟩ (.ok ())]),
    (.submit ⟨0⟩ {} { name := "give" } {}, successors.storing ⟨1⟩ 1),
    (.fetch (successors.handle 0 2 1), successors.fetching ⟨1⟩ (successors.handle 0 2 1)),
    (.release (successors.handle 0 2 1), [
      .send ⟨1⟩ 0 (.command .deleteResult) (.ok ()),
      .send ⟨1⟩ 0 (.resultId (successors.handle 0 2 1).id) (.ok ())]),
    (.reset ⟨0⟩, [
      .send ⟨1⟩ 0 (.command .exit) (.ok ()),
      .shutdown ⟨1⟩ (.ok ())]),
    (.submit ⟨0⟩ {} { name := "give" } {}, successors.storing ⟨2⟩ 2)]

namespace Deeds.successors

/-- The coordinator after so many calls, with one spawner and so many shares of each result. -/
def world (spawner : Spawner) (calls : Nat) (shares : List Nat) : World :=
  { spawners := [spawner], calls, shares }

/-- A spawner of groups of one worker. -/
def fresh : Spawner := { options := { workers := some 1 } }

/-- The spawner when a group has ended. -/
def ended (generation : Nat) : Spawner :=
  { fresh with state := .destroyed, lastGeneration := generation }

/-- The spawner when a group is live. -/
def live (link : Link) (generation : Nat) : Spawner :=
  { fresh with
    state := .live { link, size := 1, generation }
    liveGeneration := some generation
    lastGeneration := generation }

/-- The coordinator when all of this was done. -/
def last : World := world (live ⟨2⟩ 3) 3 [0, 1]

/-- All of this can be done in this order. -/
theorem done : Deeds {} successors last := by
  have created : Performed (Deed.perform (.create { workers := some 1 })) {} _ ()
      (world fresh 0 []) := .done _
  have failed :
      Performed (Deed.perform (.submit ⟨0⟩ {} { name := "echo" } {})) (world fresh 0 []) _ ()
        (world (ended 1) 1 []) :=
    .launch _ _ _ (.ok ⟨0⟩) (.send _ _ _ _ (.error { message := "" })
      (.shutdown _ _ (.ok ()) (.done _)))
  have stored :
      Performed (Deed.perform (.submit ⟨0⟩ {} { name := "give" } {})) (world (ended 1) 1 []) _ ()
        (world (live ⟨1⟩ 2) 2 [1]) :=
    .launch _ _ _ (.ok ⟨1⟩) (.send _ _ _ _ (.ok ()) (.send _ _ _ _ (.ok ()) (.send _ _ _ _ (.ok ())
      (.send _ _ _ _ (.ok ()) (.receive _ _ _ (.ok .completed) (.receive _ _ _
        (.ok (.status none)) (.send _ _ _ _ (.ok ()) (.receive _ _ _
          (.ok (.outputShape .distributed)) (.receive _ _ _
            (.ok (.partitionMeta (some (.ofBatch part)))) (.done _))))))))))
  have fetched :
      Performed (Deed.perform (.fetch (handle 0 2 1))) (world (live ⟨1⟩ 2) 2 [1]) _ ()
        (world (live ⟨1⟩ 2) 2 [1]) :=
    .send _ _ _ _ (.ok ()) (.send _ _ _ _ (.ok ()) (.receive _ _ _
      (.ok (.partition (some part))) (.done _)))
  have freed :
      Performed (Deed.perform (.release (handle 0 2 1))) (world (live ⟨1⟩ 2) 2 [1]) _ ()
        (world (live ⟨1⟩ 2) 2 [0]) :=
    .send _ _ _ _ (.ok ()) (.send _ _ _ _ (.ok ()) (.done _))
  have reset :
      Performed (Deed.perform (.reset ⟨0⟩)) (world (live ⟨1⟩ 2) 2 [0]) _ ()
        (world (ended 2) 2 [0]) :=
    .send _ _ _ _ (.ok ()) (.shutdown _ _ (.ok ()) (.done _))
  have again :
      Performed (Deed.perform (.submit ⟨0⟩ {} { name := "give" } {})) (world (ended 2) 2 [0]) _ ()
        last :=
    .launch _ _ _ (.ok ⟨2⟩) (.send _ _ _ _ (.ok ()) (.send _ _ _ _ (.ok ()) (.send _ _ _ _ (.ok ())
      (.send _ _ _ _ (.ok ()) (.receive _ _ _ (.ok .completed) (.receive _ _ _
        (.ok (.status none)) (.send _ _ _ _ (.ok ()) (.receive _ _ _
          (.ok (.outputShape .distributed)) (.receive _ _ _
            (.ok (.partitionMeta (some (.ofBatch part)))) (.done _))))))))))
  exact .cons _ created (.cons _ failed (.cons _ stored (.cons _ fetched (.cons _ freed
    (.cons _ reset (.cons _ again (.nil _)))))))

/-- The result of the live group can be fetched. -/
theorem fetches :
    Performed (handle 1 3 2).gather.run last (fetching ⟨2⟩ (handle 1 3 2)) (.ok part) last :=
  .send _ _ _ _ (.ok ()) (.send _ _ _ _ (.ok ()) (.receive _ _ _
    (.ok (.partition (some part))) (.done _)))

/-- The result of the group before it cannot be fetched, and no worker is asked for it. -/
theorem refuses :
    Performed (handle 0 2 1).gather.run last [] (.error (.failed (Handle.ofEndedGroup 2))) last :=
  .done _

end Deeds.successors

/-- The groups of these deeds follow each other as they should. In the end the result of the live
group is fetched from it, and that of the group before it is not. -/
theorem Deeds.successors_in_order :
    ({} : World).spawners = [] ∧ Deeds {} successors successors.last ∧
      (∃ stages, Passes {} stages successors.last ∧
        inquiriesOf stages = successors.flatMap Prod.snd ∧
        SpawnerId.IsOrderly ⟨0⟩ stages successors.last) ∧
      (successors.handle 1 3 2).IsFetched successors.last
        (successors.fetching ⟨2⟩ (successors.handle 1 3 2)) (.ok successors.part) ∧
      (successors.handle 0 2 1).IsFetched successors.last []
        (.error (.failed (Handle.ofEndedGroup 2))) := by
  obtain ⟨⟨stages, passes, same⟩, orderly, fetched⟩ :=
    Deeds.generations_in_order rfl successors.done
  exact ⟨rfl, successors.done, ⟨stages, passes, same, orderly stages passes ⟨0⟩⟩,
    fetched _ _ _ _ successors.fetches, fetched _ _ _ _ successors.refuses⟩

end Rankwise
