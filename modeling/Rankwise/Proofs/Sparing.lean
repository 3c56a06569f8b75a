import Rankwise.Proofs.Turns

/-!
# What is done with one spawner spares the others

Whatever is put together from parts that concern one spawner (`Within`) leaves the records of all
other spawners as they are, and so the workers of all groups but the live one of that spawner; a
group that it starts is a new one (`SpawnerId.Spares`). It follows from what a part does to its
spawner: all that is asked of the outside is asked over the connection to the live group, or starts
a group (`Turn.asks`), and workers that act at once go on only when they are asked
(`Fleet.answers_along`).
-/

namespace Rankwise

/-! Answers of the outside. -/

/-- The outside gives these answers, one after the other. -/
inductive Outside.Answers {σ : Type} (outside : Outside σ) : σ → Transcript → σ → Prop
  | nil (state : σ) : outside.Answers state [] state
  | launch (spawner : SpawnerId) (request : LaunchRequest) {state middle last : σ}
      {answer : Except Failure Link} {transcript : Transcript}
      (answered : outside.launch spawner request state = some (answer, middle))
      (later : outside.Answers middle transcript last) :
      outside.Answers state (.launch spawner request answer :: transcript) last
  | send (link : Link) (rank : Nat) (message : Message) {state middle last : σ}
      {answer : Except Failure Unit} {transcript : Transcript}
      (answered : outside.send link rank message state = some (answer, middle))
      (later : outside.Answers middle transcript last) :
      outside.Answers state (.send link rank message answer :: transcript) last
  | receive (link : Link) (rank : Nat) {state middle last : σ} {answer : Except Failure Message}
      {transcript : Transcript} (answered : outside.receive link rank state = some (answer, middle))
      (later : outside.Answers middle transcript last) :
      outside.Answers state (.receive link rank answer :: transcript) last
  | shutdown (link : Link) {state middle last : σ} {answer : Except Failure Unit}
      {transcript : Transcript} (answered : outside.shutdown link state = some (answer, middle))
      (later : outside.Answers middle transcript last) :
      outside.Answers state (.shutdown link answer :: transcript) last

/-- A run is told by a transcript of the answers. -/
theorem Dialogue.conducted_of_run {σ α : Type} (outside : Outside σ) (dialogue : Dialogue α)
    (state last : σ) (value : α) (ends : dialogue.run outside state = some (value, last)) :
    ∃ transcript, dialogue.Conducted transcript value ∧ outside.Answers state transcript last := by
  induction dialogue generalizing state with
  | done result =>
    obtain ⟨rfl, rfl⟩ := Prod.mk.inj (Option.some.inj ends)
    exact ⟨[], .done _, .nil _⟩
  | launch spawner request next inductionHypothesis =>
    obtain ⟨⟨answer, middle⟩, answered, goesOn⟩ := Option.bind_eq_some_iff.mp ends
    obtain ⟨transcript, conducted, answers⟩ := inductionHypothesis answer middle goesOn
    exact ⟨_, .launch _ _ _ answer conducted, .launch _ _ answered answers⟩
  | send link rank message next inductionHypothesis =>
    obtain ⟨⟨answer, middle⟩, answered, goesOn⟩ := Option.bind_eq_some_iff.mp ends
    obtain ⟨transcript, conducted, answers⟩ := inductionHypothesis answer middle goesOn
    exact ⟨_, .send _ _ _ _ answer conducted, .send _ _ _ answered answers⟩
  | receive link rank next inductionHypothesis =>
    obtain ⟨⟨answer, middle⟩, answered, goesOn⟩ := Option.bind_eq_some_iff.mp ends
    obtain ⟨transcript, conducted, answers⟩ := inductionHypothesis answer middle goesOn
    exact ⟨_, .receive _ _ _ answer conducted, .receive _ _ answered answers⟩
  | shutdown link next inductionHypothesis =>
    obtain ⟨⟨answer, middle⟩, answered, goesOn⟩ := Option.bind_eq_some_iff.mp ends
    obtain ⟨transcript, conducted, answers⟩ := inductionHypothesis answer middle goesOn
    exact ⟨_, .shutdown _ _ answer conducted, .shutdown _ answered answers⟩

/-- What acts against the fleet is performed with some transcript that the fleet answers. -/
theorem Acts.performed {α : Type} {acting : Acting α} {world later : World} {fleet last : Fleet}
    {value : α} (acts : Acts acting world fleet value later last) :
    ∃ transcript, Performed acting world transcript value later ∧
      Fleet.outside.Answers fleet transcript last :=
  Dialogue.conducted_of_run Fleet.outside _ fleet last (value, later) acts

namespace Inquiry

/-- What is asked is asked of the workers behind a link. -/
def IsAlong (link : Link) : Inquiry → Prop
  | launch _ _ _ => False
  | send along _ _ _ | receive along _ _ | shutdown along _ => along = link

/-- To talk over a link is to ask the workers behind it. -/
theorem IsTalk.isAlong {may : Message → Prop} {link : Link} {inquiry : Inquiry}
    (talks : inquiry.IsTalk may link) : inquiry.IsAlong link := by
  cases inquiry with
  | launch spawner request answer => exact talks
  | send along rank message answer => exact talks.1
  | receive along rank answer => exact talks
  | shutdown along answer => cases talks

end Inquiry

namespace Fleet

/-- Only the workers behind one link have gone on. -/
structure GoesOnAlong (link : Link) (fleet last : Fleet) : Prop where
  sizes : last.sizes = fleet.sizes
  registered : last.registry = fleet.registry
  lines : ∀ other, other ≠ link → last.line other = fleet.line other

/-- Workers behind the same link go on twice. -/
theorem GoesOnAlong.trans {link : Link} {fleet between last : Fleet}
    (first : GoesOnAlong link fleet between) (second : GoesOnAlong link between last) :
    GoesOnAlong link fleet last where
  sizes := second.sizes.trans first.sizes
  registered := second.registered.trans first.registered
  lines other apart := (second.lines other apart).trans (first.lines other apart)

/-- To change the line of one rank is to go on along its link. -/
theorem goesOnAlong_change (fleet : Fleet) (link : Link) (rank : Nat) (update : Line → Line) :
    GoesOnAlong link fleet (fleet.change link rank update) :=
  ⟨rfl, rfl, fun _ apart => Function.update_of_ne apart _ _⟩

/-- So is it to change the lines of all ranks. -/
theorem goesOnAlong_changeAll (fleet : Fleet) (link : Link) (update : Nat → Line → Line) :
    GoesOnAlong link fleet (fleet.changeAll link update) :=
  ⟨rfl, rfl, fun _ apart => Function.update_of_ne apart _ _⟩

variable {fleet last : Fleet} {transcript : Transcript}

/-- Workers of which nothing is asked stay as they are. -/
theorem answers_along (link : Link) (answers : outside.Answers fleet transcript last)
    (along : ∀ inquiry ∈ transcript, inquiry.IsAlong link) : GoesOnAlong link fleet last := by
  induction answers with
  | nil fleet => exact ⟨rfl, rfl, fun _ _ => rfl⟩
  | launch spawner request _ _ _ => cases (List.forall_mem_cons.mp along).1
  | send through rank message answered _ inductionHypothesis =>
    obtain ⟨here, others⟩ := List.forall_mem_cons.mp along
    obtain rfl : through = link := here
    refine GoesOnAlong.trans ?_ (inductionHypothesis others)
    simp only [outside] at answered
    split at answered
    · obtain ⟨-, rfl⟩ := Prod.mk.inj (Option.some.inj answered)
      exact goesOnAlong_change _ _ _ _
    · obtain ⟨-, rfl⟩ := Prod.mk.inj (Option.some.inj answered)
      exact ⟨rfl, rfl, fun _ _ => rfl⟩
  | receive through rank answered _ inductionHypothesis =>
    obtain ⟨here, others⟩ := List.forall_mem_cons.mp along
    obtain rfl : through = link := here
    refine GoesOnAlong.trans ?_ (inductionHypothesis others)
    simp only [outside] at answered
    split at answered
    · split at answered
      · cases answered
      · obtain ⟨-, rfl⟩ := Prod.mk.inj (Option.some.inj answered)
        exact goesOnAlong_change _ _ _ _
    · obtain ⟨-, rfl⟩ := Prod.mk.inj (Option.some.inj answered)
      exact ⟨rfl, rfl, fun _ _ => rfl⟩
  | shutdown through answered _ inductionHypothesis =>
    obtain ⟨here, others⟩ := List.forall_mem_cons.mp along
    obtain rfl : through = link := here
    refine GoesOnAlong.trans ?_ (inductionHypothesis others)
    simp only [outside] at answered
    split at answered
    · cases answered
    · obtain ⟨-, rfl⟩ := Prod.mk.inj (Option.some.inj answered)
      exact goesOnAlong_changeAll _ _ _

/-- A launch goes well. -/
theorem answers_launch {spawner : SpawnerId} {request : LaunchRequest} {answer : Except Failure Link}
    (answers : outside.Answers fleet [.launch spawner request answer] last) :
    answer = .ok ⟨fleet.sizes.length⟩ ∧ last = fleet.launch request := by
  cases answers with
  | launch _ _ answered later =>
    obtain ⟨rfl, rfl⟩ := Prod.mk.inj (Option.some.inj answered)
    cases later
    exact ⟨rfl, rfl⟩

end Fleet

/-! What a turn asks for, and the group behind it. -/

/-- The same group at another time. -/
structure Group.Continues (before after : Group) : Prop where
  link : after.link = before.link
  size : after.size = before.size
  generation : after.generation = before.generation

/-- A group that goes on twice is the same group still. -/
theorem Group.Continues.trans {first second third : Group} (begun : first.Continues second)
    (ended : second.Continues third) : first.Continues third :=
  ⟨ended.link.trans begun.link, ended.size.trans begun.size, ended.generation.trans begun.generation⟩

namespace Turn

variable {id : SpawnerId} {spawner last : Spawner} {part : Part} {transcript : Transcript}

/-- Either a group is launched, or all that is asked is asked of the live group. -/
theorem asks (turn : Turn id spawner part transcript last) :
    (∃ request answer, transcript = [.launch id request answer]) ∨
      ∀ inquiry ∈ transcript, ∃ group, spawner.group? = some group ∧ inquiry.IsAlong group.link := by
  have along {told : Transcript} {group : Group} {closed : Except Failure Unit}
      (live : spawner.group? = some group)
      (talks : ∀ inquiry ∈ told, inquiry.IsTalk Message.InEnding group.link) :
      ∀ inquiry ∈ told ++ [.shutdown group.link closed],
        ∃ group, spawner.group? = some group ∧ inquiry.IsAlong group.link := by
    intro inquiry member
    refine ⟨group, live, ?_⟩
    rcases List.mem_append.mp member with early | final
    · exact (talks inquiry early).isAlong
    · obtain rfl := List.mem_singleton.mp final
      rfl
  cases turn with
  | quiet => exact .inr (List.forall_mem_nil _)
  | refused _ _ _ failed =>
    obtain rfl | ⟨request, failure, rfl⟩ := failed
    · exact .inr (List.forall_mem_nil _)
    · exact .inl ⟨request, .error failure, rfl⟩
  | launched request link => exact .inl ⟨request, .ok link, rfl⟩
  | talked _ _ group _ live _ talks =>
    exact .inr fun inquiry member => ⟨group, live, (talks inquiry member).isAlong⟩
  | ended _ group _ _ _ live _ talks => exact .inr (along live talks)
  | left group _ _ _ live talks => exact .inr (along live talks)

/-- A live group is the one that was live before, or it was launched in this turn. -/
theorem group_cases (turn : Turn id spawner part transcript last) {group : Group}
    (live : last.group? = some group) :
    (∃ before, spawner.group? = some before ∧ before.Continues group) ∨
      ∃ request, transcript = [.launch id request (.ok group.link)] ∧
        group.generation = spawner.lastGeneration + 1 := by
  cases turn with
  | quiet _ pending owners kept gone _ =>
    exact .inl ⟨group, (group?_quiet pending owners kept gone).symm.trans live, rfl, rfl, rfl⟩
  | refused _ there absent _ => cases (group?_refused absent _).symm.trans live
  | launched request link there _ =>
    obtain rfl := Option.some.inj ((group?_live there _ _ _ _).symm.trans live)
    exact .inr ⟨request, rfl, rfl⟩
  | talked _ _ before pending running _ _ =>
    obtain ⟨there, -⟩ := Spawner.group?_eq_some.mp running
    obtain rfl := Option.some.inj ((group?_live there _ _ _ _).symm.trans live)
    exact .inl ⟨before, running, rfl, rfl, rfl⟩
  | ended _ _ _ _ pending _ _ _ => cases (group?_ended pending).symm.trans live
  | left _ after _ _ _ _ => cases live

end Turn

/-! Sparing. -/

/-- What was done concerns one spawner only, and only shares of certain handles were changed. -/
structure SpawnerId.Spares (id : SpawnerId) (touches : Nat → Prop) (world : World) (fleet : Fleet)
    (later : World) (last : Fleet) : Prop where
  keeps : World.Keeps touches world later
  records : ∀ other, other ≠ id → later.record? other = world.record? other
  /-- The spawner is still there, and generations that were used up stay used up. -/
  passed : ∀ spawner, world.record? id = some spawner → ∃ after, later.record? id = some after ∧
    spawner.lastGeneration ≤ after.lastGeneration
  /-- A live group is the one that was live before or a new one. -/
  groups : ∀ group, later.group? id = some group →
    (∃ before, world.group? id = some before ∧ before.Continues group) ∨
      fleet.sizes.length ≤ group.link.index ∧ ∀ spawner, world.record? id = some spawner →
        spawner.lastGeneration < group.generation
  registered : last.registry = fleet.registry
  sizes : fleet.sizes <+: last.sizes
  /-- Workers go on only if they are in the live group. -/
  lines : ∀ link : Link, link.index < fleet.sizes.length →
    (∀ group, world.group? id = some group → group.link ≠ link) → last.line link = fleet.line link

namespace SpawnerId.Spares

variable {id : SpawnerId} {touches : Nat → Prop} {world middle later : World}
  {fleet between last : Fleet}

/-- What changes no spawner spares them all. -/
theorem of_besides (kept : World.Besides touches world later) :
    id.Spares touches world fleet later fleet := by
  have same (other : SpawnerId) : later.record? other = world.record? other := by
    rw [World.record?, World.record?, kept.spawners]
  have live : later.group? id = world.group? id := by
    rw [World.group?_eq_bind, World.group?_eq_bind, same]
  exact {
    keeps := kept.toKeeps
    records := fun other _ => same other
    passed := fun spawner found => ⟨spawner, (same id).trans found, Nat.le_refl _⟩
    groups := fun group running => .inl ⟨group, live.symm.trans running, rfl, rfl, rfl⟩
    registered := rfl
    sizes := List.prefix_refl _
    lines := fun _ _ _ => rfl }

/-- More shares may be changed. -/
theorem mono {wider : Nat → Prop} (spares : id.Spares touches world fleet later last)
    (weaker : ∀ key, touches key → wider key) : id.Spares wider world fleet later last where
  keeps := {
    tables := spares.keeps.tables
    calls := spares.keeps.calls
    keys := spares.keeps.keys
    shares := fun key inside free =>
      spares.keeps.shares key inside fun touched => free (weaker key touched) }
  records := spares.records
  passed := spares.passed
  groups := spares.groups
  registered := spares.registered
  sizes := spares.sizes
  lines := spares.lines

/-- What is spared in two steps is spared. -/
theorem trans (first : id.Spares touches world fleet middle between)
    (second : id.Spares touches middle between later last) :
    id.Spares touches world fleet later last where
  keeps := first.keeps.trans second.keeps
  records other apart := (second.records other apart).trans (first.records other apart)
  passed spawner found := by
    obtain ⟨_, found, le⟩ := first.passed spawner found
    obtain ⟨after, found, leToo⟩ := second.passed _ found
    exact ⟨after, found, le.trans leToo⟩
  groups group live := by
    rcases second.groups group live with ⟨before, running, continues⟩ | ⟨new, newer⟩
    · rcases first.groups before running with ⟨earlier, running, begun⟩ | ⟨new, newer⟩
      · exact .inl ⟨earlier, running, begun.trans continues⟩
      · exact .inr ⟨continues.link ▸ new, continues.generation ▸ newer⟩
    · refine .inr ⟨first.sizes.length_le.trans new, fun spawner found => ?_⟩
      obtain ⟨after, found, le⟩ := first.passed spawner found
      exact le.trans_lt (newer after found)
  registered := second.registered.trans first.registered
  sizes := first.sizes.trans second.sizes
  lines link inside apart := by
    refine (second.lines link (inside.trans_le first.sizes.length_le) ?_).trans
      (first.lines link inside apart)
    rintro group live rfl
    rcases first.groups group live with ⟨before, running, continues⟩ | ⟨new, -⟩
    · exact apart before running continues.link.symm
    · exact absurd inside (Nat.not_lt.mpr new)

end SpawnerId.Spares

/-- What a part does to the record of its spawner is all that it does to the coordinator. -/
theorem World.keeps_put {touches : Nat → Prop} (world : World) (id : SpawnerId) (spawner : Spawner) :
    World.Keeps touches world (world.put id spawner) :=
  ⟨rfl, Nat.le_refl _, Nat.le_refl _, fun _ _ _ => rfl⟩

namespace Part

variable {id : SpawnerId} {touches : Nat → Prop} {world later : World} {fleet last : Fleet}
  {spawner : Spawner}

/-- A part spares all spawners but its own. -/
theorem spares (part : Part) (found : world.record? id = some spawner) (steady : spawner.IsSteady)
    (acts : Acts (part.perform id) world fleet () later last) :
    id.Spares touches world fleet later last ∧
      ∃ after, later.record? id = some after ∧ after.IsSteady := by
  obtain ⟨transcript, performed, answers⟩ := acts.performed
  obtain ⟨after, turn, rfl⟩ := part.turn performed found steady
  have foundThen := World.record?_put found after
  have live := World.group?_of_record found
  have liveThen := World.group?_of_record foundThen
  have sparing (registered : last.registry = fleet.registry) (sizes : fleet.sizes <+: last.sizes)
      (lines : ∀ link : Link, link.index < fleet.sizes.length →
        (∀ group, world.group? id = some group → group.link ≠ link) →
          last.line link = fleet.line link)
      (new : ∀ request link, transcript = [.launch id request (.ok link)] →
        fleet.sizes.length ≤ link.index) : id.Spares touches world fleet (world.put id after) last := {
    keeps := world.keeps_put id after
    records := fun _ apart => World.record?_put_of_ne after apart
    passed := fun before there => by
      obtain rfl := Option.some.inj (there.symm.trans found)
      exact ⟨after, foundThen, turn.lastGeneration_le⟩
    groups := fun group running => by
      rcases turn.group_cases (liveThen.symm.trans running) with
        ⟨before, there, continues⟩ | ⟨request, launched, newer⟩
      · exact .inl ⟨before, live.trans there, continues⟩
      · refine .inr ⟨new request group.link launched, fun before there => ?_⟩
        obtain rfl := Option.some.inj (there.symm.trans found)
        exact newer ▸ Nat.lt_succ_self _
    registered
    sizes
    lines }
  refine ⟨?_, after, foundThen, turn.steady steady⟩
  -- A turn launches a new group, behind a new link, or it talks along the link of its own group.
  rcases turn.asks with ⟨request, answer, rfl⟩ | along
  · obtain ⟨rfl, rfl⟩ := Fleet.answers_launch answers
    refine sparing rfl (List.prefix_append _ _) (fun link inside _ => ?_) fun _ link launched => ?_
    · refine Function.update_of_ne ?_ _ _
      rintro rfl
      exact Nat.lt_irrefl _ inside
    · obtain ⟨-, -, same⟩ := Inquiry.launch.inj (List.singleton_inj.mp launched)
      obtain rfl := Except.ok.inj same
      exact Nat.le_refl _
  · have nothing (request : LaunchRequest) (link : Link)
        (launched : transcript = [.launch id request (.ok link)]) : fleet.sizes.length ≤ link.index := by
      obtain ⟨group, -, impossible⟩ := along _ (launched ▸ List.mem_singleton_self _)
      cases impossible
    cases running : spawner.group? with
    | none =>
      have silent : transcript = [] := List.eq_nil_iff_forall_not_mem.mpr fun inquiry member => by
        obtain ⟨group, there, -⟩ := along inquiry member
        cases running.symm.trans there
      subst silent
      cases answers
      exact sparing rfl (List.prefix_refl _) (fun _ _ _ => rfl) nothing
    | some group =>
      have goes := Fleet.answers_along group.link answers fun inquiry member => by
        obtain ⟨other, there, here⟩ := along inquiry member
        obtain rfl := Option.some.inj (running.symm.trans there)
        exact here
      refine sparing goes.registered (goes.sizes ▸ List.prefix_refl _) (fun link _ apart => ?_) nothing
      exact goes.lines link fun same => apart group (live.trans running) same.symm

end Part

/-- What stays within the bounds of one spawner spares all others. -/
theorem Within.spares {α : Type} {id : SpawnerId} {touches : Nat → Prop} {acting : Acting α}
    (within : Within (· = id) touches acting) {world later : World} {fleet last : Fleet}
    {spawner : Spawner} {value : α} (found : world.record? id = some spawner)
    (steady : spawner.IsSteady) (acts : Acts acting world fleet value later last) :
    id.Spares touches world fleet later last ∧
      ∃ after, later.record? id = some after ∧ after.IsSteady := by
  induction within generalizing world later fleet last spawner with
  | bind _ _ first second =>
    obtain ⟨value, middle, between, begun, ended⟩ := acts.of_bind
    obtain ⟨sparesFirst, _, foundThen, steadyThen⟩ := first found steady begun
    obtain ⟨sparesThen, after⟩ := second value foundThen steadyThen ended
    exact ⟨sparesFirst.trans sparesThen, after⟩
  | besides make kept =>
    obtain ⟨same, rfl⟩ := Prod.mk.inj (Option.some.inj acts)
    obtain rfl : (make world).2 = later := congrArg Prod.snd same
    have sparing : id.Spares touches world fleet (make world).2 fleet := .of_besides (kept world)
    refine ⟨sparing, spawner, ?_, steady⟩
    rw [World.record?, (kept world).spawners]
    exact found
  | part own concerned part acting same =>
    obtain rfl : own = id := concerned
    have done : Acts (part.perform own) world fleet () later last := by
      rw [same]
      exact Acts.bind acts (Acts.pure () later last)
    exact part.spares found steady done

end Rankwise
