import Rankwise.Proofs.Generations

/-!
# Whether the live group can be used

A spawner notes the generation of its live group, and whether a result is said to be live depends on
this note alone. The note is right as far as it goes: there is a live group of the generation that
is noted, and it was not ended. But its connection may have failed. Calls, and fetching from the
live group, retire a group whose connection has failed before they return. Where results are freed
outside of a call this is not seen to: then a group that cannot be used any more stays noted, and
the next call is refused and does no more than to retire it.

Main statement (`Deeds.live_generation_exact`): this is the only way in which it comes about, over
every run of what clients do, whatever the outside answers.
-/

namespace Rankwise

/-! What is done with a group that can no longer be used. -/

namespace Group

variable {group : Group}

/-- A group that cannot be used refuses a call before anything is sent. -/
theorem submit_unusable (unusable : group.isUnusable = true) (isLive : Handle → Bool)
    (surroundings : List (String × String)) (call : CallId) (computation : Computation)
    (arguments : CallArguments) :
    (submit isLive surroundings call computation arguments).run group = .done
      ({ arguments, outcome := .error { failure := Group.unusable group.generation } }, group) :=
  congrArg (fun dialogue => Dialogue.bind dialogue _) (ensureUsable_unusable unusable)

/-- A group that cannot be used frees nothing. -/
theorem freeOwn_unusable (unusable : group.isUnusable = true) (entry : Nat × ResultId) :
    (freeOwn entry).run group = .done ((), group) := by
  have cases : (freeOwn entry).run group = (if entry.1 = group.generation then do
      let _ ← (deleteResult entry.2).run
    else Pure.pure () : StateT Group Dialogue Unit).run group := rfl
  rw [cases]
  split
  · have refused : (deleteResult entry.2).run.run group =
        .done (.error (Group.unusable group.generation), group) :=
      congrArg (fun dialogue => Dialogue.bind dialogue _) (ensureUsable_unusable unusable)
    exact congrArg (fun dialogue => Dialogue.bind dialogue _) refused
  · rfl

/-- So it does with all that waits to be freed. -/
theorem frees_unusable (unusable : group.isUnusable = true) (pending : List (Nat × ResultId)) :
    (pending.forM freeOwn).run group = .done ((), group) := by
  induction pending with
  | nil => rfl
  | cons entry rest inductionHypothesis =>
    have split : ((entry :: rest).forM freeOwn).run group =
        ((freeOwn entry).run group).bind fun reached => (rest.forM freeOwn).run reached.2 := rfl
    rw [split, freeOwn_unusable unusable]
    exact inductionHypothesis

end Group

namespace SpawnerId

variable (id : SpawnerId)

/-- Whether talk with the group of the spawner has failed since it was last seen to that no group is
left that cannot be used any more. -/
def unsettled (stages : List Stage) : Bool :=
  (id.own stages).foldl (fun failed stage =>
    !stage.part.settles && (failed || stage.inquiries.any Inquiry.breaks)) false

end SpawnerId

namespace Stage

variable {stage : Stage}

/-- Where a group is retired that cannot be used any more, none is left. -/
theorem usable (performed : stage.IsPerformed) (steady : stage.before.IsSteady)
    (settles : stage.part.settles = true) (group : Group)
    (live : stage.after.group? stage.id = some group) : group.isUnusable = false := by
  obtain ⟨absent, -, same⟩ | ⟨spawner, last, found, turn, same⟩ := stage.turns performed steady
  · rw [World.group?_eq_bind, same, absent] at live
    cases live
  · rw [same, World.group?_of_record (World.record?_put found last)] at live
    obtain ⟨there, -⟩ := Spawner.group?_eq_some.mp live
    have settled := turn.isUnusable there
    rwa [live, settles] at settled

end Stage

namespace Passes

variable {world last : World} {stages : List Stage}

/-- A spawner that is gone does not come back. -/
theorem gone (passes : Passes world stages last) (before : world.IsSteady) (id : SpawnerId)
    (spawner : Spawner) (found : world.record? id = some spawner)
    (absent : spawner.exists? = false) : last.spawner? id = none := by
  induction passes generalizing spawner with
  | nil world =>
    show (world.record? id).filter Spawner.exists? = none
    rw [found]
    simp [Option.filter, absent]
  | part stage performed _ inductionHypothesis =>
    by_cases own : stage.id = id
    · subst own
      obtain ⟨none, -, -⟩ | ⟨known, after, recorded, turn, same⟩ := stage.turns performed before
      · cases none.symm.trans found
      · obtain rfl := Option.some.inj (recorded.symm.trans found)
        refine inductionHypothesis (stage.steady performed before) after ?_ (turn.gone absent)
        rw [same, World.record?_put recorded after]
    · exact inductionHypothesis (stage.steady performed before) spawner
        ((stage.record?_of_ne performed before (Ne.symm own)).trans found) absent
  | besides world middle same _ inductionHypothesis =>
    exact inductionHypothesis (fun id spawner found =>
      before id spawner ((World.record?_of_spawners same).symm.trans found)) spawner
        ((World.record?_of_spawners same).trans found) absent
  | create world options _ inductionHypothesis =>
    refine inductionHypothesis (World.steady_create before options) spawner ?_ absent
    rcases World.record?_create world id options with same | ⟨none, -⟩
    · exact same.trans found
    · cases none.symm.trans found

/-- There is a live group that can no longer be used exactly if talk with it has failed and this was
not seen to since. -/
theorem isUnusable (passes : Passes world stages last) (before : world.IsSteady) (id : SpawnerId)
    (present : last.spawner? id ≠ none) :
    (last.group? id).any Group.isUnusable = (id.own stages).foldl (fun failed stage =>
      !stage.part.settles && (failed || stage.inquiries.any Inquiry.breaks))
        ((world.group? id).any Group.isUnusable) := by
  -- Stage by stage. Those of other spawners leave the live group as it is.
  induction passes with
  | nil world => rfl
  | part stage performed later inductionHypothesis =>
    have steady := stage.steady performed before
    have rest := inductionHypothesis steady present
    by_cases own : stage.id = id
    · subst own
      rw [SpawnerId.own, List.filter_cons_of_pos (by simp), List.foldl_cons]
      refine rest.trans (congrArg (List.foldl _ · _) ?_)
      obtain ⟨absent, silent, same⟩ | ⟨spawner, after, found, turn, same⟩ :=
        stage.turns performed before
      · rw [same, silent, World.group?_eq_bind, absent]
        simp
      · have recorded : stage.after.record? stage.id = some after := by
          rw [same, World.record?_put found after]
        rw [World.group?_of_record recorded, World.group?_of_record found]
        apply turn.isUnusable
        cases there : after.exists? with
        | true => rfl
        | false => exact absurd (later.gone steady stage.id after recorded there) present
    · have same : stage.after.group? id = stage.before.group? id := by
        rw [World.group?_eq_bind, World.group?_eq_bind,
          stage.record?_of_ne performed before (Ne.symm own)]
      rw [SpawnerId.own, List.filter_cons_of_neg (by simpa using own), ← same]
      exact rest
  | besides world middle same _ inductionHypothesis =>
    have group : middle.group? id = world.group? id := by
      rw [World.group?_eq_bind, World.group?_eq_bind, World.record?_of_spawners same]
    rw [← group]
    exact inductionHypothesis (fun id spawner found =>
      before id spawner ((World.record?_of_spawners same).symm.trans found)) present
  | create world options _ inductionHypothesis =>
    rw [← World.group?_create world id options]
    exact inductionHypothesis (World.steady_create before options) present

end Passes

/-! What is seen to by the deeds of clients. -/

/-- No group is left that cannot be used any more. -/
def World.IsUsable (world : World) (id : SpawnerId) : Prop :=
  ∀ group, world.group? id = some group → group.isUnusable = false

namespace Performed

variable {world later : World} {transcript : Transcript}

/-- To give up shares while the group is in use asks for nothing and leaves all groups as they are.
-/
theorem of_abandon {handles : List Handle}
    (performed : Performed (handles.forM Handle.abandon) world transcript () later) :
    transcript = [] ∧ ∀ id, later.group? id = world.group? id := by
  induction handles generalizing world transcript with
  | nil =>
    obtain ⟨rfl, -, rfl⟩ := Dialogue.Conducted.of_done performed
    exact ⟨rfl, fun _ => rfl⟩
  | cons handle rest inductionHypothesis =>
    obtain ⟨first, _, middle, second, rfl, begun, ended⟩ :=
      (bind_iff handle.abandon (fun _ => rest.forM Handle.abandon) ()).mp performed
    unfold Performed at begun
    rw [handle.run_abandon] at begun
    obtain ⟨rfl, -, rfl⟩ := Dialogue.Conducted.of_done begun
    obtain ⟨rfl, kept⟩ := inductionHypothesis ended
    exact ⟨rfl, fun id => (kept id).trans (world.group?_abandoned handle id)⟩

/-- A coordinator that goes on after a part that may fail. -/
theorem of_bind {α β : Type} (acting : Coordinating α) (continuation : α → Coordinating β)
    {result : Except Stop β}
    (performed : Performed (acting >>= continuation).run world transcript result later) :
    (∃ stop, result = .error stop ∧ Performed acting.run world transcript (.error stop) later) ∨
      ∃ first value middle second, transcript = first ++ second ∧
        Performed acting.run world first (.ok value) middle ∧
        Performed (continuation value).run middle second result later := by
  unfold Performed at performed
  rw [Coordinating.run_bind] at performed
  obtain ⟨first, ⟨answer, middle⟩, second, rfl, begun, ended⟩ :=
    (Dialogue.conducted_bind _ _ _ _).mp performed
  cases answer with
  | ok value => exact .inr ⟨first, value, middle, second, rfl, begun, ended⟩
  | error stop =>
    obtain ⟨rfl, rfl, rfl⟩ := Dialogue.Conducted.of_done ended
    exact .inl ⟨stop, rfl, (List.append_nil first).symm ▸ begun⟩

/-- What cannot fail was performed with some value. -/
theorem of_lift {α : Type} {acting : Acting α} {result : Except Stop α}
    (performed : Performed (liftM acting : Coordinating α).run world transcript result later) :
    ∃ value, result = .ok value ∧ Performed acting world transcript value later := by
  obtain ⟨first, value, middle, second, rfl, begun, ended⟩ :=
    (bind_iff acting (fun value => (Pure.pure (.ok value) : Acting (Except Stop α))) result).mp
      performed
  obtain ⟨rfl, rfl, rfl⟩ := Dialogue.Conducted.of_done ended
  exact ⟨value, rfl, (List.append_nil first).symm ▸ begun⟩

end Performed

namespace InParts

/-- What goes on in parts leaves a world steady. -/
theorem steady {α : Type} {acting : Acting α} (inParts : InParts acting) {world later : World}
    {transcript : Transcript} {value : α} (before : world.IsSteady)
    (performed : Performed acting world transcript value later) : later.IsSteady := by
  obtain ⟨stages, passes, -⟩ := inParts.passes performed
  exact passes.steady before

end InParts

namespace SpawnerId

variable {id : SpawnerId} {world later : World} {transcript : Transcript}

/-- Once what cannot be used was retired, the live group can be used. -/
theorem usable_retire (steady : world.IsSteady)
    (performed : Performed id.retireIfUnusable world transcript () later) : later.IsUsable id :=
  have retire : Stage.IsPerformed ⟨id, .retire, world, transcript, later⟩ := performed
  Stage.usable retire steady rfl

/-- Behind the preparation of a call: there is no group, or the call ends with retiring it if it
cannot be used any more. -/
theorem usable_perform (steady : world.IsSteady) {computation : Computation}
    {arguments : CallArguments} {result : Except Stop (CallArguments × Except Failure Answer)}
    (performed : Performed (id.perform computation arguments).run world transcript result later) :
    later.IsUsable id := by
  rw [perform_eq] at performed
  obtain ⟨_, read, reached, rest, rfl, counted, performed⟩ := (Performed.bind_iff _ _ _).mp performed
  obtain ⟨rfl, made⟩ := (Performed.silent_iff _ _).mp counted
  obtain ⟨same, once⟩ := Prod.mk.inj made
  obtain rfl : world = read := same.symm
  subst once
  unfold performing at performed
  cases live : world.group? id with
  | none =>
    rw [live] at performed
    obtain ⟨-, -, rfl⟩ := Dialogue.Conducted.of_done performed
    intro group running
    cases live.symm.trans running
  | some group =>
    rw [live] at performed
    obtain ⟨talking, told, middle, rest, rfl, talked, performed⟩ :=
      (Performed.bind_iff (id.talk (callTalk computation arguments world)) _ _).mp performed
    have onceSteady : world.counted.IsSteady := steady
    have between : middle.IsSteady :=
      (InParts.part id (.call world.isLive world.environment (.ofCounter world.calls) computation
        arguments) _ rfl).steady onceSteady talked
    obtain ⟨called, after, -, rfl, -⟩ := talked.of_talk live
    obtain ⟨concluding, _, _, _, rfl, concluded, performed⟩ :=
      (Performed.bind_iff (id.conclude group.generation called) _ _).mp performed
    obtain ⟨-, -, rfl⟩ := Dialogue.Conducted.of_done performed
    obtain ⟨answering, answer, answered, _, rfl, makes, performed⟩ :=
      (Performed.bind_iff (id.answer group.generation called) _ _).mp concluded
    obtain ⟨retiring, _, _, _, rfl, retired, performed⟩ :=
      (Performed.bind_iff id.retireIfUnusable _ _).mp performed
    obtain ⟨-, -, rfl⟩ := Dialogue.Conducted.of_done performed
    have answers := Within.anyway (id.within_answer trivial group.generation called)
    exact usable_retire (answers.steady between makes) retired

/-- Where no group could be made ready there is none. -/
theorem usable_ensureGroup {stop : Stop}
    (performed : Performed id.ensureGroup.run world transcript (.error stop) later) :
    later.IsUsable id := by
  unfold Performed at performed
  have idle (none : later.group? id = none) : later.IsUsable id := by
    intro group live
    cases none.symm.trans live
  cases found : world.spawner? id with
  | none =>
    have gone := id.run_ensureGroup_gone world found
    obtain ⟨-, -, rfl⟩ := Performed.of_done performed gone
    exact idle (by rw [World.group?_eq, found]; rfl)
  | some spawner =>
    cases live : world.group? id with
    | some group =>
      have stays := id.run_ensureGroup_live world group live
      cases (Performed.of_done performed stays).2.1
    | none =>
      have absent : (id.counted spawner world).group? id = none :=
        (id.group?_counted spawner world).trans live
      have launches := (id.run_ensureGroup_launch world spawner found live).trans
        (id.run_launch spawner world)
      cases workers : workers? spawner world with
      | error failure =>
        rw [workers] at launches
        obtain ⟨-, -, rfl⟩ := Performed.of_done performed launches
        exact idle absent
      | ok count =>
        rw [workers] at launches
        have asked :
            Dialogue.Conducted _ transcript ((.error stop, later) : Except Stop Unit × World) :=
          launches ▸ performed
        cases asked with
        | launch _ request _ reply rest =>
          cases reply with
          | error failure =>
            obtain ⟨-, -, rfl⟩ := Dialogue.Conducted.of_done rest
            exact idle absent
          | ok link =>
            obtain ⟨-, same⟩ := (Dialogue.conducted_done _ _ _).mp rest
            cases (Prod.mk.inj same).1

/-- How a group is made ready for a call, while shares are given up. -/
theorem prepareWhile_cases {meanwhile : Meanwhile} {result : Except Stop Unit}
    (performed : Performed (id.prepareWhile meanwhile).run world transcript result later) :
    (∃ stop, result = .error stop ∧
        Performed id.ensureGroup.run world transcript (.error stop) later) ∨
      result = .ok () ∧ ∃ ensuring freeing middle early freed, transcript = ensuring ++ freeing ∧
        Performed id.ensureGroup.run world ensuring (.ok ()) middle ∧
        Performed (meanwhile.early.forM Handle.abandon) middle [] () early ∧
        Performed id.flush early freeing () freed ∧
        Performed (meanwhile.late.forM Handle.abandon) freed [] () later := by
  obtain ⟨stop, same, ensured⟩ | ⟨ensuring, _, middle, rest, rfl, ensured, performed⟩ :=
    Performed.of_bind id.ensureGroup _ performed
  · exact .inl ⟨stop, same, ensured⟩
  · obtain ⟨abandoning, _, early, rest, rfl, abandoned, performed⟩ :=
      (Performed.lift_iff (meanwhile.early.forM Handle.abandon) _ _).mp performed
    obtain ⟨freeing, _, freed, rest, rfl, flushed, performed⟩ :=
      (Performed.lift_iff id.flush _ _).mp performed
    obtain ⟨_, rfl, abandonedToo⟩ := performed.of_lift
    obtain ⟨rfl, -⟩ := abandoned.of_abandon
    obtain ⟨rfl, -⟩ := abandonedToo.of_abandon
    rw [List.nil_append, List.append_nil]
    exact .inr ⟨rfl, ensuring, freeing, middle, early, freed, rfl, ensured, abandoned, flushed,
      abandonedToo⟩

/-- How a call goes, while shares are given up. -/
theorem submitWhile_cases {meanwhile : Meanwhile} {computation : Computation}
    {arguments : CallArguments} {result : Except Stop (CallArguments × Except Failure Answer)}
    (performed : Performed (id.submitWhile meanwhile computation arguments).run world transcript
      result later) :
    (∃ stop, result = .error stop ∧
        Performed id.ensureGroup.run world transcript (.error stop) later) ∨
      ∃ preparing performing ready last, transcript = preparing ++ performing ∧
        Performed (id.prepareWhile meanwhile).run world preparing (.ok ()) ready ∧
        Performed (id.perform computation arguments).run ready performing result last ∧
        ∀ id, later.group? id = last.group? id := by
  obtain ⟨stop, rfl, prepared⟩ | ⟨preparing, _, ready, rest, rfl, prepared, performed⟩ :=
    Performed.of_bind (id.prepareWhile meanwhile) _ performed
  · obtain ⟨_, same, ensured⟩ | ⟨same, -⟩ := prepareWhile_cases prepared
    · obtain rfl := Except.error.inj same
      exact .inl ⟨stop, rfl, ensured⟩
    · cases same
  · obtain ⟨stop, rfl, made⟩ | ⟨performing, value, last, rest, rfl, made, performed⟩ :=
      Performed.of_bind (id.perform computation arguments) _ performed
    · exact .inr ⟨preparing, rest, ready, later, rfl, prepared, made, fun _ => rfl⟩
    · obtain ⟨abandoning, _, _, silent, rfl, abandoned, ended⟩ :=
        (Performed.lift_iff (meanwhile.last.forM Handle.abandon) _ _).mp performed
      obtain ⟨rfl, kept⟩ := abandoned.of_abandon
      obtain ⟨rfl, rfl, rfl⟩ := Dialogue.Conducted.of_done ended
      rw [List.nil_append, List.append_nil]
      exact .inr ⟨preparing, performing, ready, last, rfl, prepared, made, kept⟩

/-- After a call no group is left that cannot be used any more. -/
theorem usable_submitWhile (steady : world.IsSteady) {meanwhile : Meanwhile}
    {computation : Computation} {arguments : CallArguments}
    {result : Except Stop (CallArguments × Except Failure Answer)}
    (performed : Performed (id.submitWhile meanwhile computation arguments).run world transcript
      result later) : later.IsUsable id := by
  obtain ⟨stop, -, ensured⟩ | ⟨_, _, ready, last, -, prepared, made, kept⟩ :=
    submitWhile_cases performed
  · exact usable_ensureGroup ensured
  · have prepares := Within.anyway
      (id.within_prepareWhile trivial meanwhile fun _ _ => ⟨trivial, trivial⟩)
    have usable := usable_perform (prepares.steady steady prepared) made
    intro group live
    exact usable group ((kept id).symm.trans live)

/-! A group that cannot be used any more stays until the next call. -/

/-- Nothing is freed in a group that cannot be used any more. -/
theorem unusable_flush {group : Group} (live : world.group? id = some group)
    (unusable : group.isUnusable = true) (performed : Performed id.flush world transcript () later) :
    transcript = [] ∧ later.group? id = some group := by
  obtain ⟨spawner, found, -⟩ := Option.bind_eq_some_iff.mp (World.group?_eq world id ▸ live)
  have flushed : Performed (do let _ ← id.talk (spawner.pending.forM Group.freeOwn)) (world.emptied id)
      transcript () later := by
    unfold Performed at performed
    rw [flush_cases, found] at performed
    exact performed
  obtain ⟨answer, talked⟩ := (Performed.discard_iff _).mp flushed
  have running := (world.group?_emptied id).trans live
  obtain ⟨_, after, conducted, -, rfl⟩ := talked.of_talk running
  rw [Group.frees_unusable unusable] at conducted
  obtain ⟨rfl, -, rfl⟩ := Dialogue.Conducted.of_done conducted
  exact ⟨rfl, World.group?_noted _ id after after running⟩

/-- A group that cannot be used any more is retired: its connection is closed. -/
theorem unusable_retire (steady : world.IsSteady) {group : Group}
    (live : world.group? id = some group) (unusable : group.isUnusable = true)
    (performed : Performed id.retireIfUnusable world transcript () later) :
    (∃ closed, transcript = [.shutdown group.link closed]) ∧ later.group? id = none := by
  obtain ⟨spawner, found, running⟩ := Option.bind_eq_some_iff.mp (World.group?_eq_bind ▸ live)
  have going := (steady id spawner found).going group running
  have broken : group.broken = true := by rwa [Group.isUnusable, going, Bool.false_or] at unusable
  unfold Performed at performed
  rw [id.run_retire_unusable world group live unusable] at performed
  obtain ⟨_, ⟨_, middle⟩, _, rfl, talked, ended⟩ := (Dialogue.conducted_bind _ _ _ _).mp performed
  obtain ⟨rfl, -, rfl⟩ := Dialogue.Conducted.of_done ended
  obtain ⟨value, after, conducted, -, rfl⟩ := Performed.of_talk talked live
  obtain ⟨told, closed, rfl, -, silent⟩ :=
    Group.conducted_finish group after going _ value conducted
  rw [silent broken, List.append_nil]
  exact ⟨⟨closed, rfl⟩, id.group?_destroyed _⟩

/-- Behind its preparation, a call is refused by a group that cannot be used any more. -/
theorem unusable_perform (steady : world.IsSteady) {group : Group}
    (live : world.group? id = some group) (unusable : group.isUnusable = true)
    {computation : Computation} {arguments : CallArguments}
    {result : Except Stop (CallArguments × Except Failure Answer)}
    (performed : Performed (id.perform computation arguments).run world transcript result later) :
    result = .ok (arguments, .error (Group.unusable group.generation)) ∧
      (∃ closed, transcript = [.shutdown group.link closed]) ∧ later.group? id = none := by
  have refused := Group.submit_unusable unusable world.isLive world.environment
    (.ofCounter world.calls) computation arguments
  have made := id.run_perform computation arguments world group live
  rw [callTalk, refused] at made
  have concluding : (id.perform computation arguments).run.run world =
      (id.retireIfUnusable.run (world.counted.noted id group)).bind fun reached =>
        .done (.ok (arguments, .error (Group.unusable group.generation)), reached.2) :=
    made.trans (Dialogue.bind_assoc (id.retireIfUnusable.run (world.counted.noted id group)) _ _)
  unfold Performed at performed
  rw [concluding] at performed
  obtain ⟨retiring, ⟨_, last⟩, _, rfl, retired, ended⟩ :=
    (Dialogue.conducted_bind _ _ _ _).mp performed
  obtain ⟨rfl, rfl, rfl⟩ := Dialogue.Conducted.of_done ended
  have steadyNoted : (world.counted.noted id group).IsSteady := by
    rw [World.noted_self world.counted id group live]
    exact steady
  rw [List.append_nil]
  exact ⟨rfl, unusable_retire steadyNoted (World.group?_noted world.counted id group group live)
    unusable retired⟩

/-- A call on a group that cannot be used any more is refused and does no more than to retire it. -/
theorem unusable_submitWhile (steady : world.IsSteady) {group : Group}
    (live : world.group? id = some group) (unusable : group.isUnusable = true) {meanwhile : Meanwhile}
    {computation : Computation} {arguments : CallArguments}
    {result : Except Stop (CallArguments × Except Failure Answer)}
    (performed : Performed (id.submitWhile meanwhile computation arguments).run world transcript
      result later) :
    result = .ok (arguments, .error (Group.unusable group.generation)) ∧
      (∃ closed, transcript = [.shutdown group.link closed]) ∧ later.group? id = none := by
  have stays := id.run_ensureGroup_live world group live
  obtain ⟨stop, -, ensured⟩ | ⟨preparing, performing, ready, last, rfl, prepared, made, kept⟩ :=
    submitWhile_cases performed
  · cases (Performed.of_done ensured stays).2.1
  · have prepares := Within.anyway
      (id.within_prepareWhile trivial meanwhile fun _ _ => ⟨trivial, trivial⟩)
    have readySteady := prepares.steady steady prepared
    obtain ⟨_, impossible, -⟩ | ⟨-, ensuring, freeing, middle, early, freed, rfl, ensured, abandoned,
      flushed, abandonedToo⟩ := prepareWhile_cases prepared
    · cases impossible
    · obtain ⟨rfl, -, rfl⟩ := Performed.of_done ensured stays
      have there := (abandoned.of_abandon.2 id).trans live
      obtain ⟨rfl, thereToo⟩ := unusable_flush there unusable flushed
      have running := (abandonedToo.of_abandon.2 id).trans thereToo
      obtain ⟨refused, closes, gone⟩ := unusable_perform readySteady running unusable made
      exact ⟨refused, closes, (kept id).trans gone⟩

end SpawnerId

/-- After a result was fetched from the live group, no group is left that cannot be used any more.
-/
theorem Handle.usable_gather {handle : Handle} {world later : World} {transcript : Transcript}
    {answer : Except Stop Batch} (steady : world.IsSteady) (resident : world.isLive handle = true)
    (performed : Performed handle.gather.run world transcript answer later) :
    later.IsUsable handle.owner := by
  cases gathers performed with
  | gone absent =>
    rw [World.isLive, absent] at resident
    cases resident
  | stale freed other =>
    intro group live
    obtain ⟨first, running, -, kept, -⟩ := group?_freed steady freed live
    obtain ⟨spawner, found, there⟩ := Option.bind_eq_some_iff.mp
      (World.group?_eq_bind ▸ running : (world.record? handle.owner).bind Spawner.group? = some first)
    obtain ⟨present, standing⟩ := Spawner.group?_eq_some.mp there
    have noted := (steady handle.owner spawner found).noted present
    rw [World.isLive, World.spawner?_eq_some.mpr ⟨found, present⟩] at resident
    have resident : spawner.liveGeneration = some handle.generation := by simpa using resident
    rw [standing, resident] at noted
    exact absurd (kept.trans (Option.some.inj noted).symm) (other group live)
  | @fetched freeing fetching retiring middle between _ group table freed live own talked retired =>
    have freedSteady : middle.IsSteady :=
      (InParts.silent handle.owner .free).steady steady freed
    have fetchedSteady : between.IsSteady :=
      (InParts.part handle.owner (.fetch handle.id) _ rfl).steady freedSteady talked
    exact SpawnerId.usable_retire fetchedSteady retired

/-! Runs. -/

/-- The generation that is noted is that of a live group that can be used. -/
def Spawner.NotesUsable (spawner : Spawner) : Prop :=
  ∀ generation, spawner.liveGeneration = some generation ↔
    ∃ group, spawner.state = .live group ∧ group.generation = generation ∧ group.isUnusable = false

/-- How far the generation that a spawner has noted can be relied on. -/
structure SpawnerId.IsSeenTo (id : SpawnerId) (stages : List Stage) (world : World)
    (spawner : Spawner) : Prop where
  /-- There is a group of this generation, and it was not ended. -/
  noted : ∀ generation, spawner.liveGeneration = some generation ↔
    ∃ group, spawner.state = .live group ∧ group.generation = generation ∧ group.ended = false
  /-- It can be used, unless talk with it has failed and this was not seen to since. -/
  usable : spawner.NotesUsable ↔ id.unsettled stages = false
  /-- If it cannot be used, it refuses the next call, which retires it. -/
  refuses : id.unsettled stages = true → ∃ group, spawner.state = .live group ∧
    ∀ meanwhile computation arguments transcript result later,
      Performed (id.submitWhile meanwhile computation arguments).run world transcript result later →
        result = .ok (arguments, .error (Group.unusable group.generation)) ∧
          (∃ closed, transcript = [.shutdown group.link closed]) ∧ later.group? id = none
  /-- Calls see to it. -/
  called : ∀ meanwhile computation arguments transcript result later,
    Performed (id.submitWhile meanwhile computation arguments).run world transcript result later →
      later.IsUsable id
  /-- Fetching from the live group sees to it. -/
  fetched : ∀ (handle : Handle) transcript answer later, handle.owner = id →
    world.isLive handle = true → Performed handle.gather.run world transcript answer later →
      later.IsUsable id

/-- A steady spawner notes the generation of its live group, which can be used or not. -/
theorem Spawner.notesUsable_iff {spawner : Spawner} (steady : spawner.IsSteady)
    (there : spawner.exists? = true) :
    spawner.NotesUsable ↔ spawner.group?.any Group.isUnusable = false := by
  have noted := steady.noted there
  cases live : spawner.live? with
  | none =>
    have idle : spawner.group? = none := by rw [group?, if_pos there, live]
    rw [live] at noted
    refine ⟨fun _ => by rw [idle]; rfl, fun _ generation => ⟨fun same => ?_, ?_⟩⟩
    · cases noted.symm.trans same
    · rintro ⟨group, running, -⟩
      cases live.symm.trans (live?_eq_some.mpr running)
  | some group =>
    have running : spawner.group? = some group := group?_eq_some.mpr ⟨there, live⟩
    have state := live?_eq_some.mp live
    rw [live] at noted
    rw [running, Option.any_some]
    constructor
    · intro notes
      obtain ⟨other, same, -, usable⟩ := (notes group.generation).mp noted
      obtain rfl := GroupState.live.inj (state.symm.trans same)
      exact usable
    · intro usable generation
      constructor
      · intro same
        exact ⟨group, state, Option.some.inj (noted.symm.trans same), usable⟩
      · rintro ⟨other, same, rfl, -⟩
        obtain rfl := GroupState.live.inj (state.symm.trans same)
        exact noted

/-- Over every run of what clients do, whatever the outside answers: the generation that a spawner
has noted is that of a live group, and this group can be used exactly if talk with it has not failed
since it was last seen to that it can. -/
theorem Deeds.live_generation_exact {start last : World} {deeds : List (Deed × Transcript)}
    (fresh : start.spawners = []) (done : Deeds start deeds last) :
    (∃ stages, Passes start stages last ∧ inquiriesOf stages = deeds.flatMap Prod.snd) ∧
      ∀ stages, Passes start stages last → ∀ (id : SpawnerId) spawner,
        last.spawner? id = some spawner → id.IsSeenTo stages last spawner := by
  have absent (id : SpawnerId) : start.record? id = none := by rw [World.record?, fresh]; rfl
  have before : start.IsSteady := fun id spawner found => by cases (absent id).symm.trans found
  refine ⟨done.passes, fun stages passes id spawner found => ?_⟩
  have steady := passes.steady before
  obtain ⟨recorded, there⟩ := World.spawner?_eq_some.mp found
  have mine := steady id spawner recorded
  have same : last.group? id = spawner.group? := World.group?_of_record recorded
  -- Whether the live group is usable can be told from what was asked and answered alone.
  have unsettled : spawner.group?.any Group.isUnusable = id.unsettled stages := by
    have known := passes.isUnusable before id (by rw [found]; exact Option.some_ne_none spawner)
    have idle : start.group? id = none := by rw [World.group?_eq_bind, absent]; rfl
    rwa [same, idle] at known
  refine ⟨fun generation => ?_, ?_, fun shaken => ?_,
    fun _ _ _ _ _ _ => SpawnerId.usable_submitWhile steady,
    fun handle _ _ _ owned resident performed =>
      owned ▸ Handle.usable_gather steady resident performed⟩
  · have noted := mine.noted there
    constructor
    · intro listed
      obtain ⟨group, live, numbered⟩ := Option.map_eq_some_iff.mp (noted.symm.trans listed)
      exact ⟨group, Spawner.live?_eq_some.mp live, numbered,
        mine.going group (Spawner.group?_eq_some.mpr ⟨there, live⟩)⟩
    · rintro ⟨group, state, rfl, -⟩
      rw [noted, Spawner.live?_eq_some.mpr state]
      rfl
  · rw [Spawner.notesUsable_iff mine there, unsettled]
  · rw [← unsettled] at shaken
    cases live : spawner.group? with
    | none =>
      rw [live] at shaken
      cases shaken
    | some group =>
      rw [live] at shaken
      exact ⟨group, Spawner.live?_eq_some.mp (Spawner.group?_eq_some.mp live).2,
        fun _ _ _ _ _ _ => SpawnerId.unusable_submitWhile steady (same.trans live) shaken⟩

/-- A result of which the only share is given up when the connection to its group fails. -/
def Deeds.forsaken : List (Deed × Transcript) :=
  [(.create { workers := some 1 }, []),
    (.submit ⟨0⟩ {} { name := "echo" } {}, [
      .launch ⟨0⟩ { workers := 1, environment := [], verbosity := 0 } (.ok ⟨0⟩),
      .send ⟨0⟩ 0 (.command .execute) (.ok ()),
      .send ⟨0⟩ 0 (.environment []) (.ok ()),
      .send ⟨0⟩ 0 (.arguments [] []) (.ok ()),
      .send ⟨0⟩ 0 (.computation { name := "echo" } (.ofCounter 0)) (.ok ()),
      .receive ⟨0⟩ 0 (.ok .completed),
      .receive ⟨0⟩ 0 (.ok (.status none)),
      .send ⟨0⟩ 0 (.proceed true) (.ok ()),
      .receive ⟨0⟩ 0 (.ok (.outputShape .distributed)),
      .receive ⟨0⟩ 0 (.ok (.partitionMeta (some { rows := 0, schema := { fields := [] } })))]),
    (.release { key := 0, id := .ofOutput (.ofCounter 0) 0, generation := 1, owner := ⟨0⟩ }, [
      .send ⟨0⟩ 0 (.command .deleteResult) (.error { message := "" })])]

namespace Deeds.forsaken

/-- The spawner when its group is live. -/
def live : Spawner :=
  { options := { workers := some 1 }
    state := .live { link := ⟨0⟩, size := 1, generation := 1 }
    liveGeneration := some 1
    lastGeneration := 1 }

/-- The spawner when the share was given up. -/
def shaken : Spawner :=
  { live with state := .live { link := ⟨0⟩, size := 1, generation := 1, broken := true } }

/-- What the coordinator keeps track of then. -/
def world : World := { spawners := [shaken], shares := [0], calls := 1 }

/-- These deeds lead from nothing to that world. -/
theorem done : Deeds {} forsaken world := by
  have created : Performed (Deed.perform (.create { workers := some 1 })) {} _ ()
      { spawners := [{ options := { workers := some 1 } }] } := .done _
  have called : Performed (Deed.perform (.submit ⟨0⟩ {} { name := "echo" } {}))
      { spawners := [{ options := { workers := some 1 } }] } _ ()
      { spawners := [live], shares := [1], calls := 1 } :=
    .launch _ _ _ (.ok ⟨0⟩) (.send _ _ _ _ (.ok ()) (.send _ _ _ _ (.ok ()) (.send _ _ _ _ (.ok ())
      (.send _ _ _ _ (.ok ()) (.receive _ _ _ (.ok .completed) (.receive _ _ _ (.ok (.status none))
        (.send _ _ _ _ (.ok ()) (.receive _ _ _ (.ok (.outputShape .distributed)) (.receive _ _ _
          (.ok (.partitionMeta (some { rows := 0, schema := { fields := [] } }))) (.done _))))))))))
  have released : Performed (Deed.perform (.release
        { key := 0, id := .ofOutput (.ofCounter 0) 0, generation := 1, owner := ⟨0⟩ }))
      { spawners := [live], shares := [1], calls := 1 } _ () world :=
    .send _ _ _ _ (.error { message := "" }) (.done _)
  exact .cons _ created (.cons _ called (.cons _ released (.nil _)))

end Deeds.forsaken

/-- After these deeds the generation of a group is noted that cannot be used. -/
theorem Deeds.forsaken_noted : Deeds {} forsaken forsaken.world ∧
    forsaken.world.spawner? ⟨0⟩ = some forsaken.shaken ∧
    forsaken.shaken.liveGeneration = some 1 ∧ ¬ forsaken.shaken.NotesUsable := by
  refine ⟨forsaken.done, rfl, rfl, fun notes => ?_⟩
  obtain ⟨group, state, -, usable⟩ := (notes 1).mp rfl
  obtain rfl := GroupState.live.inj state
  cases usable

/-- What holds after any run holds after these deeds. -/
theorem Deeds.forsaken_seen_to :
    ({} : World).spawners = [] ∧ Deeds {} forsaken forsaken.world ∧
      ∃ stages, Passes {} stages forsaken.world ∧
        inquiriesOf stages = forsaken.flatMap Prod.snd ∧
        SpawnerId.IsSeenTo ⟨0⟩ stages forsaken.world forsaken.shaken := by
  obtain ⟨⟨stages, passes, same⟩, seenTo⟩ := Deeds.live_generation_exact rfl forsaken.done
  exact ⟨rfl, forsaken.done, stages, passes, same, seenTo stages passes ⟨0⟩ forsaken.shaken rfl⟩

end Rankwise
