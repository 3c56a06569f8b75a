import Rankwise.Proofs.Coordination
import Rankwise.Proofs.Marking

/-!
# Groups whose connection fails

A group whose connection fails during a call is retired before the call returns, whatever the
outside answers (`submit_retires`).
-/

namespace Rankwise

namespace World

variable (world : World) (id : SpawnerId)

/-- After a failure the live group, if there is one, is broken. -/
def Suspects (failed : Bool) : Prop :=
  failed = true → ∀ group, world.group? id = some group → group.broken = true

end World

namespace SpawnerId

variable (id : SpawnerId)

/-- If an answer is a failure, the live group of the spawner is broken afterwards. -/
def Marks {α : Type} (acting : Acting α) : Prop :=
  ∀ (world : World) (failed : Bool), world.Suspects id failed →
    (acting.run world).Always (fun failed result => result.2.Suspects id failed) failed

namespace Marks

variable {id} {α β : Type}

/-- To give a value keeps the mark. -/
theorem pure (value : α) : id.Marks (Pure.pure value) := by
  intro world failed before
  exact before

/-- To look around keeps the mark. -/
theorem get : id.Marks MonadState.get := by
  intro world failed before
  exact before

/-- Two actions that keep the mark keep it one after the other. -/
theorem bind {acting : Acting α} {continuation : α → Acting β} (first : id.Marks acting)
    (second : ∀ value, id.Marks (continuation value)) : id.Marks (acting >>= continuation) := by
  intro world failed before
  apply Dialogue.always_bind _ _ _ (first world failed before)
  rintro failed ⟨value, later⟩ kept
  exact second value later failed kept

/-- Acting that keeps the live group and asks for nothing. -/
theorem modify (update : World → World)
    (kept : ∀ world, (update world).group? id = world.group? id) :
    id.Marks (modify update : Acting Unit) := by
  intro world failed before broken group live
  exact before broken group (kept world ▸ live)

/-- To do something with each item keeps the mark if it does for one. -/
theorem forM (items : List α) (acting : α → Acting Unit) (each : ∀ item, id.Marks (acting item)) :
    id.Marks (items.forM acting) := by
  induction items with
  | nil => exact pure _
  | cons item rest inductionHypothesis => exact bind (each item) fun _ => inductionHypothesis

end Marks

/-- A change that leaves shares and state alone keeps the mark. -/
theorem marks_change (update : Spawner → Spawner)
    (shared : ∀ spawner, (update spawner).owners = spawner.owners)
    (kept : ∀ spawner, (update spawner).state = spawner.state) :
    id.Marks (id.change update) :=
  Marks.modify _ fun world => world.group?_change_of_state id update shared kept
/-- Talk that marks its group is talk with the live group that marks it. -/
theorem marks_talk {α : Type} (talk : StateT Group Dialogue α) (keeps : Group.Law.marking.Keeps talk) :
    id.Marks (id.talk talk) := by
  intro world failed before
  cases live : world.group? id with
  | none =>
    rw [run_talk_none id talk world live]
    exact before
  | some group =>
    rw [run_talk id talk world group live]
    apply Dialogue.always_bind _ _ _ (keeps group failed fun is => before is group live)
    rintro failed ⟨value, later⟩ broken is found listed
    have noted := World.group?_noted world id group later live
    obtain rfl := Option.some.inj (noted.symm.trans listed)
    exact broken is

/-- To free results keeps the mark. -/
theorem marks_flush : id.Marks id.flush := by
  apply Marks.bind Marks.get
  intro world
  cases world.spawner? id with
  | none => exact Marks.pure ()
  | some spawner =>
    apply Marks.bind
    · exact marks_change id _ (fun _ => rfl) fun _ => rfl
    intro _
    apply Marks.bind
    · apply marks_talk
      apply Group.Law.Keeps.forEach
      rintro ⟨generation, result⟩
      apply Group.Law.Keeps.bind Group.Law.Keeps.look
      intro group
      split
      · exact Group.Law.Keeps.bind (Group.Law.marking.keeps_deleteResult result) fun _ =>
          Group.Law.Keeps.pure ()
      · exact Group.Law.Keeps.pure ()
    intro _
    exact Marks.pure ()

/-- To note a result keeps the mark. -/
theorem marks_notePending (generation : Nat) (result : ResultId) :
    id.Marks (id.notePending generation result) := by
  apply marks_change
  · intro spawner
    split <;> rfl
  · intro spawner
    split <;> rfl

/-- To hand out a handle keeps the mark. -/
theorem marks_create (owner : SpawnerId) (generation : Nat) (result : ResultId) :
    id.Marks (Handle.create owner generation result) := by
  intro world failed before
  exact before

mutual

/-- To hand out the handles for a reply keeps the mark. -/
theorem marks_ofReply (owner : SpawnerId) (generation : Nat) (reply : Reply) :
    id.Marks (Answer.ofReply owner generation reply) := by
  cases reply with
  | value found => exact Marks.pure _
  | partitioned found =>
    exact Marks.bind (marks_create id owner generation found.id) fun _ => Marks.pure _
  | tuple items => exact Marks.bind (marks_ofReplies owner generation items) fun _ => Marks.pure _
  | map entries => exact Marks.bind (marks_ofEntries owner generation entries) fun _ => Marks.pure _

/-- To hand out the handles for the items of a tuple keeps the mark. -/
theorem marks_ofReplies (owner : SpawnerId) (generation : Nat) (items : List Reply) :
    id.Marks (Answer.ofReplies owner generation items) := by
  cases items with
  | nil => exact Marks.pure _
  | cons item rest =>
    apply Marks.bind (marks_ofReply owner generation item)
    intro _
    exact Marks.bind (marks_ofReplies owner generation rest) fun _ => Marks.pure _

/-- To hand out the handles for the entries of a map keeps the mark. -/
theorem marks_ofEntries (owner : SpawnerId) (generation : Nat) (entries : List (String × Reply)) :
    id.Marks (Answer.ofEntries owner generation entries) := by
  cases entries with
  | nil => exact Marks.pure _
  | cons entry rest =>
    apply Marks.bind (marks_ofReply owner generation entry.2)
    intro _
    exact Marks.bind (marks_ofEntries owner generation rest) fun _ => Marks.pure _

end

/-- A group that is broken is retired. -/
theorem retires (world : World) (failed : Bool) (before : world.Suspects id failed) :
    (id.retireIfUnusable.run world).Always
      (fun failed result => failed = true → result.2.group? id = none) failed := by
  by_cases doomed : ∃ group, world.group? id = some group ∧ group.isUnusable = true
  · obtain ⟨group, live, unusable⟩ := doomed
    rw [run_retire_unusable id world group live unusable]
    apply Dialogue.always_bind _ _ _ (Dialogue.always_true _ failed)
    intro failed result _ _
    exact group?_destroyed id result.2
  · have usable (group : Group) (live : world.group? id = some group) :
        group.isUnusable = false := by
      cases unusable : group.isUnusable with
      | true => exact absurd ⟨group, live, unusable⟩ doomed
      | false => rfl
    rw [run_retire_usable id world usable]
    intro is
    cases live : world.group? id with
    | none => rfl
    | some group =>
      have broken := before is group live
      have unbroken := usable group live
      simp [Group.isUnusable, broken] at unbroken

/-- If a group cannot be started, there is none. -/
theorem ensures (world : World) :
    (id.ensureGroup.run.run world).Always
      (fun failed result => failed = true → result.2.group? id = none) false := by
  cases found : world.spawner? id with
  | none =>
    rw [run_ensureGroup_gone id world found]
    intro is
    cases is
  | some spawner =>
    cases live : world.group? id with
    | some group =>
      rw [run_ensureGroup_live id world group live]
      intro is
      cases is
    | none =>
      rw [run_ensureGroup_launch id world spawner found live, run_launch]
      have idle := (group?_counted id spawner world).trans live
      cases workers? spawner world with
      | error failure =>
        intro _
        exact idle
      | ok workers =>
        constructor
        · intro link is
          cases is
        · intro failure _
          exact idle

/-- To answer a call keeps the mark. -/
theorem marks_answer (generation : Nat) (called : CallEnd) :
    id.Marks (id.answer generation called) := by
  unfold answer
  cases called.outcome with
  | ok reply => exact Marks.bind (marks_ofReply id id generation reply) fun _ => Marks.pure _
  | error abandoned =>
    apply Marks.bind
    · apply Marks.forM
      intro orphan
      exact marks_notePending id generation orphan.id
    intro _
    exact Marks.pure _

/-- Whatever the outside answers while the group is made ready: if some answer is a failure and
there is a live group nonetheless, it is broken. -/
theorem prepares (world : World) :
    (id.prepare.run.run world).Always (fun failed result => result.2.Suspects id failed ∧
      ((∃ stop, result.1 = .error stop) → failed = true → result.2.group? id = none)) false := by
  rw [prepare, Coordinating.run_bind]
  apply Dialogue.always_bind _ _ _ (ensures id world)
  rintro failed ⟨answer, later⟩ idle
  have suspects : later.Suspects id failed := by
    intro is group live
    rw [idle is] at live
    cases live
  cases answer with
  | error stop => exact ⟨suspects, fun _ => idle⟩
  | ok _ =>
    apply Dialogue.always_bind _ _ _ (marks_flush id later failed suspects)
    rintro failed ⟨_, last⟩ kept
    refine ⟨kept, ?_⟩
    rintro ⟨stop, stopped⟩
    cases stopped

/-- Whatever the outside answers to a call: if some answer is a failure, there is no live group
after the call. -/
theorem submit_retires (computation : Computation) (arguments : CallArguments) (world : World) :
    ((id.submit computation arguments).run.run world).Always
      (fun failed result => failed = true → result.2.group? id = none) false := by
  rw [submit_eq, Coordinating.run_bind]
  apply Dialogue.always_bind _ _ _ (prepares id world)
  rintro failed ⟨answer, later⟩ ⟨suspects, stopped⟩
  cases answer with
  | error stop => exact stopped ⟨stop, rfl⟩
  | ok _ =>
    dsimp only
    cases live : later.group? id with
    | none =>
      rw [run_perform_none id computation arguments later live]
      intro _
      exact live
    | some group =>
      rw [run_perform id computation arguments later group live]
      have marks := Group.Law.marking.keeps_submit later.isLive later.environment
        (.ofCounter later.calls) computation arguments group failed fun is => suspects is group live
      apply Dialogue.always_bind _ _ _ marks
      rintro failed ⟨called, noted⟩ broken
      have suspects : (later.counted.noted id noted).Suspects id failed := by
        intro is found listed
        have same := World.group?_noted later.counted id group noted live
        obtain rfl := Option.some.inj (same.symm.trans listed)
        exact broken is
      dsimp only
      rw [run_conclude, Dialogue.bind_assoc]
      apply Dialogue.always_bind _ _ _
        (marks_answer id group.generation called _ failed suspects)
      rintro failed ⟨answer, last⟩ kept
      dsimp only
      rw [Dialogue.bind_assoc]
      apply Dialogue.always_bind _ _ _ (retires id last failed kept)
      rintro failed ⟨_, retired⟩ idle
      exact idle

end SpawnerId

end Rankwise
