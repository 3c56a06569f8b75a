import Rankwise.Proofs.Acting
import Rankwise.Proofs.Faults
import Rankwise.Proofs.Leftovers
import Rankwise.Proofs.Retirement

/-!
# Groups that stay live

A call keeps a spawner in sync or ends its group, but for one case: no rank fails, and not all ranks
come with equally many partitions (`IsUneven`). Then messages stay unread while the group stays
live. The main statement (`live_in_sync`) says this of every run in which the connection may fail at
any point, in any way.
-/

namespace Rankwise

/-- Whether a call is uneven is a matter of what the ranks store. -/
theorem Request.isUneven_congr {registry : Registry} {size : Nat} {stores others : Nat → ResultStore}
    {isLive : Handle → Bool} {surroundings : List (String × String)} {computation : Computation}
    {arguments : CallArguments} (agree : ∀ rank < size, stores rank = others rank)
    (uneven : IsUneven registry size stores isLive surroundings computation arguments) :
    IsUneven registry size others isLive surroundings computation arguments := by
  obtain ⟨prepared, output, later, ready, answered, apart⟩ := uneven
  refine ⟨prepared, output, later, ready, ?_, apart⟩
  intro rank inside
  have same := answered rank inside
  unfold outcome? at same ⊢
  rw [agree rank inside] at same
  exact same

namespace SpawnerId

/-- The group is made ready, no rank fails in the call, and not all ranks come with equally many
partitions. -/
def IsUneven (id : SpawnerId) (computation : Computation) (arguments : CallArguments)
    (world : World) (fleet : Fleet) : Prop :=
  ∃ ready last group stores, Acts id.prepare.run world fleet (.ok ()) ready last ∧
    ready.group? id = some group ∧ last.AtRest group stores ∧
    Request.IsUneven last.registry group.size stores ready.isLive ready.environment computation
      arguments

variable (id : SpawnerId) {world ready : World} {fleet last : Fleet} {group : Group}
  {stores : Nat → ResultStore} {computation : Computation} {arguments : CallArguments}

/-- Whether a call is uneven can be seen once the group is ready. -/
theorem isUneven_iff (prepared : Acts id.prepare.run world fleet (.ok ()) ready last)
    (live : ready.group? id = some group) (rests : last.AtRest group stores) :
    id.IsUneven computation arguments world fleet ↔
      Request.IsUneven last.registry group.size stores ready.isLive ready.environment computation
        arguments := by
  constructor
  · rintro ⟨readyToo, lastToo, groupToo, others, preparedToo, liveToo, restsToo, uneven⟩
    have both := Option.some.inj (prepared.symm.trans preparedToo)
    obtain ⟨same, rfl⟩ := Prod.mk.inj both
    obtain ⟨-, rfl⟩ := Prod.mk.inj same
    obtain rfl := Option.some.inj (live.symm.trans liveToo)
    apply Request.isUneven_congr _ uneven
    exact fun rank inside => restsToo.unique rests rank inside
  · intro uneven
    exact ⟨ready, last, group, stores, prepared, live, rests, uneven⟩

/-- Behind `prepare`, a call that comes to its end leaves the spawner in sync exactly if it is not
uneven. -/
theorem perform_inSync (ordered : arguments.IsOrdered) (live : ready.group? id = some group)
    (manned : 0 < group.size) (usable : group.isUnusable = false) (rests : last.AtRest group stores)
    (answer : Except Stop (CallArguments × Except Failure Answer)) (after : World) (left : Fleet)
    (returned : Acts (id.perform computation arguments).run ready last answer after left) :
    after.InSync id left ↔
      ¬ Request.IsUneven last.registry group.size stores ready.isLive ready.environment computation
        arguments := by
  unfold Acts at returned
  rw [run_perform id computation arguments ready group live, Dialogue.run_bind] at returned
  obtain ⟨⟨⟨called, later⟩, between⟩, talked, concluded⟩ := Option.bind_eq_some_iff.mp returned
  have ends : Ends _ group (last.rest group stores) _ := Group.ends_submit rests.sized manned usable
    ready.isLive ready.environment (.ofCounter ready.calls) computation arguments ordered
  rw [rests.rest_eq] at ends
  obtain ⟨rfl, even⟩ := ends called later between talked
  rw [← even]
  have noted := World.group?_noted ready.counted id later later live
  obtain ⟨result, final, acts, same, -⟩ := acts_conclude id later.generation called
    (ready.counted.noted id later) between fun other found => by
      obtain rfl := Option.some.inj (noted.symm.trans found)
      exact usable
  have whole := Dialogue.run_bind Fleet.outside
    ((id.conclude later.generation called).run (ready.counted.noted id later))
    (fun reached => .done ((.ok reached.1 : Except Stop _), reached.2)) between
  rw [acts] at whole
  obtain ⟨made, rfl⟩ := Prod.mk.inj (Option.some.inj (whole.symm.trans concluded))
  obtain ⟨-, rfl⟩ := Prod.mk.inj made
  have stays : final.group? id = some later := same.trans noted
  -- The answer has changed nothing on the workers, so the group is as the talk has left it.
  constructor
  · intro inSync
    exact (inSync later stays).2.2
  · intro atRest other found
    obtain rfl := Option.some.inj (stays.symm.trans found)
    exact ⟨manned, usable, atRest⟩

/-- With workers that act at once, a call that comes to its end leaves no live group, or it leaves
the spawner in sync exactly if it is not uneven. -/
theorem submit_inSync (inSync : world.InSync id fleet) (ordered : arguments.IsOrdered)
    (answer : Except Stop (CallArguments × Except Failure Answer)) (after : World) (left : Fleet)
    (returned : Acts (id.submit computation arguments).run world fleet answer after left) :
    after.group? id = none ∨
      (after.InSync id left ↔ ¬ id.IsUneven computation arguments world fleet) := by
  obtain ⟨begun, ready, last, prepared, tended, stopped⟩ := prepare_inSync id inSync
  rw [submit_eq] at returned
  unfold Acts at returned
  rw [Coordinating.run_bind, Dialogue.run_bind, prepared] at returned
  cases begun with
  | error stop =>
    obtain ⟨same, -⟩ := Prod.mk.inj (Option.some.inj returned)
    obtain ⟨-, rfl⟩ := Prod.mk.inj same
    exact .inl (stopped ⟨stop, rfl⟩)
  | ok _ =>
    cases live : ready.group? id with
    | none =>
      have performed : Acts (id.perform computation arguments).run ready last answer after left :=
        returned
      unfold Acts at performed
      rw [run_perform_none id computation arguments ready live] at performed
      obtain ⟨same, -⟩ := Prod.mk.inj (Option.some.inj performed)
      obtain ⟨-, rfl⟩ := Prod.mk.inj same
      exact .inl live
    | some group =>
      obtain ⟨manned, usable, stores, rests⟩ := tended.inSync group live
      rw [isUneven_iff id prepared live rests]
      exact .inr (perform_inSync id ordered live manned usable rests answer after left returned)

/-- Whatever a computation comes to on the ranks and wherever the connection fails: when a call
returns, the spawner has no live group, or the workers of its live group wait for a command once
they have taken what lies ahead of them and nothing they sent is unread, exactly unless no rank has
failed and not all ranks came with equally many partitions. -/
theorem live_in_sync (id : SpawnerId) (computation : Computation) (arguments : CallArguments)
    (ordered : arguments.IsOrdered) (world later : World) (traffic last : Traffic)
    (sound : traffic.IsSound) (inSync : world.InSync id traffic.settled)
    (answer : Except Stop (CallArguments × Except Failure Answer))
    (returned : Traffic.MayReach
      (traffic, (id.submit computation arguments).run.run world) (last, .done (answer, later))) :
    later.group? id = none ∨
      (later.InSync id last.settled ↔
        ¬ id.IsUneven computation arguments world traffic.settled) := by
  rcases Traffic.ends_or_failed traffic last _ _ sound
    (submit_retires id computation arguments world) returned with ended | failed
  · exact submit_inSync id inSync ordered answer later last.settled ended
  · exact .inl (failed rfl)

end SpawnerId

/-! A computation that comes with a value on rank 0 and with a table on every other rank. -/

/-- Gives nothing on rank 0 and the table of no columns elsewhere. -/
def Body.lopsided : Body := fun context _ _ =>
  if context.rank = 0 then return .replicated .null
  else return .distributed { schema := { fields := [] }, columns := [], rows := 0 }

namespace Lopsided

/-- Workers that know the computation. -/
def registry : Registry where
  bodies := [("lopsided", .lopsided)]

/-- The call of the computation. -/
def computation : Computation := { name := "lopsided" }

/-- The coordinator has one spawner, which starts groups of two workers. -/
def world : World where
  spawners := [{ options := { workers := some 2 } }]

/-- No group has been started. -/
def traffic : Traffic := Exchange.nobody registry

/-- The spawner. -/
def spawner : SpawnerId := ⟨0⟩

/-- No group is live, so nothing is out of step. -/
theorem inSync : world.InSync spawner traffic.settled := World.inSync_of_idle rfl

/-- Without arguments there is nothing to order. -/
theorem ordered : ({} : CallArguments).IsOrdered :=
  ⟨fun _ member => absurd member List.not_mem_nil, fun _ member => absurd member List.not_mem_nil⟩

/-- The call returns, and the group stays live. -/
theorem returns : ∃ answer later last,
    Traffic.Reaches (traffic, (spawner.submit computation {}).run.run world)
      (last, .done (answer, later)) ∧ later.group? spawner ≠ none := by
  have runs : (((spawner.submit computation {}).run.run world).run Fleet.outside
      traffic.settled).map (fun ended => (ended.1.2.group? spawner).isSome) = some true := by
    decide +kernel
  obtain ⟨⟨⟨answer, later⟩, fleet⟩, ended, live⟩ := Option.map_eq_some_iff.mp runs
  obtain ⟨last, reached, -⟩ := Traffic.end_reached
    (traffic, (spawner.submit computation {}).run.run world) (answer, later) fleet
    (Exchange.nobody_isSound registry) ended
  refine ⟨answer, later, last, reached, ?_⟩
  intro idle
  rw [idle] at live
  cases live

/-- Rank 0 comes with no partition, rank 1 with one. -/
theorem isUneven : spawner.IsUneven computation {} world traffic.settled := by
  let group : Group := { link := ⟨0⟩, size := 2, generation := 1 }
  let ready : World := { spawners := [{
    options := { workers := some 2 }
    state := .live group
    liveGeneration := some 1
    lastGeneration := 1 }] }
  let last : Fleet := traffic.settled.launch { workers := 2, environment := [], verbosity := 0 }
  let output (rank : Nat) : Output :=
    if rank = 0 then .replicated .null
    else .distributed { schema := { fields := [] }, columns := [], rows := 0 }
  refine ⟨ready, last, group, fun _ => [], rfl, rfl, ⟨rfl, ?_⟩, ?_⟩
  · intro rank inside
    rfl
  · refine ⟨_, output, fun _ => [], rfl, ?_, 1, Nat.one_lt_two, Nat.one_ne_zero⟩
    intro rank (inside : rank < 2)
    obtain rfl | rfl : rank = 0 ∨ rank = 1 := by omega
    · rfl
    · rfl

end Lopsided

namespace SpawnerId

/-- After the lopsided call the workers are in sync exactly if the call was not uneven. -/
theorem lopsided_in_sync : ∃ answer later last,
    Traffic.MayReach (Lopsided.traffic,
      (Lopsided.spawner.submit Lopsided.computation {}).run.run Lopsided.world)
      (last, .done (answer, later)) ∧
    (later.InSync Lopsided.spawner last.settled ↔
      ¬ Lopsided.spawner.IsUneven Lopsided.computation {} Lopsided.world
        Lopsided.traffic.settled) := by
  obtain ⟨answer, later, last, reached, live⟩ := Lopsided.returns
  have mayReach := Relation.ReflTransGen.mono Traffic.FaultyStep.goes _ _ reached
  refine ⟨answer, later, last, mayReach, ?_⟩
  rcases live_in_sync Lopsided.spawner Lopsided.computation {} Lopsided.ordered Lopsided.world later
    Lopsided.traffic last (Exchange.nobody_isSound Lopsided.registry) Lopsided.inSync answer
    mayReach with idle | exact
  · exact absurd idle live
  · exact exact

/-- Not every group that stays live is in sync: the lopsided call leaves a message unread. -/
theorem lopsided_out_of_sync : ∃ answer later last,
    Traffic.Reaches (Lopsided.traffic,
      (Lopsided.spawner.submit Lopsided.computation {}).run.run Lopsided.world)
      (last, .done (answer, later)) ∧
    later.group? Lopsided.spawner ≠ none ∧ ¬ later.InSync Lopsided.spawner last.settled := by
  obtain ⟨answer, later, last, reached, live⟩ := Lopsided.returns
  obtain ⟨-, ended⟩ := Traffic.run_reached _ _ (Exchange.nobody_isSound Lopsided.registry) reached
  refine ⟨answer, later, last, reached, live, ?_⟩
  rcases submit_inSync Lopsided.spawner Lopsided.inSync Lopsided.ordered answer later last.settled
    ended.symm with idle | exact
  · exact absurd idle live
  · exact fun inSync => exact.mp inSync Lopsided.isUneven

end SpawnerId

end Rankwise
