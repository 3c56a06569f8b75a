import Rankwise.Proofs.Custody
import Rankwise.Proofs.RoundTrip
import Rankwise.Proofs.Traversals

/-!
# Calls and custody

Fetching a result gives the partitions that were computed for it, in the order of the ranks, and
keeps the record (`Custody.gather`). So does ending the group (`Custody.reset`). A call hands out
one result for each partition of its output, and the record grows by these (`Custody.perform`); a
call that fails hands out nothing.
-/

namespace Rankwise

/-! Fetching results. -/

namespace Group

/-- If all ranks store a result, their partitions are joined. -/
theorem stored_eq (id : ResultId) (size : Nat) (stores : Nat → ResultStore) (partition : Nat → Batch)
    (found : ∀ rank < size, (stores rank).find? id = some (partition rank)) :
    stored id size stores = joinPartitions ((List.range size).map partition) := by
  refine congrArg (· >>= joinPartitions) (mapM_eq_ok fun rank member => ?_)
  rw [found rank (List.mem_range.mp member)]

/-- What is left of ending a group that is known to be usable. -/
def finishing : StateT Group Dialogue (Except Failure Unit) := do
  let told ← (broadcast (.command .exit)).run
  let closed ← shutdown.run
  return told.bind fun _ => closed

/-- The group was ended. -/
def left (group : Group) : Group := { group with ended := true }

/-- A group that can be used is told to leave when it is ended. -/
theorem finish_usable (group : Group) (usable : group.isUnusable = false) :
    finish.run.run group = finishing.run group.left := by
  obtain ⟨link, size, generation, broken, ended⟩ := group
  obtain ⟨rfl, rfl⟩ : ended = false ∧ broken = false := by
    rwa [isUnusable, Bool.or_eq_false_iff] at usable
  rfl

/-- Workers of which none hangs can be shut down. -/
theorem tells_shutdown (group : Group) (fleet : Fleet) (awake : fleet.isHung group.link = false) :
    Tells shutdown.run group fleet (.ok ())
      (fleet.changeAll group.link fun _ line => line.close) := by
  unfold Tells
  show Dialogue.run Fleet.outside (.shutdown group.link _) _ = _
  rw [Dialogue.run, Fleet.shutdown_awake _ _ awake]
  rfl

/-- Ending a group whose workers wait for a command goes well. -/
theorem finish_runs {fleet : Fleet} {stores : Nat → ResultStore} (group : Group)
    (usable : group.isUnusable = false) (rests : fleet.AtRest group stores) :
    ∃ last, (finish.run.run group).run Fleet.outside fleet = some ((.ok (), group.left), last) ∧
      last.registry = fleet.registry := by
  have told := says_broadcast group.left fleet
    (fun rank => .atRest (fleet.worker group.size rank) (stores rank)) rests.sized (.command .exit)
  have same : fleet.place group.left.link
      (fun rank => .atRest (fleet.worker group.size rank) (stores rank)) = fleet := rests.rest_eq
  rw [same] at told
  have awake : (fleet.place group.left.link fun rank =>
      (Line.atRest (fleet.worker group.size rank) (stores rank)).deliver (.command .exit)).isHung
        group.link = false := by
    refine List.any_eq_false.mpr fun rank member => ?_
    have placed := Fleet.line_place fleet group.link (fun rank =>
      (Line.atRest (fleet.worker group.size rank) (stores rank)).deliver (.command .exit)) rank
        (List.mem_range.mp member)
    show ¬ ((fleet.place group.link _).line group.link rank).station.isHung = true
    rw [placed]
    exact Bool.false_ne_true
  rw [finish_usable group usable]
  exact ⟨_, Tells.bind (Tells.ofSays told)
    (Tells.bind (tells_shutdown group.left _ awake) (Tells.pure _ _ _)), rfl⟩

end Group

namespace Custody

variable {id : SpawnerId} {world : World} {spawner : Spawner} {fleet : Fleet}
  {deposits : List Deposit}

/-- Every rank of the live group stores a deposit of which somebody has a share. -/
theorem stored (custody : Custody id world spawner fleet deposits) {group : Group}
    (live : world.group? id = some group) {stores : Nat → ResultStore}
    (rests : fleet.AtRest group stores) {deposit : Deposit} (member : deposit ∈ deposits)
    (own : deposit.handle.generation = group.generation) (held : world.IsHeld deposit.handle)
    {rank : Nat} (inside : rank < group.size) :
    (stores rank).find? deposit.handle.id = some (deposit.partition rank) := by
  obtain ⟨-, -, -, others, restsToo, stocks⟩ :=
    custody.attended group (custody.group?_eq.symm.trans live)
  rw [rests.unique restsToo rank inside]
  exact (stocks rank inside _ _).mpr ⟨deposit, member, own, rfl, rfl, .inl held⟩

/-- While somebody has a share of a result and its group is live, what is fetched is what was
computed for it on the ranks, one below the other. -/
theorem gatherLive (custody : Custody id world spawner fleet deposits) (deposit : Deposit)
    (member : deposit ∈ deposits) :
    ∃ answer, Acts deposit.handle.gatherLive.run world fleet answer world fleet ∧
      (world.IsHeld deposit.handle → ∀ group, world.group? id = some group →
        deposit.handle.generation = group.generation →
          answer = (Group.joinPartitions ((List.range group.size).map deposit.partition)).mapError
            Stop.failed) := by
  have owned := (custody.recorded deposit member).owned
  have refused {α : Type} : Acts (Coordinating.fail (α := α)
      (Handle.ofEndedGroup deposit.handle.generation)).run world fleet
        (.error (.failed (Handle.ofEndedGroup deposit.handle.generation))) world fleet := rfl
  unfold Acts
  rw [Handle.gatherLive_cases, owned]
  -- Only the group of the generation of the handle is asked.
  cases live : world.group? id with
  | none => exact ⟨_, refused, fun _ group running => by cases running⟩
  | some group =>
    dsimp only
    by_cases own : deposit.handle.generation = group.generation
    · obtain ⟨manned, usable, -, stores, rests, -⟩ :=
        custody.attended group (custody.group?_eq.symm.trans live)
      have spoken := Group.says_gatherResult rests.sized deposit.handle.id stores usable
      rw [rests.rest_eq] at spoken
      have talked := id.acts_talk _ group _ fleet live (Tells.ofSays spoken)
      have retired : Acts id.retireIfUnusable world fleet () world fleet := by
        unfold Acts
        rw [id.run_retire_usable _ fun other running => by
          obtain rfl := Option.some.inj (live.symm.trans running)
          exact usable]
        rfl
      rw [if_neg (not_not.mpr own.symm), Handle.gatherFrom, owned]
      refine ⟨_, Acts.bindOk (Acts.lift talked) (Acts.bindOk (Acts.lift retired) rfl), ?_⟩
      intro held other running _
      obtain rfl := Option.some.inj running
      rw [Group.stored_eq _ _ _ deposit.partition fun rank inside =>
        custody.stored live rests member own held inside]
      rfl
    · rw [if_pos (Ne.symm own)]
      refine ⟨_, Acts.bindError refused, fun _ other running ownToo => ?_⟩
      obtain rfl := Option.some.inj running
      exact absurd ownToo own

/-- Fetching a result frees what is to be freed and keeps the record. -/
theorem gather (custody : Custody id world spawner fleet deposits) (deposit : Deposit)
    (member : deposit ∈ deposits) :
    ∃ answer after last,
      Acts deposit.handle.gather.run world fleet answer (world.emptied id) last ∧
      Custody id (world.emptied id) after last deposits ∧ last.registry = fleet.registry ∧
      (world.IsHeld deposit.handle → ∀ group, world.group? id = some group →
        deposit.handle.generation = group.generation →
          answer = (Group.joinPartitions ((List.range group.size).map deposit.partition)).mapError
            Stop.failed) := by
  have owned := (custody.recorded deposit member).owned
  have there : (world.spawner? deposit.handle.owner).isNone = false := by
    rw [owned, custody.found]
    rfl
  obtain ⟨last, flushed, kept, registered⟩ := custody.flush
  obtain ⟨answer, fetched, joined⟩ := kept.gatherLive deposit member
  refine ⟨answer, _, last, ?_, kept, registered, fun held group live =>
    joined held group ((world.group?_emptied id).trans live)⟩
  unfold Acts
  rw [Handle.gather_cases, there]
  have freed : Acts deposit.handle.owner.flush world fleet () (world.emptied id) last := by
    rw [owned]
    exact flushed
  exact Acts.bindOk (Acts.lift freed) fetched

/-- That the group is gone keeps the record. -/
theorem ended (custody : Custody id world spawner fleet deposits) (group : Group) (last : Fleet) :
    Custody id (((world.emptied id).noted id group).change id fun spawner =>
        { spawner with state := .destroyed, liveGeneration := none })
      { spawner with pending := [], state := .destroyed, liveGeneration := none } last
      deposits where
  found := by
    rw [World.spawner?_change _ id (fun spawner =>
        { spawner with state := .destroyed, liveGeneration := none }) fun _ => rfl,
      World.noted, World.spawner?_change _ id (fun spawner =>
        { spawner with state := .live group }) fun _ => rfl,
      World.emptied, World.spawner?_change _ id (fun spawner => { spawner with pending := [] })
        fun _ => rfl, custody.found]
    rfl
  noted := rfl
  recorded deposit member := by
    obtain ⟨owned, keyed, dated, named⟩ := custody.recorded deposit member
    exact ⟨owned, keyed, dated, named⟩
  apart := custody.apart
  pending := List.forall_mem_nil _
  attended other running := by cases running

/-- Ending the group keeps the record. -/
theorem reset (custody : Custody id world spawner fleet deposits) :
    ∃ answer later after last, Acts id.reset.run world fleet answer later last ∧
      Custody id later after last deposits ∧ last.registry = fleet.registry := by
  have forgot : Acts (id.change fun spawner => { spawner with pending := [] }) world fleet ()
    (world.emptied id) fleet := rfl
  have same := world.group?_emptied id
  cases live : spawner.live? with
  | none =>
    have idle := same.trans (custody.group?_eq.trans live)
    have talked : Acts (id.talk Group.finish.run) (world.emptied id) fleet none (world.emptied id)
        fleet := by
      unfold Acts
      rw [id.run_talk_none _ _ idle]
      rfl
    have kept := custody.emptied fleet fun group running => by
      cases live.symm.trans running
    exact ⟨.ok (), _, _, fleet,
      Acts.bindOk (Acts.lift forgot) (Acts.bindOk (Acts.lift talked) rfl), kept, rfl⟩
  | some group =>
    have running := same.trans (custody.group?_eq.trans live)
    obtain ⟨-, usable, -, stores, rests, -⟩ := custody.attended group live
    obtain ⟨last, finished, registered⟩ := Group.finish_runs group usable rests
    have talked := id.acts_talk_to _ group group.left _ last running finished
    exact ⟨.ok (), _, _, last,
      Acts.bindOk (Acts.lift forgot) (Acts.bindOk (Acts.lift talked) rfl),
      custody.ended group.left last, registered⟩

end Custody

/-! Calls. -/

/-- What talk says whose value is made into another one. -/
theorem Tells.of_map {α β : Type} {talk : StateT Group Dialogue α} {make : α → β} {group : Group}
    {fleet later : Fleet} {result : β}
    (tells : Tells (talk >>= fun value => Pure.pure (make value)) group fleet result later) :
    ∃ value, Tells talk group fleet value later ∧ make value = result := by
  have whole := Dialogue.run_bind Fleet.outside (talk.run group)
    (fun reached => .done (make reached.1, reached.2)) fleet
  obtain ⟨⟨⟨value, after⟩, last⟩, told, same⟩ :=
    Option.bind_eq_some_iff.mp (whole.symm.trans tells)
  obtain ⟨both, rfl⟩ := Prod.mk.inj (Option.some.inj same)
  obtain ⟨made, rfl⟩ := Prod.mk.inj both
  exact ⟨value, told, made⟩

/-- The number of workers in the live group of a spawner. -/
def World.workers (world : World) (id : SpawnerId) : Nat := ((world.group? id).map Group.size).getD 0

namespace SpawnerId

/-- Names in the arguments are distinct. A call that can be prepared comes to this outcome on each
rank, and the computation changes nothing that the rank stores. Its outputs have one shape. -/
structure ComesTo (id : SpawnerId) (computation : Computation) (arguments : CallArguments)
    (world : World) (fleet : Fleet) (outcome : Nat → Except Failure Output) : Prop where
  ordered : arguments.IsOrdered
  answered : ∀ group stores prepared, world.group? id = some group → fleet.AtRest group stores →
    PreparedCall.prepare world.isLive computation arguments = .ok prepared →
    ∀ rank < group.size, Request.outcome? fleet.registry group.size world.environment computation
      arguments prepared stores rank = some (outcome rank, stores rank)
  alike : ∀ group, world.group? id = some group → ∀ rank < group.size, ∀ other < group.size,
    ∀ output another, outcome rank = .ok output → outcome other = .ok another →
      output.distribution = another.distribution

/-- The handles that a call gives. -/
def handed : Except Stop (CallArguments × Except Failure Answer) → List Handle
  | .ok (_, .ok answer) => answer.handles
  | _ => []

end SpawnerId

/-- The partition at a place of what a rank has computed. -/
def partitionAt (leaf : Nat) : Except Failure Output → Batch
  | .ok output => (output.partitions[leaf]?).getD (.empty { fields := [] })
  | .error _ => .empty { fields := [] }

/-- Neither the key nor the name of the handle was in use before. -/
structure Handle.IsNew (handle : Handle) (world : World) : Prop where
  keyed : world.shares.length ≤ handle.key
  named : ∃ call, world.calls ≤ call ∧ ∃ leaf, handle.id = .ofOutput (.ofCounter call) leaf

/-- The deposits behind the handles that a call gives: one for each partition of the outputs, in
order. -/
def Deposit.ofHandles (outcome : Nat → Except Failure Output) (handles : List Handle) :
    List Deposit :=
  handles.zipIdx.map fun entry =>
    { handle := entry.1, partition := fun rank => partitionAt entry.2 (outcome rank) }

/-- The deposits of handles have these handles. -/
theorem Deposit.map_ofHandles (outcome : Nat → Except Failure Output) (handles : List Handle) :
    (ofHandles outcome handles).map Deposit.handle = handles := by
  rw [ofHandles, List.map_map]
  exact handles.zipIdx_map_fst 0

namespace Custody

variable {id : SpawnerId} {world : World} {spawner : Spawner} {fleet : Fleet}
  {deposits : List Deposit}

/-- The deposit of the partitions at one place of the outputs of a call. -/
def newDeposit (id : SpawnerId) (world : World) (generation : Nat)
    (outcome : Nat → Except Failure Output) (leaf : Nat) : Deposit where
  handle := {
    key := world.shares.length + leaf
    id := .ofOutput (.ofCounter world.calls) leaf
    generation
    owner := id }
  partition rank := partitionAt leaf (outcome rank)

/-- The deposits of so many partitions of the outputs of a call. -/
def newDeposits (id : SpawnerId) (world : World) (generation : Nat)
    (outcome : Nat → Except Failure Output) (count : Nat) : List Deposit :=
  (List.range count).map (newDeposit id world generation outcome)

variable {group : Group} {output : Nat → Output} {outcome : Nat → Except Failure Output}

/-- What a rank has computed for a new deposit is the part of its output at this place. -/
theorem partition_newDeposit (id : SpawnerId) (world : World) (generation : Nat) {rank leaf : Nat}
    (came : outcome rank = .ok (output rank)) (inside : leaf < (output rank).partitions.length) :
    (newDeposit id world generation outcome leaf).partition rank =
      (output rank).partitions[leaf] := by
  show partitionAt leaf (outcome rank) = _
  rw [came, partitionAt, List.getElem?_eq_getElem inside, Option.getD_some]

/-- The handles of the results of a call are those of the new deposits. -/
theorem ofHandles_numbered (id : SpawnerId) (world : World) (generation size count : Nat)
    (outcome : Nat → Except Failure Output) (partitions : Nat → List Batch) :
    Deposit.ofHandles outcome (Handle.numbered id generation world.shares.length
        ((List.range count).map (.ofOutputs (.ofCounter world.calls) size partitions))) =
      newDeposits id world generation outcome count := by
  apply List.ext_getElem
  · simp [Deposit.ofHandles, Handle.numbered, newDeposits]
  · intro leaf inside _
    simp [Deposit.ofHandles, Handle.numbered, newDeposits, newDeposit, Partitioned.ofOutputs,
      Partitioned.ofRanks]

/-- No new deposit has a handle that was handed out before. -/
theorem isNew_newDeposits (generation count : Nat) {deposit : Deposit}
    (member : deposit ∈ newDeposits id world generation outcome count) :
    deposit.handle.IsNew world := by
  obtain ⟨leaf, -, rfl⟩ := List.mem_map.mp member
  exact ⟨Nat.le_add_right _ _, world.calls, Nat.le_refl _, leaf, rfl⟩

/-- The new deposits have different handles and different names. -/
theorem pairwise_newDeposits (generation count : Nat) :
    (newDeposits id world generation outcome count).Pairwise Deposit.Apart := by
  rw [newDeposits, List.pairwise_map]
  refine List.nodup_range.imp fun {first second} differ => ⟨fun same => differ ?_, fun same => differ ?_⟩
  · exact Nat.add_left_cancel same
  · exact (ResultId.ofOutput_inj same).2

/-- What was handed out before is apart from what is handed out now. -/
theorem apart_newDeposit (custody : Custody id world spawner fleet deposits)
    (outcome : Nat → Except Failure Output) {deposit : Deposit}
    (member : deposit ∈ deposits) (generation leaf : Nat) :
    deposit.Apart (newDeposit id world generation outcome leaf) := by
  obtain ⟨-, keyed, -, call, earlier, place, named⟩ := custody.recorded deposit member
  constructor
  · exact Nat.ne_of_lt (keyed.trans_le (Nat.le_add_right _ _))
  · intro same
    exact absurd (ResultId.ofOutput_inj (named.symm.trans same)).1 (Nat.ne_of_lt earlier)

/-- The coordinator after a call with so many results. -/
def granting (world : World) (count : Nat) : World := world.counted.handing count

/-- Who has shares of a handle that was there does not change when further handles are handed out.
-/
theorem isHeld_granting (world : World) (handle : Handle) (count : Nat)
    (keyed : handle.key < world.shares.length) :
    (granting world count).IsHeld handle ↔ world.IsHeld handle := by
  unfold World.IsHeld granting World.handing World.counted
  rw [List.getElem?_append_left keyed]

/-- Whoever made the call has a share of each new deposit. -/
theorem isHeld_newDeposit (generation count leaf : Nat) (inside : leaf < count) :
    (granting world count).IsHeld (newDeposit id world generation outcome leaf).handle := by
  refine ⟨0, ?_⟩
  show (world.shares ++ List.replicate count 1)[world.shares.length + leaf]? = some 1
  rw [List.getElem?_append_right (Nat.le_add_right _ _), Nat.add_sub_cancel_left,
    List.getElem?_replicate, if_pos inside]

/-- What the ranks store after a call in which no rank has failed. -/
structure Keeps (group : Group) (call : CallId) (outcome : Nat → Except Failure Output)
    (output : Nat → Output) (stores stored : Nat → ResultStore) : Prop where
  came : ∀ rank < group.size, outcome rank = .ok (output rank)
  alike : ∀ rank < group.size, (output rank).partitions.length = (output 0).partitions.length
  own : ∀ rank < group.size, ∀ leaf < (output 0).partitions.length,
    (stored rank).find? (.ofOutput call leaf) = (output rank).partitions[leaf]?
  others : ∀ rank < group.size, ∀ result,
    (∀ leaf < (output 0).partitions.length, result ≠ .ofOutput call leaf) →
      (stored rank).find? result = (stores rank).find? result

/-- The ranks store the partitions of a call beside what they stored before. -/
theorem stocks_granted (custody : Custody id world spawner fleet deposits)
    {stores stored : Nat → ResultStore}
    (stocks : group.Stocks stores deposits fun deposit => world.IsHeld deposit.handle ∨
      (group.generation, deposit.handle.id) ∈ spawner.pending)
    (keeps : Keeps group (.ofCounter world.calls) outcome output stores stored) :
    group.Stocks stored (deposits ++ newDeposits id world group.generation outcome
        (output 0).partitions.length) fun deposit =>
      (granting world (output 0).partitions.length).IsHeld deposit.handle ∨
        (group.generation, deposit.handle.id) ∈ spawner.pending := by
  intro rank inside result partition
  have before {deposit : Deposit} (member : deposit ∈ deposits) :=
    isHeld_granting world deposit.handle (output 0).partitions.length
      (custody.recorded deposit member).keyed
  by_cases new : ∃ leaf < (output 0).partitions.length,
      result = .ofOutput (.ofCounter world.calls) leaf
  · obtain ⟨leaf, listed, rfl⟩ := new
    have there : leaf < (output rank).partitions.length := by
      rwa [keeps.alike rank inside]
    have computed := partition_newDeposit id world group.generation (keeps.came rank inside) there
    rw [keeps.own rank inside leaf listed, List.getElem?_eq_getElem there]
    constructor
    · rintro same
      obtain rfl := Option.some.inj same
      exact ⟨_, List.mem_append_right _ (List.mem_map_of_mem (List.mem_range.mpr listed)), rfl, rfl,
        computed, .inl (isHeld_newDeposit _ _ leaf listed)⟩
    · rintro ⟨deposit, member, -, named, same, -⟩
      rcases List.mem_append.mp member with member | member
      · exact absurd named
          (custody.apart_newDeposit outcome member group.generation leaf).names
      · obtain ⟨place, -, rfl⟩ := List.mem_map.mp member
        obtain rfl := (ResultId.ofOutput_inj named).2
        rw [← same, computed]
  · have elsewhere : ∀ leaf < (output 0).partitions.length,
        result ≠ .ofOutput (.ofCounter world.calls) leaf := fun leaf listed same =>
      new ⟨leaf, listed, same⟩
    rw [keeps.others rank inside result elsewhere, stocks rank inside result partition]
    constructor
    · rintro ⟨deposit, member, own, named, same, stays⟩
      exact ⟨deposit, List.mem_append_left _ member, own, named, same,
        stays.imp_left (before member).mpr⟩
    · rintro ⟨deposit, member, own, named, same, stays⟩
      rcases List.mem_append.mp member with member | member
      · exact ⟨deposit, member, own, named, same, stays.imp_left (before member).mp⟩
      · obtain ⟨leaf, listed, rfl⟩ := List.mem_map.mp member
        exact absurd named.symm (elsewhere leaf (List.mem_range.mp listed))

/-- What a call hands out is added to the record. -/
theorem granted (custody : Custody id world spawner fleet deposits)
    (live : world.group? id = some group) {stores stored : Nat → ResultStore}
    (rests : fleet.AtRest group stores)
    (keeps : Keeps group (.ofCounter world.calls) outcome output stores stored) :
    Custody id (granting world (output 0).partitions.length) spawner (fleet.rest group stored)
      (deposits ++ newDeposits id world group.generation outcome (output 0).partitions.length) := by
  have running := custody.group?_eq.symm.trans live
  obtain ⟨manned, usable, dated, others, restsToo, stocks⟩ := custody.attended group running
  have keys : (granting world (output 0).partitions.length).shares.length =
      world.shares.length + (output 0).partitions.length := world.counted.shares_handing _
  refine ⟨custody.found, custody.noted, ?_, ?_, ?_, ?_⟩
  · intro deposit member
    rcases List.mem_append.mp member with member | member
    · obtain ⟨owned, keyed, dated, call, earlier, named⟩ := custody.recorded deposit member
      exact ⟨owned, keys ▸ keyed.trans_le (Nat.le_add_right _ _), dated, call,
        Nat.lt_succ_of_lt earlier, named⟩
    · obtain ⟨leaf, listed, rfl⟩ := List.mem_map.mp member
      exact ⟨rfl, keys ▸ Nat.add_lt_add_left (List.mem_range.mp listed) _, dated, world.calls,
        Nat.lt_succ_self _, leaf, rfl⟩
  · refine List.pairwise_append.mpr ⟨custody.apart, pairwise_newDeposits _ _, ?_⟩
    intro deposit member another new
    obtain ⟨leaf, -, rfl⟩ := List.mem_map.mp new
    exact custody.apart_newDeposit outcome member _ leaf
  · intro entry listed
    obtain ⟨deposit, member, same, lost⟩ := custody.pending entry listed
    refine ⟨deposit, List.mem_append_left _ member, same, fun held => lost ?_⟩
    exact (isHeld_granting world _ _ (custody.recorded deposit member).keyed).mp held
  · intro other runningToo
    obtain rfl := Option.some.inj (running.symm.trans runningToo)
    refine ⟨manned, usable, dated, stored, Fleet.atRest_rest rests.sized, ?_⟩
    exact custody.stocks_granted (stocks.of_agree fun rank inside =>
      rests.unique restsToo rank inside) keeps

/-- A call that was only counted keeps the record. -/
theorem counting (custody : Custody id world spawner fleet deposits) :
    Custody id world.counted spawner fleet deposits :=
  custody.of_held custody.found (Nat.le_succ _) (Nat.le_refl _) fun _ _ => Iff.rfl

/-- Nothing is added for a call that gives no handles. -/
theorem nothing (custody : Custody id world spawner fleet deposits) :
    Custody id world spawner fleet (deposits ++ Deposit.ofHandles outcome []) := by
  rwa [show Deposit.ofHandles outcome [] = [] from rfl, List.append_nil]

/-- A call that has failed hands out nothing and keeps the record. -/
theorem failed (custody : Custody id world spawner fleet deposits) {stores later : Nat → ResultStore}
    (rests : fleet.AtRest group stores) (same : ∀ rank < group.size, later rank = stores rank) :
    Custody id world.counted spawner (fleet.rest group later) deposits := by
  have agree : fleet.rest group later = fleet.rest group stores := by
    refine Fleet.place_congr _ _ _ _ fun rank inside => ?_
    rw [same rank (rests.sized ▸ inside)]
  rw [agree, rests.rest_eq]
  exact custody.counting

/-- A reply with the results of all ranks is made an answer, and what the handles in it stand for
lies in custody then. -/
theorem grants (custody : Custody id world spawner fleet deposits)
    (live : world.group? id = some group) {stores stored : Nat → ResultStore}
    (rests : fleet.AtRest group stores)
    (keeps : Keeps group (.ofCounter world.calls) outcome output stores stored) (reply : Reply)
    (results : reply.results = (List.range (output 0).partitions.length).map
      (.ofOutputs (.ofCounter world.calls) group.size fun rank => (output rank).partitions)) :
    ∃ answer, Acts (Answer.ofReply id group.generation reply) world.counted (fleet.rest group stored)
        answer (granting world (output 0).partitions.length) (fleet.rest group stored) ∧
      Custody id (granting world (output 0).partitions.length) spawner (fleet.rest group stored)
        (deposits ++ Deposit.ofHandles outcome answer.handles) ∧
      ∀ handle ∈ answer.handles, handle.IsNew world := by
  obtain ⟨answer, handing, handles⟩ :=
    SpawnerId.acts_ofReply id group.generation reply world.counted (fleet.rest group stored)
  have count : reply.results.length = (output 0).partitions.length := by
    rw [results, List.length_map, List.length_range]
  rw [count] at handing
  have named : Deposit.ofHandles outcome answer.handles =
      newDeposits id world group.generation outcome (output 0).partitions.length := by
    rw [handles, results]
    exact ofHandles_numbered id world group.generation group.size _ outcome _
  refine ⟨answer, handing, named ▸ custody.granted live rests keeps, fun handle member => ?_⟩
  have listed : handle ∈ (Deposit.ofHandles outcome answer.handles).map Deposit.handle :=
    (Deposit.map_ofHandles outcome answer.handles).symm ▸ member
  obtain ⟨deposit, among, rfl⟩ := List.mem_map.mp listed
  exact isNew_newDeposits group.generation _ (named ▸ among)

/-- How the talk with the group ends, what is made of that, and what lies in custody then. -/
theorem talks (custody : Custody id world spawner fleet deposits)
    (live : world.group? id = some group) (computation : Computation) (arguments : CallArguments)
    (outcome : Nat → Except Failure Output)
    (comes : id.ComesTo computation arguments world fleet outcome) :
    ∃ called answer later last,
      Tells (SpawnerId.callTalk computation arguments world) group fleet called last ∧
      Acts (id.answer group.generation called) world.counted last answer later last ∧
      Custody id later spawner last (deposits ++ Deposit.ofHandles outcome
        (SpawnerId.handed (.ok (called.arguments, answer)))) ∧
      last.registry = fleet.registry ∧ later.group? id = world.group? id ∧
      ∀ handle ∈ SpawnerId.handed (.ok (called.arguments, answer)), handle.IsNew world := by
  obtain ⟨manned, usable, -, stores, rests, -⟩ :=
    custody.attended group (custody.group?_eq.symm.trans live)
  have fair : Request.IsFair fleet.registry group.size stores
      (.submit world.isLive world.environment (.ofCounter world.calls) computation arguments) :=
    ⟨comes.ordered, fun prepared prepares =>
      ⟨outcome, stores, comes.answered group stores prepared live rests prepares,
        comes.alike group live⟩⟩
  obtain ⟨reaction, after, yields, spoken⟩ :=
    Request.tells_yields rests.sized manned usable stores _ fair
  rw [rests.rest_eq] at spoken
  obtain ⟨called, told, reacted⟩ := Tells.of_map spoken
  -- Refused, failed on some rank, or replied to: only a reply leaves something new on the ranks.
  cases yields with
  | refused _ _ _ _ _ failure unprepared =>
    obtain rfl := Reaction.ended.inj reacted
    have kept := custody.failed rests fun _ _ => rfl
    exact ⟨_, .error failure, world.counted, _, told, rfl, kept.nothing, rfl, rfl,
      List.forall_mem_nil _⟩
  | failed _ _ _ _ _ prepared found _ failure prepares answered =>
    obtain rfl := Reaction.ended.inj reacted
    have kept := custody.failed rests fun rank inside => by
      have known := comes.answered group stores prepared live rests prepares rank inside
      exact (Prod.mk.inj (Option.some.inj (answered rank inside |>.symm.trans known))).2
    exact ⟨_, .error failure, world.counted, _, told, rfl, kept.nothing, rfl, rfl,
      List.forall_mem_nil _⟩
  | replied _ _ _ _ _ prepared output before _ reply prepares answered _ results keeps leaves =>
    obtain rfl := Reaction.ended.inj reacted
    have both (rank : Nat) (inside : rank < group.size) :
        .ok (output rank) = outcome rank ∧ before rank = stores rank := by
      have known := comes.answered group stores prepared live rests prepares rank inside
      exact Prod.mk.inj (Option.some.inj ((answered rank inside).symm.trans known))
    have alike (rank : Nat) (inside : rank < group.size) :
        (output rank).partitions.length = (output 0).partitions.length :=
      Output.partitions_of_distribution _ _ (comes.alike group live rank inside 0 manned _ _
        (both rank inside).1.symm (both 0 manned).1.symm)
    have keeps : Keeps group (.ofCounter world.calls) outcome output stores after := {
      came := fun rank inside => (both rank inside).1.symm
      alike
      own := keeps
      others := fun rank inside result apart => by
        rw [leaves rank inside result apart, (both rank inside).2] }
    obtain ⟨answer, handing, kept, new⟩ := custody.grants live rests keeps reply results
    exact ⟨_, .ok answer, granting world (output 0).partitions.length, _, told,
      Acts.bind handing (Acts.pure (.ok answer : Except Failure Answer) _ _), kept, rfl, rfl, new⟩

/-- A call keeps the record and adds to it what it hands out. -/
theorem perform (custody : Custody id world spawner fleet deposits) (computation : Computation)
    (arguments : CallArguments) (outcome : Nat → Except Failure Output)
    (comes : id.ComesTo computation arguments world fleet outcome) :
    ∃ result later last, Acts (id.perform computation arguments).run world fleet result later last ∧
      Custody id later spawner last
        (deposits ++ Deposit.ofHandles outcome (SpawnerId.handed result)) ∧
      last.registry = fleet.registry ∧ later.group? id = world.group? id ∧
      ∀ handle ∈ SpawnerId.handed result, handle.IsNew world := by
  cases live : world.group? id with
  | none =>
    refine ⟨.error (.failed SpawnerId.notStarted), world.counted, fleet, ?_,
      custody.counting.nothing, rfl, live, List.forall_mem_nil _⟩
    unfold Acts
    rw [SpawnerId.run_perform_none id computation arguments world live]
    rfl
  | some group =>
    obtain ⟨called, answer, later, last, told, answers, kept, registered, same, new⟩ :=
      custody.talks live computation arguments outcome comes
    have usable := (custody.attended group (custody.group?_eq.symm.trans live)).usable
    have noted : world.counted.noted id group = world.counted :=
      World.noted_self _ id group live
    refine ⟨_, later, last, SpawnerId.acts_perform id live called told answer later
      (noted.symm ▸ answers) (fun other running => ?_), kept, registered, same.trans live, new⟩
    obtain rfl := Option.some.inj ((same.trans live).symm.trans running)
    exact usable

end Custody

end Rankwise
