import Mathlib.Data.List.Pairwise
import Rankwise.Proofs.ResultNames
import Rankwise.Proofs.Settling

/-!
# Results in custody

A result that a call hands out lies in custody of the workers until the last share of its handle is
given up. The record of all that was ever handed out is a list of `Deposit`s, each with the
partition that every rank computed for it. `Custody` says how the coordinator and the workers stand
to that record: every rank of the live group stores exactly the deposits of its generation of which
somebody has a share or which are still to be freed, each as it was computed.

Everything that is done with a spawner keeps the record: making the group ready, freeing results,
sharing and giving up handles, also while the group is in use, fetching results, ending the group,
and calls, which add to the record what they hand out.
-/

namespace Rankwise

/-- A result that was handed out: its handle, and what each rank has computed for it. -/
structure Deposit where
  handle : Handle
  partition : Nat → Batch

namespace World

variable (world : World) (handle other : Handle)

/-- Somebody has a share of the handle. -/
def IsHeld : Prop := ∃ others, world.shares[handle.key]? = some (others + 1)

/-- Whether somebody has a share depends on the key of the handle alone. -/
theorem isHeld_iff_of_key (same : other.key = handle.key) :
    world.IsHeld other ↔ world.IsHeld handle := by
  unfold IsHeld
  rw [same]

/-- The coordinator after a share was taken. -/
def sharing : World := { world with shares := world.shares.modify handle.key (· + 1) }

/-- The coordinator after a share was given up of which so many others are left. -/
def leaving (others : Nat) : World := { world with shares := world.shares.set handle.key others }

/-- Taking a further share of a handle does not change which handles are held. -/
theorem isHeld_sharing (held : world.IsHeld handle) :
    (world.sharing handle).IsHeld other ↔ world.IsHeld other := by
  by_cases here : other.key = handle.key
  · rw [isHeld_iff_of_key world handle other here, isHeld_iff_of_key _ handle other here]
    obtain ⟨others, counted⟩ := held
    refine ⟨fun _ => ⟨others, counted⟩, fun _ => ⟨others + 1, ?_⟩⟩
    rw [sharing, List.getElem?_modify_eq, counted]
    rfl
  · unfold IsHeld sharing
    rw [List.getElem?_modify_ne _ _ (Ne.symm here)]

/-- To give up a share of one handle has no part in who has shares of another one. -/
theorem isHeld_leaving_of_ne (others : Nat) (apart : other.key ≠ handle.key) :
    (world.leaving handle others).IsHeld other ↔ world.IsHeld other := by
  unfold IsHeld leaving
  rw [List.getElem?_set_ne (Ne.symm apart)]

/-- Behind a share that was given up the handle is held if any are left. -/
theorem isHeld_leaving (others before : Nat)
    (counted : world.shares[handle.key]? = some (before + 1)) :
    (world.leaving handle others).IsHeld handle ↔ 0 < others := by
  obtain ⟨inside, -⟩ := List.getElem?_eq_some_iff.mp counted
  unfold IsHeld leaving
  rw [List.getElem?_set_self inside]
  constructor
  · rintro ⟨left, same⟩
    obtain rfl := Option.some.inj same
    exact Nat.succ_pos left
  · intro some
    exact ⟨others - 1, by rw [Nat.sub_add_cancel some]⟩

end World

namespace Deposit

/-- The record of a deposit fits the spawner. -/
structure IsRecorded (deposit : Deposit) (id : SpawnerId) (world : World) (spawner : Spawner) :
    Prop where
  owned : deposit.handle.owner = id
  keyed : deposit.handle.key < world.shares.length
  dated : deposit.handle.generation ≤ spawner.lastGeneration
  named : ∃ call < world.calls, ∃ leaf, deposit.handle.id = .ofOutput (.ofCounter call) leaf

/-- Two deposits have different handles and different names. -/
structure Apart (first second : Deposit) : Prop where
  keys : first.handle.key ≠ second.handle.key
  names : first.handle.id ≠ second.handle.id

instance : Std.Symm Apart where
  symm _ _ apart := ⟨apart.keys.symm, apart.names.symm⟩

variable {deposits : List Deposit} {first second : Deposit}

/-- No two deposits have handles of one key. -/
theorem eq_of_key (apart : deposits.Pairwise Apart) (member : first ∈ deposits)
    (memberToo : second ∈ deposits) (same : first.handle.key = second.handle.key) :
    first = second := by
  by_contra differ
  exact (apart.forall member memberToo differ).keys same

/-- No two deposits have results of one name. -/
theorem eq_of_name (apart : deposits.Pairwise Apart) (member : first ∈ deposits)
    (memberToo : second ∈ deposits) (same : first.handle.id = second.handle.id) :
    first = second := by
  by_contra differ
  exact (apart.forall member memberToo differ).names same

end Deposit

namespace Group

/-- The ranks of the group store exactly those deposits of its generation that are to stay, each as
it was computed. -/
def Stocks (group : Group) (stores : Nat → ResultStore) (deposits : List Deposit)
    (stays : Deposit → Prop) : Prop :=
  ∀ rank < group.size, ∀ result partition, (stores rank).find? result = some partition ↔
    ∃ deposit ∈ deposits, deposit.handle.generation = group.generation ∧
      deposit.handle.id = result ∧ deposit.partition rank = partition ∧ stays deposit

/-- What is to stay is a matter of the deposits of the own generation only. -/
theorem Stocks.congr {group : Group} {stores : Nat → ResultStore} {deposits : List Deposit}
    {stays remains : Deposit → Prop} (stocks : group.Stocks stores deposits stays)
    (same : ∀ deposit ∈ deposits, deposit.handle.generation = group.generation →
      (stays deposit ↔ remains deposit)) : group.Stocks stores deposits remains := by
  intro rank inside result partition
  rw [stocks rank inside result partition]
  constructor
  · rintro ⟨deposit, member, own, named, kept, stays⟩
    exact ⟨deposit, member, own, named, kept, (same deposit member own).mp stays⟩
  · rintro ⟨deposit, member, own, named, kept, remains⟩
    exact ⟨deposit, member, own, named, kept, (same deposit member own).mpr remains⟩

/-- What the ranks beyond the group store does not matter. -/
theorem Stocks.of_agree {group : Group} {stores others : Nat → ResultStore}
    {deposits : List Deposit} {stays : Deposit → Prop} (stocks : group.Stocks stores deposits stays)
    (agree : ∀ rank < group.size, others rank = stores rank) :
    group.Stocks others deposits stays := by
  intro rank inside result partition
  rw [agree rank inside]
  exact stocks rank inside result partition

/-- The workers of the group wait for a command, and they store what they should store. -/
structure IsAttended (group : Group) (world : World) (spawner : Spawner) (fleet : Fleet)
    (deposits : List Deposit) : Prop where
  manned : 0 < group.size
  usable : group.isUnusable = false
  dated : group.generation ≤ spawner.lastGeneration
  stocked : ∃ stores, fleet.AtRest group stores ∧ group.Stocks stores deposits fun deposit =>
    world.IsHeld deposit.handle ∨ (group.generation, deposit.handle.id) ∈ spawner.pending

end Group

/-- Coordinator and workers stand to the record of what was handed out as they should. -/
structure Custody (id : SpawnerId) (world : World) (spawner : Spawner) (fleet : Fleet)
    (deposits : List Deposit) : Prop where
  found : world.spawner? id = some spawner
  noted : spawner.liveGeneration = spawner.live?.map Group.generation
  recorded : ∀ deposit ∈ deposits, deposit.IsRecorded id world spawner
  apart : deposits.Pairwise Deposit.Apart
  /-- Only deposits of which nobody has a share are to be freed. -/
  pending : ∀ entry ∈ spawner.pending, ∃ deposit ∈ deposits,
    entry = (deposit.handle.generation, deposit.handle.id) ∧ ¬ world.IsHeld deposit.handle
  attended : ∀ group, spawner.live? = some group →
    group.IsAttended world spawner fleet deposits

namespace Custody

variable {id : SpawnerId} {world later : World} {spawner : Spawner} {fleet : Fleet}
  {deposits : List Deposit}

/-- The live group of the world is that of the spawner on record. -/
theorem group?_eq (custody : Custody id world spawner fleet deposits) :
    world.group? id = spawner.live? := by
  rw [World.group?_eq, custody.found, Option.bind_some]

/-- Which deposits are held is all that matters of the shares. -/
theorem of_held (custody : Custody id world spawner fleet deposits)
    (found : later.spawner? id = some spawner) (calls : world.calls ≤ later.calls)
    (keys : world.shares.length ≤ later.shares.length)
    (held : ∀ deposit ∈ deposits, later.IsHeld deposit.handle ↔ world.IsHeld deposit.handle) :
    Custody id later spawner fleet deposits where
  found := found
  noted := custody.noted
  recorded deposit member := by
    obtain ⟨owned, keyed, dated, call, earlier, named⟩ := custody.recorded deposit member
    exact ⟨owned, keyed.trans_le keys, dated, call, earlier.trans_le calls, named⟩
  apart := custody.apart
  pending entry listed := by
    obtain ⟨deposit, member, same, lost⟩ := custody.pending entry listed
    exact ⟨deposit, member, same, fun stays => lost ((held deposit member).mp stays)⟩
  attended group live := by
    obtain ⟨manned, usable, dated, stores, rests, stocks⟩ := custody.attended group live
    refine ⟨manned, usable, dated, stores, rests, stocks.congr fun deposit member _ => ?_⟩
    rw [held deposit member]

/-- Taking a share keeps the record. -/
theorem sharing (custody : Custody id world spawner fleet deposits) (handle : Handle)
    (held : world.IsHeld handle) : Custody id (world.sharing handle) spawner fleet deposits := by
  refine custody.of_held custody.found (Nat.le_refl _) ?_ fun deposit _ =>
    world.isHeld_sharing handle deposit.handle held
  rw [World.sharing, List.length_modify]

/-- Giving up a share keeps the record if somebody has another one. -/
theorem leaving_some (custody : Custody id world spawner fleet deposits) (handle : Handle)
    (others : Nat) (counted : world.shares[handle.key]? = some (others + 1)) (some : 0 < others) :
    Custody id (world.leaving handle others) spawner fleet deposits := by
  refine custody.of_held custody.found (Nat.le_refl _) ?_ fun deposit _ => ?_
  · rw [World.leaving, List.length_set]
  · by_cases here : deposit.handle.key = handle.key
    · rw [World.isHeld_iff_of_key world handle deposit.handle here,
        World.isHeld_iff_of_key _ handle deposit.handle here]
      exact iff_of_true ((world.isHeld_leaving handle others others counted).mpr some)
        ⟨others, counted⟩
    · exact world.isHeld_leaving_of_ne handle deposit.handle others here

/-- What a spawner is like once it was noted that a result is to be freed. -/
def noting (generation : Nat) (result : ResultId) (spawner : Spawner) : Spawner :=
  if spawner.liveGeneration = some generation then
    { spawner with pending := spawner.pending ++ [(generation, result)] }
  else spawner

section Noting

variable (generation : Nat) (result : ResultId) (spawner : Spawner)

/-- To note a result is to add to what is to be freed, if at all. -/
theorem noting_eq : noting generation result spawner = { spawner with
    pending := if spawner.liveGeneration = some generation then
      spawner.pending ++ [(generation, result)] else spawner.pending } := by
  unfold noting
  split <;> rfl

/-- To note a result leaves the shares of the spawner as they are. -/
@[simp] theorem owners_noting : (noting generation result spawner).owners = spawner.owners := by
  rw [noting_eq]

/-- To note a result leaves the group as it is. -/
@[simp] theorem state_noting : (noting generation result spawner).state = spawner.state := by
  rw [noting_eq]

/-- To note a result leaves the generation that is noted as live as it is. -/
@[simp] theorem liveGeneration_noting :
    (noting generation result spawner).liveGeneration = spawner.liveGeneration := by
  rw [noting_eq]

/-- To note a result uses up no generation. -/
@[simp] theorem lastGeneration_noting :
    (noting generation result spawner).lastGeneration = spawner.lastGeneration := by
  rw [noting_eq]

/-- To note a result leaves the live group as it is. -/
@[simp] theorem live?_noting : (noting generation result spawner).live? = spawner.live? := by
  rw [Spawner.live?, Spawner.live?, state_noting]

/-- Only for the live group it is noted what is to be freed. -/
theorem mem_pending_noting (entry : Nat × ResultId) :
    entry ∈ (noting generation result spawner).pending ↔ entry ∈ spawner.pending ∨
      spawner.liveGeneration = some generation ∧ entry = (generation, result) := by
  unfold noting
  split
  case isTrue same => rw [List.mem_append, List.mem_singleton, and_iff_right same]
  case isFalse differ => exact (or_iff_left fun ⟨same, _⟩ => differ same).symm

end Noting

/-- Giving up the last share keeps the record if it is noted that the result is to be freed. The
result stays where it is until then. -/
theorem leaving_none (custody : Custody id world spawner fleet deposits) (deposit : Deposit)
    (member : deposit ∈ deposits) (counted : world.shares[deposit.handle.key]? = some 1) :
    Custody id ((world.leaving deposit.handle 0).change id
        (noting deposit.handle.generation deposit.handle.id))
      (noting deposit.handle.generation deposit.handle.id spawner) fleet deposits := by
  have lost : ¬ (world.leaving deposit.handle 0).IsHeld deposit.handle := fun stays =>
    Nat.lt_irrefl 0 ((world.isHeld_leaving deposit.handle 0 0 counted).mp stays)
  have others (other : Deposit) (memberToo : other ∈ deposits) (differ : other ≠ deposit) :
      (world.leaving deposit.handle 0).IsHeld other.handle ↔ world.IsHeld other.handle :=
    world.isHeld_leaving_of_ne _ _ _ fun same =>
      differ (Deposit.eq_of_key custody.apart memberToo member same)
  have found : ((world.leaving deposit.handle 0).change id
      (noting deposit.handle.generation deposit.handle.id)).spawner? id =
        some (noting deposit.handle.generation deposit.handle.id spawner) := by
    rw [World.spawner?_change _ id _ (owners_noting _ _)]
    exact congrArg (Option.map _) custody.found
  -- Only this result is affected. It is to be freed if its group is live, and dropped otherwise.
  refine ⟨found, ?_, ?_, custody.apart, ?_, ?_⟩
  · rw [liveGeneration_noting, live?_noting]
    exact custody.noted
  · intro other memberToo
    obtain ⟨owned, keyed, dated, named⟩ := custody.recorded other memberToo
    refine ⟨owned, ?_, (lastGeneration_noting _ _ _).symm ▸ dated, named⟩
    show _ < (world.shares.set deposit.handle.key 0).length
    rwa [List.length_set]
  · intro entry listed
    rcases (mem_pending_noting _ _ _ entry).mp listed with before | ⟨-, rfl⟩
    · obtain ⟨other, memberToo, same, free⟩ := custody.pending entry before
      refine ⟨other, memberToo, same, fun stays => ?_⟩
      by_cases differ : other = deposit
      · exact lost (differ ▸ stays)
      · exact free ((others other memberToo differ).mp stays)
    · exact ⟨deposit, member, rfl, lost⟩
  · intro group live
    rw [live?_noting] at live
    obtain ⟨manned, usable, dated, stores, rests, stocks⟩ := custody.attended group live
    have generation : spawner.liveGeneration = some group.generation := by
      rw [custody.noted, live]
      rfl
    refine ⟨manned, usable, (lastGeneration_noting _ _ _).symm ▸ dated, stores, rests,
      stocks.congr fun other memberToo own => ?_⟩
    rw [mem_pending_noting]
    -- The result of the last share stays, as it is to be freed from now on instead of held.
    by_cases differ : other = deposit
    · subst differ
      exact iff_of_true (.inl ⟨0, counted⟩) (.inr (.inr ⟨own ▸ generation, by rw [own]⟩))
    · have names : other.handle.id ≠ deposit.handle.id := fun same =>
        differ (Deposit.eq_of_name custody.apart memberToo member same)
      have unnoted : ¬ (spawner.liveGeneration = some deposit.handle.generation ∧
          (group.generation, other.handle.id) = (deposit.handle.generation, deposit.handle.id)) :=
        fun noted => names (Prod.mk.inj noted.2).2
      exact or_congr (others other memberToo differ).symm (or_iff_left unnoted).symm

end Custody

/-! Giving up shares. -/

namespace Handle

/-- Gives up a share while the group is in use. With the last one it is noted that the result is to
be freed. -/
def abandon (handle : Handle) : Acting Unit := do
  match (← get).shares[handle.key]? with
  | some (others + 1) =>
    modify fun world => { world with shares := world.shares.set handle.key others }
    if others = 0 then handle.owner.notePending handle.generation handle.id
  | _ => return

/-- A share is given up if there is one, and with the last one the result is noted. -/
theorem abandon_cases (handle : Handle) (world : World) :
    handle.abandon.run world = (match world.shares[handle.key]? with
      | some (others + 1) => do
        modify fun world => { world with shares := world.shares.set handle.key others }
        if others = 0 then handle.owner.notePending handle.generation handle.id
      | _ => Pure.pure () : Acting Unit).run world := rfl

variable {world middle : World} {fleet : Fleet}

/-- Giving up a share is giving it up as if the group were in use, at most followed by freeing what
is to be freed. -/
theorem acts_release (handle : Handle) (spawner : Spawner)
    (found : world.spawner? handle.owner = some spawner)
    (abandoned : Acts handle.abandon world fleet () middle fleet) :
    Acts handle.release world fleet () middle fleet ∨
      ∀ later last, Acts handle.owner.flush middle fleet () later last →
        Acts handle.release world fleet () later last := by
  unfold Acts at abandoned ⊢
  rw [abandon_cases] at abandoned
  rw [SpawnerId.release_cases]
  -- Only where the last share of a result of the live generation is given up is something freed.
  rcases counted : world.shares[handle.key]? with _ | _ | others
  · rw [counted] at abandoned
    exact .inl abandoned
  · rw [counted] at abandoned
    exact .inl abandoned
  · rw [counted] at abandoned
    dsimp only at abandoned ⊢
    by_cases lastOne : others = 0
    case neg =>
      rw [if_neg lastOne] at abandoned ⊢
      exact .inl abandoned
    case pos =>
      subst lastOne
      have lessened : Acts (modify fun world => { world with
        shares := world.shares.set handle.key 0 } : Acting Unit) world fleet ()
          (world.leaving handle 0) fleet := rfl
      have noted : Acts (handle.owner.notePending handle.generation handle.id)
          (world.leaving handle 0) fleet () ((world.leaving handle 0).change handle.owner
            (Custody.noting handle.generation handle.id)) fleet := rfl
      obtain ⟨-, rfl, -⟩ := Acts.unique (Acts.bind lessened noted) abandoned
      by_cases live : spawner.liveGeneration = some handle.generation
      · refine .inr fun later last flushed => Acts.bind lessened ?_
        unfold Acts
        rw [if_pos rfl, SpawnerId.free_cases,
          show (world.leaving handle 0).spawner? handle.owner = some spawner from found]
        dsimp only
        rw [if_pos live]
        exact Acts.bind noted flushed
      · have unchanged : (world.leaving handle 0).change handle.owner
            (Custody.noting handle.generation handle.id) = world.leaving handle 0 := by
          apply World.change_eq
          intro known there
          obtain ⟨thereToo, -⟩ := Option.filter_eq_some_iff.mp found
          obtain rfl := Option.some.inj (there.symm.trans thereToo)
          exact if_neg live
        refine .inl (Acts.bind lessened ?_)
        unfold Acts
        rw [if_pos rfl, SpawnerId.free_cases,
          show (world.leaving handle 0).spawner? handle.owner = some spawner from found, unchanged]
        dsimp only
        rw [if_neg live]
        rfl

end Handle

namespace Custody

variable {id : SpawnerId} {world : World} {spawner : Spawner} {fleet : Fleet}
  {deposits : List Deposit}

/-- Giving up a share while the group is in use keeps the record. -/
theorem abandon (custody : Custody id world spawner fleet deposits) (deposit : Deposit)
    (member : deposit ∈ deposits) :
    ∃ later after, Acts deposit.handle.abandon world fleet () later fleet ∧
      Custody id later after fleet deposits := by
  have owned := (custody.recorded deposit member).owned
  unfold Acts
  rw [Handle.abandon_cases, owned]
  split
  case h_2 => exact ⟨world, spawner, rfl, custody⟩
  case h_1 others counted =>
    have lessened : Acts (modify fun world => { world with
      shares := world.shares.set deposit.handle.key others } : Acting Unit) world fleet ()
        (world.leaving deposit.handle others) fleet := rfl
    by_cases lastOne : others = 0
    · subst lastOne
      exact ⟨_, _, Acts.bind lessened rfl, custody.leaving_none deposit member counted⟩
    · refine ⟨_, _, Acts.bind lessened ?_,
        custody.leaving_some deposit.handle others counted (Nat.pos_of_ne_zero lastOne)⟩
      rw [if_neg lastOne]
      exact Acts.pure () _ fleet

/-- To free nothing any more keeps the record, if the workers store what they should store then. -/
theorem emptied (custody : Custody id world spawner fleet deposits) (last : Fleet)
    (attended : ∀ group, spawner.live? = some group →
      group.IsAttended (world.emptied id) { spawner with pending := [] } last deposits) :
    Custody id (world.emptied id) { spawner with pending := [] } last deposits where
  found := by
    rw [World.emptied, World.spawner?_change world id (fun spawner => { spawner with pending := [] })
      fun _ => rfl, custody.found]
    rfl
  noted := custody.noted
  recorded deposit member := by
    obtain ⟨owned, keyed, dated, named⟩ := custody.recorded deposit member
    exact ⟨owned, keyed, dated, named⟩
  apart := custody.apart
  pending := List.forall_mem_nil _
  attended := attended

/-- Freeing results keeps the record, and nothing is to be freed any more. -/
theorem flush (custody : Custody id world spawner fleet deposits) :
    ∃ last, Acts id.flush world fleet () (world.emptied id) last ∧
      Custody id (world.emptied id) { spawner with pending := [] } last deposits ∧
      last.registry = fleet.registry := by
  -- Without a live group nothing lies on any worker, and what waits to be freed is forgotten.
  cases live : spawner.live? with
  | none =>
    exact ⟨fleet, id.acts_flush_idle spawner custody.found (custody.group?_eq.trans live),
      custody.emptied fleet (fun group running => by cases live.symm.trans running), rfl⟩
  | some group =>
    obtain ⟨manned, usable, dated, stores, rests, stocks⟩ := custody.attended group live
    obtain ⟨freed, flushed, left⟩ := id.acts_flush spawner custody.found group
      (custody.group?_eq.trans live) usable stores rests
    refine ⟨_, flushed, custody.emptied _ fun other running => ?_, rfl⟩
    obtain rfl := Option.some.inj (live.symm.trans running)
    refine ⟨manned, usable, dated, freed, Fleet.atRest_rest rests.sized, ?_⟩
    intro rank inside result partition
    rw [left]
    constructor
    · intro kept
      split at kept
      case isTrue => cases kept
      case isFalse stays =>
        obtain ⟨deposit, member, own, named, same, held | listed⟩ :=
          (stocks rank inside result partition).mp kept
        · exact ⟨deposit, member, own, named, same, .inl held⟩
        · exact absurd (named ▸ listed) stays
    · rintro ⟨deposit, member, own, named, same, held | listed⟩
      · rw [if_neg]
        · exact (stocks rank inside result partition).mpr
            ⟨deposit, member, own, named, same, .inl held⟩
        · intro listed
          obtain ⟨other, memberToo, names, free⟩ := custody.pending _ listed
          obtain rfl := Deposit.eq_of_name custody.apart member memberToo
            (named.trans (Prod.mk.inj names).2)
          exact free held
      · cases listed

/-- Giving up a share keeps the record. -/
theorem release (custody : Custody id world spawner fleet deposits) (deposit : Deposit)
    (member : deposit ∈ deposits) :
    ∃ later after last, Acts deposit.handle.release world fleet () later last ∧
      Custody id later after last deposits ∧ last.registry = fleet.registry := by
  have owned := (custody.recorded deposit member).owned
  obtain ⟨middle, between, abandoned, kept⟩ := custody.abandon deposit member
  rcases deposit.handle.acts_release spawner (owned ▸ custody.found) abandoned with
    released | released
  · exact ⟨middle, between, fleet, released, kept, rfl⟩
  · obtain ⟨last, flushed, after, registered⟩ := kept.flush
    exact ⟨_, _, last, released _ last (owned ▸ flushed), after, registered⟩

/-- Using up a generation keeps the record. -/
theorem counted (custody : Custody id world spawner fleet deposits) (idle : spawner.live? = none) :
    Custody id (id.counted spawner world)
      { spawner with lastGeneration := spawner.lastGeneration + 1 } fleet deposits where
  found := by
    rw [SpawnerId.counted, World.spawner?_change world id (fun known =>
      { known with lastGeneration := spawner.lastGeneration + 1 }) fun _ => rfl, custody.found]
    rfl
  noted := custody.noted
  recorded deposit member := by
    obtain ⟨owned, keyed, dated, named⟩ := custody.recorded deposit member
    exact ⟨owned, keyed, dated.trans (Nat.le_succ _), named⟩
  apart := custody.apart
  pending := custody.pending
  attended group live := by cases idle.symm.trans live

/-- Starting a group keeps the record: its workers store nothing, and nothing of its generation was
handed out before. -/
theorem manned (custody : Custody id world spawner fleet deposits) (idle : spawner.live? = none)
    (group : Group) (manned : 0 < group.size) (usable : group.isUnusable = false)
    (generation : group.generation = spawner.lastGeneration + 1) (last : Fleet)
    (rests : last.AtRest group fun _ => []) :
    Custody id (id.manned spawner group world) { spawner with
      lastGeneration := spawner.lastGeneration + 1
      state := .live group
      liveGeneration := some group.generation } last deposits where
  found := by
    rw [SpawnerId.manned, World.spawner?_change _ id (fun known =>
      { known with state := .live group, liveGeneration := some group.generation }) fun _ => rfl,
      (custody.counted idle).found]
    rfl
  noted := rfl
  recorded deposit member := by
    obtain ⟨owned, keyed, dated, named⟩ := custody.recorded deposit member
    exact ⟨owned, keyed, dated.trans (Nat.le_succ _), named⟩
  apart := custody.apart
  pending := custody.pending
  attended other live := by
    obtain rfl := Option.some.inj (show some group = some other from live)
    refine ⟨manned, usable, generation.le, fun _ => [], rests, ?_⟩
    intro rank _ result partition
    constructor
    · intro kept
      cases kept
    · rintro ⟨deposit, member, own, -⟩
      have dated := (custody.recorded deposit member).dated
      omega

/-- Making sure of a group keeps the record. -/
theorem ensureGroup (custody : Custody id world spawner fleet deposits) :
    ∃ answer later after last, Acts id.ensureGroup.run world fleet answer later last ∧
      Custody id later after last deposits ∧ last.registry = fleet.registry := by
  unfold Acts
  cases live : spawner.live? with
  | some group =>
    rw [id.run_ensureGroup_live world group (custody.group?_eq.trans live)]
    exact ⟨_, world, spawner, fleet, rfl, custody, rfl⟩
  | none =>
    rw [id.run_ensureGroup_launch world spawner custody.found (custody.group?_eq.trans live),
      id.run_launch]
    cases count : SpawnerId.workers? spawner world with
    | error failure => exact ⟨_, _, _, fleet, rfl, custody.counted live, rfl⟩
    | ok workers =>
      have kept := custody.manned live {
          link := ⟨fleet.sizes.length⟩, size := workers, generation := spawner.lastGeneration + 1 }
        (Environment.workerCount_pos _ _ _ _ count) rfl rfl _
        (fleet.atRest_launch (SpawnerId.request spawner workers world) (spawner.lastGeneration + 1))
      exact ⟨_, _, _, _, rfl, kept, rfl⟩

end Custody

end Rankwise
