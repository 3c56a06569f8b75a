import Rankwise.Proofs.Changes
import Rankwise.Proofs.Placement

/-!
# Several spawners side by side

Each spawner has a record of its own of what was handed out to its clients. `Custodies` says that
coordinator and workers stand to all records as they should: handles and names of different spawners
are apart, and so are the workers of their live groups. What is done with one spawner keeps the
record of every other one (`Custody.spared`), and so all of them together (`Custodies.acting`).

The coordinator keeps tables until workers need them. A kept table goes on having its share of the
result behind its frame, and a copy of it that was put onto workers consists of its blocks while
their group is live (`PendingTable.IsKnown`).
-/

namespace Rankwise

namespace Fleet.AtRest

variable {fleet last : Fleet} {group : Group} {stores : Nat → ResultStore}

/-- A group with workers has been started. -/
theorem inside (rests : fleet.AtRest group stores) (manned : 0 < group.size) :
    group.link.index < fleet.sizes.length := by
  by_contra beyond
  have sized := rests.sized
  rw [Fleet.size, List.getElem?_eq_none (Nat.le_of_not_lt beyond)] at sized
  exact absurd sized (Nat.ne_of_lt manned)

/-- Workers that did not go on are still at rest. -/
theorem spared (rests : fleet.AtRest group stores) (manned : 0 < group.size)
    (registered : last.registry = fleet.registry) (sizes : fleet.sizes <+: last.sizes)
    (line : last.line group.link = fleet.line group.link) : last.AtRest group stores where
  sized := by
    obtain ⟨more, same⟩ := sizes
    rw [← rests.sized, Fleet.size, Fleet.size, ← same,
      List.getElem?_append_left (rests.inside manned)]
  resting rank below := by
    rw [line, rests.resting rank below, Fleet.worker, Fleet.worker, registered]

end Fleet.AtRest

namespace SpawnerId.Spares

variable {id other : SpawnerId} {touches : Nat → Prop} {world later : World} {fleet last : Fleet}

/-- Other spawners are as they were. -/
theorem spawner? (spares : id.Spares touches world fleet later last) (apart : other ≠ id) :
    later.spawner? other = world.spawner? other :=
  congrArg (Option.filter Spawner.exists?) (spares.records other apart)

/-- So are their live groups. -/
theorem group? (spares : id.Spares touches world fleet later last) (apart : other ≠ id) :
    later.group? other = world.group? other := by
  rw [World.group?_eq, World.group?_eq, spares.spawner? apart]

end SpawnerId.Spares

namespace Custody

variable {id other : SpawnerId} {touches : Nat → Prop} {world later : World} {fleet last : Fleet}
  {spawner : Spawner} {deposits : List Deposit}

/-- What is done with another spawner keeps the record. -/
theorem spared (custody : Custody other world spawner fleet deposits)
    (spares : id.Spares touches world fleet later last) (apart : other ≠ id)
    (free : ∀ deposit ∈ deposits, ¬ touches deposit.handle.key)
    (links : ∀ group another, world.group? other = some group → world.group? id = some another →
      another.link ≠ group.link) : Custody other later spawner last deposits := by
  have kept : Custody other later spawner fleet deposits :=
    custody.of_held ((spares.spawner? apart).trans custody.found) spares.keeps.calls
      spares.keeps.keys fun deposit member => by
        rw [World.IsHeld, World.IsHeld, spares.keeps.shares _
          (custody.recorded deposit member).keyed (free deposit member)]
  refine ⟨kept.found, kept.noted, kept.recorded, kept.apart, kept.pending, fun group live => ?_⟩
  obtain ⟨manned, usable, dated, stores, rests, stocks⟩ := kept.attended group live
  refine ⟨manned, usable, dated, stores, ?_, stocks⟩
  refine rests.spared manned spares.registered spares.sizes (spares.lines _ (rests.inside manned) ?_)
  exact fun another running => links group another (custody.group?_eq.trans live) running

end Custody

/-! Tables that are kept until the workers need them. -/

/-- The handle stands for a result that was handed out, and somebody has a share of it as long as
its group is live. -/
def Handle.IsKept (handle : Handle) (world : World) (deposits : SpawnerId → List Deposit)
    (computed : (Nat → Batch) → Prop) : Prop :=
  ∃ deposit ∈ deposits handle.owner, deposit.handle = handle ∧
    (world.isLive handle = true → world.IsHeld handle ∧ computed deposit.partition)

/-- The frame of a kept table, or its copy on the workers, stands for this handle. -/
def PendingTable.Names (kept : PendingTable) (handle : Handle) : Prop :=
  kept.frame.handle? = some handle ∨ ∃ copy ∈ kept.scattered, copy.handle? = some handle

/-- The frame of a kept table, and the copy of it on workers, are kept as well. There is a copy only
of a table that the coordinator has, and it consists of the blocks of the table. -/
structure PendingTable.IsKnown (kept : PendingTable) (world : World)
    (deposits : SpawnerId → List Deposit) : Prop where
  frame : ∀ handle, kept.frame.handle? = some handle → handle.IsKept world deposits fun _ => True
  copy : ∀ copy ∈ kept.scattered, ∃ table handle, kept.frame = .collected table ∧
    copy.handle? = some handle ∧ handle.IsKept world deposits fun partition =>
      ∀ group, world.group? handle.owner = some group → partition = table.block group.size

/-! All records. -/

/-- Coordinator and workers stand to the records of all spawners as they should. -/
structure Custodies (world : World) (fleet : Fleet) (deposits : SpawnerId → List Deposit) : Prop where
  custody : ∀ id spawner, world.spawner? id = some spawner →
    Custody id world spawner fleet (deposits id)
  absent : ∀ id, world.spawner? id = none → deposits id = []
  apart : ∀ id other, id ≠ other → ∀ deposit ∈ deposits id, ∀ another ∈ deposits other,
    deposit.Apart another
  links : ∀ id other, id ≠ other → ∀ group another, world.group? id = some group →
    world.group? other = some another → group.link ≠ another.link
  tables : ∀ kept ∈ world.tables, kept.IsKnown world deposits

namespace Custodies

variable {id : SpawnerId} {world later : World} {fleet last : Fleet} {spawner after : Spawner}
  {deposits : SpawnerId → List Deposit} {added : List Deposit}

/-- What was handed out was handed out by a spawner that is there. -/
theorem there (custodies : Custodies world fleet deposits) {deposit : Deposit}
    (member : deposit ∈ deposits id) : ∃ spawner, world.spawner? id = some spawner := by
  cases found : world.spawner? id with
  | some spawner => exact ⟨spawner, rfl⟩
  | none =>
    rw [custodies.absent id found] at member
    cases member

/-- What is handed out now is apart from what was handed out before. -/
theorem apart_new (custodies : Custodies world fleet deposits) {other : SpawnerId}
    {deposit another : Deposit} (new : deposit.handle.IsNew world)
    (member : another ∈ deposits other) : deposit.Apart another := by
  obtain ⟨known, found⟩ := custodies.there member
  obtain ⟨-, keyed, -, call, earlier, place, named⟩ :=
    (custodies.custody other known found).recorded another member
  obtain ⟨above, later, after, leaf, name⟩ := new
  constructor
  · exact Nat.ne_of_gt (keyed.trans_le above)
  · intro same
    have calls := (ResultId.ofOutput_inj (name.symm.trans (same.trans named))).1
    exact absurd calls (Nat.ne_of_gt (earlier.trans_le after))

/-- A result of a group that was ended stays one. -/
theorem isLive_before (custodies : Custodies world fleet deposits)
    (found : world.spawner? id = some spawner) {touches : Nat → Prop}
    (spares : id.Spares touches world fleet later last)
    (kept : Custody id later after last (deposits id ++ added)) {deposit : Deposit}
    (member : deposit ∈ deposits deposit.handle.owner) (live : later.isLive deposit.handle = true) :
    world.isLive deposit.handle = true ∧ ∀ group, later.group? deposit.handle.owner = some group →
      ∃ before, world.group? deposit.handle.owner = some before ∧ group.size = before.size := by
  by_cases own : deposit.handle.owner = id
  · obtain rfl := own
    have custody := custodies.custody _ spawner found
    obtain ⟨group, running, generation⟩ := (kept.isLive_iff (List.mem_append_left _ member)).mp live
    rcases spares.groups group running with ⟨before, there, continues⟩ | ⟨-, newer⟩
    · refine ⟨(custody.isLive_iff member).mpr
        ⟨before, there, generation.trans continues.generation⟩, fun other runningToo => ?_⟩
      obtain rfl := Option.some.inj (running.symm.trans runningToo)
      exact ⟨before, there, continues.size⟩
    · have dated := (custody.recorded deposit member).dated
      have above := newer spawner custody.record?
      omega
  · have same := spares.spawner? own
    refine ⟨?_, fun group running => ⟨group, (spares.group? own).symm.trans running, rfl⟩⟩
    rwa [World.isLive, same] at live

/-- What is kept stays kept, unless the share is given up. -/
theorem isKept_later (custodies : Custodies world fleet deposits)
    (found : world.spawner? id = some spawner) {touches : Nat → Prop}
    (spares : id.Spares touches world fleet later last)
    (kept : Custody id later after last (deposits id ++ added)) {handle : Handle}
    {computed : (Nat → Batch) → Prop} {still : (Nat → Batch) → Prop}
    (isKept : handle.IsKept world deposits computed)
    (theirs : later.isLive handle = true → world.IsHeld handle → later.IsHeld handle)
    (goesOn : ∀ partition, computed partition → (∀ group, later.group? handle.owner = some group →
      ∃ before, world.group? handle.owner = some before ∧ group.size = before.size) →
        still partition) :
    handle.IsKept later (Function.update deposits id (deposits id ++ added)) still := by
  obtain ⟨deposit, member, rfl, holds⟩ := isKept
  refine ⟨deposit, ?_, rfl, fun live => ?_⟩
  · by_cases own : deposit.handle.owner = id
    · rw [own, Function.update_self]
      exact List.mem_append_left _ (own ▸ member)
    · rwa [Function.update_of_ne own]
  · obtain ⟨before, sizes⟩ := custodies.isLive_before found spares kept member live
    obtain ⟨held, computed⟩ := holds before
    exact ⟨theirs live held, goesOn _ computed sizes⟩

/-- All that has been handed out for a spawner, just now or before, is apart from what was handed
out for another one. -/
theorem apart_added (custodies : Custodies world fleet deposits)
    (new : ∀ deposit ∈ added, deposit.handle.IsNew world) {other : SpawnerId} (apart : other ≠ id) :
    ∀ deposit ∈ deposits id ++ added, ∀ another ∈ deposits other, deposit.Apart another := by
  intro deposit member another memberToo
  rcases List.mem_append.mp member with member | member
  · exact custodies.apart id other apart.symm deposit member another memberToo
  · exact custodies.apart_new (new deposit member) memberToo

/-- The group that a spawner has afterwards uses no link of another group: it goes on with its own
one, or it was started over a link that nobody had. -/
theorem links_later (custodies : Custodies world fleet deposits) {touches : Nat → Prop}
    (spares : id.Spares touches world fleet later last) {other : SpawnerId} (apart : other ≠ id)
    (group another : Group) (live : later.group? id = some group)
    (liveToo : later.group? other = some another) : group.link ≠ another.link := by
  have running := (spares.group? apart).symm.trans liveToo
  rcases spares.groups group live with ⟨before, there, continues⟩ | ⟨beyond, -⟩
  · exact continues.link ▸ custodies.links id other apart.symm before another there running
  · intro same
    obtain ⟨known, there, attended⟩ := Option.bind_eq_some_iff.mp
      ((World.group?_eq _ _).symm.trans running)
    obtain ⟨manned, -, -, stores, rests, -⟩ :=
      (custodies.custody other known there).attended another attended
    exact absurd (same ▸ rests.inside manned) (Nat.not_lt.mpr beyond)

/-- A table that is known stays known unless a share is given up. -/
theorem isKnown_later (custodies : Custodies world fleet deposits)
    (found : world.spawner? id = some spawner) {touches : Nat → Prop}
    (spares : id.Spares touches world fleet later last)
    (kept : Custody id later after last (deposits id ++ added)) {table : PendingTable}
    (known : table.IsKnown world deposits)
    (theirs : ∀ handle, table.Names handle → later.isLive handle = true → world.IsHeld handle →
      later.IsHeld handle) :
    table.IsKnown later (Function.update deposits id (deposits id ++ added)) where
  frame handle own :=
    custodies.isKept_later found spares kept (known.frame handle own) (theirs handle (.inl own))
      fun _ computed _ => computed
  copy copy copied := by
    obtain ⟨batch, handle, here, own, isKept⟩ := known.copy copy copied
    refine ⟨batch, handle, here, own, custodies.isKept_later found spares kept isKept
      (theirs handle (.inr ⟨copy, copied, own⟩)) fun partition computed sizes => ?_⟩
    intro group running
    obtain ⟨before, there, same⟩ := sizes group running
    exact same ▸ computed before there

/-- What is done with one spawner keeps all records, and its own one grows by what is handed out. -/
theorem acting (custodies : Custodies world fleet deposits)
    (found : world.spawner? id = some spawner)
    (spares : id.Spares (Deposit.Keys (deposits id)) world fleet later last)
    (kept : Custody id later after last (deposits id ++ added))
    (new : ∀ deposit ∈ added, deposit.handle.IsNew world)
    (theirs : ∀ kept ∈ world.tables, ∀ handle, kept.Names handle → later.isLive handle = true →
      world.IsHeld handle → later.IsHeld handle) :
    Custodies later last (Function.update deposits id (deposits id ++ added)) where
  -- The own record has grown, and those of the others are spared.
  custody other known there := by
    by_cases own : other = id
    · subst own
      obtain rfl := Option.some.inj (there.symm.trans kept.found)
      rwa [Function.update_self]
    · rw [Function.update_of_ne own]
      refine (custodies.custody other known ((spares.spawner? own).symm.trans there)).spared spares own
        (fun deposit member => ?_) fun group another live running =>
          custodies.links id other (Ne.symm own) another group running live
      rintro ⟨another, memberToo, same⟩
      exact (custodies.apart id other (Ne.symm own) another memberToo deposit member).keys same
  absent other there := by
    have own : other ≠ id := by
      rintro rfl
      cases there.symm.trans kept.found
    rw [Function.update_of_ne own]
    exact custodies.absent other ((spares.spawner? own).symm.trans there)
  apart first second apart := by
    by_cases own : first = id
    · subst own
      rw [Function.update_self, Function.update_of_ne apart.symm]
      exact custodies.apart_added new apart.symm
    · by_cases ownToo : second = id
      · subst ownToo
        rw [Function.update_self, Function.update_of_ne own]
        exact fun deposit member another memberToo =>
          symm (custodies.apart_added new own another memberToo deposit member)
      · rw [Function.update_of_ne own, Function.update_of_ne ownToo]
        exact custodies.apart first second apart
  links first second apart group another live liveToo := by
    by_cases own : first = id
    · subst own
      exact custodies.links_later spares apart.symm group another live liveToo
    · by_cases ownToo : second = id
      · subst ownToo
        exact (custodies.links_later spares own another group liveToo live).symm
      · exact custodies.links first second apart group another
          ((spares.group? own).symm.trans live) ((spares.group? ownToo).symm.trans liveToo)
  tables table listed := by
    have member : table ∈ world.tables := spares.keeps.tables ▸ listed
    exact custodies.isKnown_later found spares kept (custodies.tables table member)
      (theirs table member)

/-- Other tables may be kept if they are known. -/
theorem keeping (custodies : Custodies world fleet deposits) (tables : List PendingTable)
    (known : ∀ kept ∈ tables, kept.IsKnown world deposits) :
    Custodies { world with tables } fleet deposits where
  custody id spawner found := (custodies.custody id spawner found).keeping tables
  absent := custodies.absent
  apart := custodies.apart
  links := custodies.links
  tables kept member := ⟨(known kept member).frame, (known kept member).copy⟩

end Custodies

end Rankwise
