/-
This file compares a container that has been cleared with one that has just been
created. Old keys, links, values and arena bytes stay in the block when a container is
cleared; still it cannot be told from a new container with the same capacities and the
same growth step, whatever is asked of both.
-/

import PackedStore.Proofs.Concerts

namespace PackedStore

open Host (Rewrites)

variable {Left Right : Type} [Host Left] [Host Right] {agrees : Left → Right → Prop}
  {one : Site Left} {other : Site Right}

/-! ### Cleared and created -/

namespace Container

/-- Removes everything from the container. -/
def clear {Buffer : Type} [Host Buffer] : Container → Store Buffer Unit
  | map key => UntypedMap.clear key
  | sequence => UntypedSequence.clear
  | indexedMap shape => IndexedMap.clear shape

/-- The container can be cleared in the first site and created in the second one, and is the same
in both then. All that creation asks its host for is the length of the block. -/
def Renews (usage : Usage) (resized : Right) (one : Site Left) (other : Site Right)
    (container : Container) : Prop :=
  ∃ cleared created, container.clear one = .ok () cleared ∧
    container.init usage.sizing other = .ok () created ∧
    Rewrites one.buffer cleared.buffer ∧ Rewrites resized created.buffer ∧
    container.Twinned cleared created

variable [LawfulHost Left] [LawfulHost Right] {resized : Right}

section

open UntypedMap

theorem renews_map {key : KeyType} {ledger : UntypedMap.Ledger} (wellFormed : (map key).WellFormed)
    (records : Records key one ledger) (empty : other.bytes.size = 0)
    (granted : Host.resize other.buffer one.bytes.size = .ok resized) :
    (map key).Renews ledger.header.usage resized one other := by
  have regular := records.regular
  obtain ⟨layout, computed, size⟩ := records.size_eq
  rw [size] at granted
  obtain ⟨cleared, runClear, rewrites, recordsCleared⟩ :=
    (records.enacts_clear wellFormed.key).ended
  obtain ⟨created, runInit, recordsCreated⟩ := records_initial wellFormed.key
    (Header.regular_initial regular.reached regular.dataReached regular.keySize_lt) computed granted
  have same := @init_eq _ _ key other ledger.header.usage.sizing _ _ empty
    regular.usage.grown_sizing regular.usage.initialData_sizing regular.keySize_lt layout computed
  rw [Usage.log2MinGrowth_sizing] at same
  obtain ⟨again, grantedAgain, rewritesCreated⟩ := asks_initTo key _ layout _ _ _ runInit
  obtain rfl := Except.ok.inj (granted.symm.trans grantedAgain)
  refine ⟨cleared, created, runClear, same.trans runInit, rewrites, rewritesCreated, _, ?_,
    recordsCreated⟩
  rw [Ledger.initial, ← regular.emptied_eq]
  exact recordsCleared

end

section

open UntypedSequence

theorem renews_sequence {ledger : UntypedSequence.Ledger} (records : Records one ledger)
    (empty : other.bytes.size = 0)
    (granted : Host.resize other.buffer one.bytes.size = .ok resized) :
    sequence.Renews ledger.header.usage resized one other := by
  have regular := records.regular
  obtain ⟨layout, computed, size⟩ := records.size_eq
  rw [size] at granted
  obtain ⟨cleared, runClear, rewrites, recordsCleared⟩ := records.enacts_clear.ended
  obtain ⟨created, image, runInit, holds, isHeader, -⟩ := @run_init_granted _ _ other
    ledger.header.usage.sizing _ _ empty regular.usage.grown_sizing
    regular.usage.initialData_sizing _ layout computed _ granted
  have same := @init_eq _ _ other ledger.header.usage.sizing _ _ empty
    regular.usage.grown_sizing regular.usage.initialData_sizing layout computed
  obtain ⟨again, grantedAgain, rewritesCreated⟩ :=
    asks_initTo _ layout _ _ _ (same.symm.trans runInit)
  obtain rfl := Except.ok.inj (granted.symm.trans grantedAgain)
  rw [Usage.log2MinGrowth_sizing] at isHeader
  exact ⟨cleared, created, runClear, runInit, rewrites, rewritesCreated, _, recordsCleared,
    image, holds, isHeader⟩

end

section

open IndexedMap

theorem renews_indexedMap {shape : Shape} {image : Image} {table : SlotTable}
    {orders : Nat → Nat → List Nat} (wellFormed : (indexedMap shape).WellFormed)
    (holds : Holds shape one image table orders) (empty : other.bytes.size = 0)
    (granted : Host.resize other.buffer one.bytes.size = .ok resized) {usage : Usage}
    (isUsage : usage = ⟨image.header.count, image.header.capacity, 0, 0,
      image.header.log2MinGrowth⟩) :
    (indexedMap shape).Renews usage resized one other := by
  have framed := holds.represents.framed
  have computed := framed.computed
  have sound := holds.represents.sound
  rw [framed.bucketCapacity] at computed
  rw [holds.size_eq] at granted
  have least : grownCapacity 0 usage.sizing.capacity usage.sizing.log2MinGrowth =
      .ok image.header.capacity := by
    rw [Usage.log2MinGrowth_sizing, isUsage]
    exact framed.reached.grown_self
  obtain ⟨changed, ran, same, represents⟩ := clearRows_spec framed sound
  obtain ⟨cleared, runClear, holdsCleared, -⟩ :=
    run_edit wellFormed.shape holds.loaded holds.size_eq ran same represents
  obtain ⟨created, runInit⟩ := run_init empty least framed.rowSize_lt computed wellFormed.shape
    granted
  obtain ⟨twin, holdsCreated, -, leastTwin, step, emptied⟩ :=
    holds_of_init wellFormed.shape runInit
  have capacity := Except.ok.inj (leastTwin.symm.trans least)
  rw [capacity, Usage.log2MinGrowth_sizing, isUsage] at emptied
  obtain ⟨again, grantedAgain, rewritesCreated⟩ := asks_initTo shape _ image.layout _ _ _
    ((init_eq empty least framed.rowSize_lt computed).symm.trans runInit)
  obtain rfl := Except.ok.inj (granted.symm.trans grantedAgain)
  have rewrites := Store.Quiet.edit (format shape) (clearRows shape) one
  rw [Store.outcome_ok runClear] at rewrites
  have blank : changed.Emptied shape image.header := ⟨image, sound, rfl, ran⟩
  exact ⟨cleared, created, runClear, runInit, rewrites, rewritesCreated, .empty, changed, twin, _, _,
    holdsCleared, holdsCreated, 0, blank.alike emptied framed.named framed.fixed_initial⟩

end

/-- Every container can be cleared, and created anew with its capacities and its growth step. -/
theorem Stands.renews {container : Container} (wellFormed : container.WellFormed)
    (stands : container.Stands one) (empty : other.bytes.size = 0)
    (granted : Host.resize other.buffer one.bytes.size = .ok resized) :
    ∃ usage, container.usage one = .ok usage one ∧ container.Renews usage resized one other := by
  cases container with
  | map key =>
    obtain ⟨ledger, records⟩ := stands
    obtain ⟨image, order, holds, isHeader, -⟩ := id records
    refine ⟨_, ?_, renews_map wellFormed records empty granted⟩
    rw [Container.usage, Edit.run_map, holds.run_header, isHeader]
  | sequence =>
    obtain ⟨ledger, records⟩ := stands
    obtain ⟨image, holds, isHeader⟩ := id records
    refine ⟨_, ?_, renews_sequence records empty granted⟩
    rw [Container.usage, Edit.run_map, holds.run_header, isHeader]
  | indexedMap shape =>
    obtain ⟨image, table, orders, holds⟩ := stands
    refine ⟨_, ?_, renews_indexedMap wellFormed holds empty granted rfl⟩
    rw [Container.usage, Edit.run_map, holds.run_header]

/-- If the hosts answer the same requests in the same way from then on, the cleared container and the
new one match in whatever is done with them. -/
theorem Renews.all_match {container : Container} {usage : Usage} (wellFormed : container.WellFormed)
    (concerted : Concerted agrees) (agree : agrees one.buffer resized)
    (renews : container.Renews usage resized one other) :
    ∃ cleared created, container.clear one = .ok () cleared ∧
      container.init usage.sizing other = .ok () created ∧
      Block.Matches ⟨some container, cleared⟩ ⟨some container, created⟩ := by
  obtain ⟨cleared, created, runClear, runInit, rewrites, rewritesCreated, twinned⟩ := renews
  have same : Block.Twinned agrees ⟨some container, cleared⟩ ⟨some container, created⟩ :=
    .of_container wellFormed ⟨concerted.rewrites agree rewrites rewritesCreated, twinned⟩
  exact ⟨cleared, created, runClear, runInit, same.all_match concerted⟩

end Container

/-! ### Reached containers -/

section

variable [LawfulHost Left] [LawfulHost Right] {start : Site Left} {steps : List Step}
  (asked : Machine.Always Step.machine Step.Asked steps ⟨none, start⟩) {container : Container}
  (reached : Machine.reached Step.machine steps ⟨none, start⟩ = ⟨some container, one⟩)
  (empty : other.bytes.size = 0)

include asked reached empty

theorem Container.renews_of_reached {resized : Right}
    (granted : Host.resize other.buffer one.bytes.size = .ok resized) :
    container.WellFormed ∧ ∃ usage, container.usage one = .ok usage one ∧
      container.Renews usage resized one other := by
  have nothing : Block.Stands ⟨none, start⟩ := fun container same => absurd same (by simp)
  have there := nothing.run asked
  rw [reached] at there
  obtain ⟨wellFormed, stands⟩ := there container rfl
  exact ⟨wellFormed, stands.renews wellFormed empty granted⟩

omit [LawfulHost Right] empty in
/-- Under one limit, nothing has to be said about what the hosts grant: another host with the same
limit grants the length that the block has, and the limits stay the same. -/
theorem Limited.grants_renewal {limit : Left → Option Nat} {limitOther : Right → Option Nat}
    (limited : Limited limit) (limitedOther : Limited limitOther) (nothing : start.bytes.size = 0)
    (same : limitOther other.buffer = limit start.buffer) :
    ∃ resized, Host.resize other.buffer one.bytes.size = .ok resized ∧
      limit one.buffer = limit start.buffer ∧ limitOther resized = limit start.buffer := by
  obtain ⟨kept, grants⟩ := limited.grants_reached nothing asked
  rw [reached] at kept grants
  obtain ⟨resized, granted⟩ := limitedOther.grants other.buffer one.bytes.size (by rwa [same])
  exact ⟨resized, granted, kept, (limitedOther.resized _ _ _ granted).trans same⟩

/-- A cleared container cannot be told from a new one. Whatever has happened to a container, it can
be cleared, and an empty block whose host grants the same length can become a container with the
same capacities and growth step. If the hosts answer the same requests in the same way from then on,
the two blocks match in whatever is done in them. -/
theorem Concerted.cleared_as_new (concerted : Concerted agrees) {resized : Right}
    (granted : Host.resize other.buffer one.bytes.size = .ok resized)
    (agree : agrees one.buffer resized) :
    ∃ usage, container.usage one = .ok usage one ∧ ∃ cleared created,
      container.clear one = .ok () cleared ∧ container.init usage.sizing other = .ok () created ∧
      Block.Matches ⟨some container, cleared⟩ ⟨some container, created⟩ := by
  obtain ⟨wellFormed, usage, isUsage, renews⟩ :=
    Container.renews_of_reached asked reached empty granted
  exact ⟨usage, isUsage, renews.all_match wellFormed concerted agree⟩

end

/-- A map that has been used and cleared is not told from a new one in a buffer that adds bytes of
ones. -/
theorem sample_cleared_as_new : ∃ site : Site BlockBuffer,
    Machine.reached Step.machine sampleSteps ⟨none, ⟨.empty none, []⟩⟩ =
        ⟨some (.indexedMap (.words 2)), site⟩ ∧
      ∃ cleared created, (Container.indexedMap (.words 2)).clear site = .ok () cleared ∧
        Machine.answers Step.machine (Container.sampleRequests.map (Step.call _))
            ⟨some (.indexedMap (.words 2)), cleared⟩ =
          Machine.answers Step.machine (Container.sampleRequests.map (Step.call _))
            (⟨some (.indexedMap (.words 2)), created⟩ : Block FilledBuffer) := by
  let fresh : Site FilledBuffer := ⟨.empty 255 none, []⟩
  obtain ⟨site, reached⟩ := reached_sampleSteps
  obtain ⟨resized, granted, agree⟩ := @Limited.grants_renewal _ _ _ _ site fresh _ _ _
    asked_sampleSteps _ reached _ _ BlockBuffer.limited FilledBuffer.limited rfl rfl
  obtain ⟨usage, -, cleared, created, runClear, -, same⟩ := Concerted.cleared_as_new
    asked_sampleSteps reached (show fresh.bytes.size = 0 from rfl)
    (BlockBuffer.limited.concerted FilledBuffer.limited none) granted agree
  exact ⟨site, reached, cleared, created, runClear,
    (same _ (Step.always_call Container.brings_sampleRequests rfl)).1⟩

end PackedStore
