/-
This file says exactly when a container is created in an empty buffer: when no number
that was asked for exceeds the largest capacity and the layout for the rounded numbers
is granted. What comes of it is an empty container of the least capacities; otherwise
nothing comes of it.
-/

import PackedStore.Proofs.Footprints
import PackedStore.Proofs.Host.Accesses
import PackedStore.Proofs.Layout.ClosedForms

namespace PackedStore

/-! ### First capacities in closed form -/

namespace Sizing

variable {sizing : Sizing}

theorem nextPower_max_step (value : Nat) (sizing : Sizing) :
    nextPower (max value (2 ^ sizing.log2MinGrowth)) = nextPower (max value sizing.minGrowth) := by
  rw [nextPower_max, nextPower_max, nextPower_two_pow]
  rfl

theorem isNextPower_slots (sizing : Sizing) :
    IsNextPower (max sizing.capacity sizing.minGrowth) sizing.slots :=
  isNextPower_iff.mpr (nextPower_max_step sizing.capacity sizing)

theorem isNextPower_arena (some : sizing.dataCapacity ≠ 0) :
    IsNextPower (max sizing.dataCapacity sizing.minGrowth) sizing.arena := by
  rw [isNextPower_iff, arena, if_neg some]
  exact nextPower_max_step sizing.dataCapacity sizing

theorem grown_iff :
    grownCapacity 0 sizing.capacity sizing.log2MinGrowth = .ok sizing.slots ↔
      sizing.capacity ≤ maxCapacity ∧ sizing.minGrowth ≤ maxCapacity := by
  rw [grownCapacity_eq, Nat.max_eq_right (Nat.zero_le _), cappedPower_eq_ok, isNextPower_iff, slots,
    nextPower_max_step, maxCapacity, nextPower_le_two_pow, Nat.max_le]
  exact and_iff_right rfl

theorem initialData_iff (step : sizing.minGrowth ≤ maxCapacity) :
    initialData sizing = .ok sizing.arena ↔ sizing.dataCapacity ≤ maxCapacity := by
  by_cases nothing : sizing.dataCapacity = 0
  · rw [initialData, arena, if_pos nothing, if_pos nothing, nothing]
    exact iff_of_true rfl (Nat.zero_le _)
  · rw [initialData, arena, if_neg nothing, if_neg nothing, grownCapacity_eq,
      Nat.max_eq_right (Nat.zero_le _), cappedPower_eq_ok, isNextPower_iff, nextPower_max_step,
      maxCapacity, nextPower_le_two_pow, Nat.max_le]
    exact ⟨fun both => both.2.1, fun small => ⟨rfl, small, step⟩⟩

end Sizing

namespace Container

variable {Buffer : Type} [Host Buffer] {container : Container} {sizing : Sizing}
  {site later : Site Buffer} {buffer : Buffer} {total : Nat}

/-! ### What is accepted -/

/-- The size that the header of a container records, of a key or of a row. -/
def recordedSize : Container → Nat
  | map key => key.size
  | sequence => 0
  | indexedMap shape => shape.rowSize

/-- The numbers of a sizing are accepted, and a container of them has a length. -/
structure Accepts (container : Container) (sizing : Sizing) (total : Nat) : Prop where
  grown : grownCapacity 0 sizing.capacity sizing.log2MinGrowth = .ok sizing.slots
  grownData : container.Untyped → initialData sizing = .ok sizing.arena
  recorded : container.recordedSize < 2 ^ 32
  computed : container.total sizing.slots sizing.arena = .ok total

theorem accepts_iff :
    container.Accepts sizing total ↔
      sizing.capacity ≤ maxCapacity ∧ sizing.minGrowth ≤ maxCapacity ∧
        (container.Untyped → sizing.dataCapacity ≤ maxCapacity) ∧
        container.recordedSize < 2 ^ 32 ∧
        container.total sizing.slots sizing.arena = .ok total := by
  constructor
  · intro accepts
    obtain ⟨small, step⟩ := Sizing.grown_iff.mp accepts.grown
    exact ⟨small, step, fun untyped => (Sizing.initialData_iff step).mp (accepts.grownData untyped),
      accepts.recorded, accepts.computed⟩
  · rintro ⟨small, step, smallData, recorded, computed⟩
    exact ⟨Sizing.grown_iff.mpr ⟨small, step⟩,
      fun untyped => (Sizing.initialData_iff step).mpr (smallData untyped), recorded, computed⟩

section

variable [LawfulHost Buffer] (types : container.WellFormed) (empty : site.bytes.size = 0)

include types empty

/-- What has been created was accepted, and its length was granted. -/
theorem accepts_of_init (run : container.init sizing site = .ok () later) :
    ∃ total buffer, container.Accepts sizing total ∧
      Host.resize site.buffer total = .ok buffer := by
  cases container with
  | map key =>
    obtain ⟨capacity, dataCapacity, layout, -, grown, grownData, keySize, computed⟩ :=
      UntypedMap.accepted_of_init run
    have ran := (UntypedMap.init_eq empty grown grownData keySize computed).symm.trans run
    obtain ⟨_, _, resized, -⟩ := Edit.bind_eq_ok.mp ran
    obtain ⟨buffer, granted, -⟩ := Store.resize_eq_ok.mp resized
    obtain rfl := Sizing.slots_of_grown grown
    obtain rfl := Sizing.arena_of_initialData grownData
    refine ⟨_, buffer, ⟨grown, fun _ => grownData, keySize, ?_⟩, granted⟩
    rw [Container.total, computed]
    rfl
  | sequence =>
    obtain ⟨capacity, dataCapacity, grown, grownData, records⟩ :=
      UntypedSequence.records_of_init run
    obtain ⟨layout, computed, -⟩ := records.size_eq
    have ran := (UntypedSequence.init_eq empty grown grownData computed).symm.trans run
    obtain ⟨_, _, resized, -⟩ := Edit.bind_eq_ok.mp ran
    obtain ⟨buffer, granted, -⟩ := Store.resize_eq_ok.mp resized
    obtain rfl := Sizing.slots_of_grown grown
    obtain rfl := Sizing.arena_of_initialData grownData
    refine ⟨_, buffer, ⟨grown, fun _ => grownData, Nat.two_pow_pos 32, ?_⟩, granted⟩
    exact congrArg (Functor.map fun layout => layout.total) computed
  | indexedMap shape =>
    obtain ⟨image, holds, -, grown, -⟩ := IndexedMap.holds_of_init types.shape run
    have framed := holds.represents.framed
    have computed := framed.computed
    rw [framed.bucketCapacity] at computed
    have ran := (IndexedMap.init_eq empty grown framed.rowSize_lt computed).symm.trans run
    obtain ⟨_, _, resized, -⟩ := Edit.bind_eq_ok.mp ran
    obtain ⟨buffer, granted, -⟩ := Store.resize_eq_ok.mp resized
    have isSlots := Sizing.slots_of_grown grown
    rw [isSlots] at grown computed
    refine ⟨_, buffer, ⟨grown, False.elim, framed.rowSize_lt, ?_⟩, granted⟩
    exact congrArg (Functor.map fun layout => layout.total) computed

/-- What is accepted is created, once its length is granted. -/
theorem Accepts.run_init (accepts : container.Accepts sizing total)
    (granted : Host.resize site.buffer total = .ok buffer) :
    ∃ later, container.init sizing site = .ok () later := by
  obtain ⟨grown, grownData, recorded, computed⟩ := accepts
  have reached := (IsCapacity.of_grown grown).1
  cases container with
  | map key =>
    obtain ⟨layout, isLayout, rfl⟩ := Checked.map_eq_ok.mp computed
    have regular := UntypedMap.Header.regular_initial reached
      (isArenaCapacity_of_initialData (grownData trivial)) recorded
    obtain ⟨later, run, -⟩ := UntypedMap.records_initial types.key regular isLayout granted
    exact ⟨later, (UntypedMap.init_eq empty grown (grownData trivial) recorded isLayout).trans run⟩
  | sequence =>
    obtain ⟨layout, isLayout, rfl⟩ := Checked.map_eq_ok.mp computed
    obtain ⟨later, -, run, -⟩ :=
      UntypedSequence.run_init_granted empty grown (grownData trivial) isLayout granted
    exact ⟨later, run⟩
  | indexedMap shape =>
    obtain ⟨layout, isLayout, rfl⟩ := Checked.map_eq_ok.mp computed
    exact IndexedMap.run_init empty grown recorded isLayout types.shape granted

end

/-! ### What is created -/

/-- The arena of a new container; an indexed map has none. -/
def arena (container : Container) (sizing : Sizing) : Nat :=
  match container with
  | map _ | sequence => sizing.arena
  | indexedMap _ => 0

/-- The site holds the container, and nothing is in it. -/
def Vacant (site : Site Buffer) : Container → Prop
  | map key => ∃ image, UntypedMap.Holds (fun _ => False) key site image [] (fun _ => [])
  | sequence => ∃ image, UntypedSequence.Holds site image []
  | indexedMap shape =>
    ∃ image, IndexedMap.Holds shape site image IndexedMap.SlotTable.empty (fun _ _ => [])

section

variable [LawfulHost Buffer] (types : container.WellFormed)
  (run : container.init sizing site = .ok () later)

include types run

theorem vacant_of_init : container.Vacant later := by
  cases container with
  | map key =>
    obtain ⟨image, holds, -⟩ := UntypedMap.holds_of_init types.key run
    exact ⟨image, holds⟩
  | sequence =>
    obtain ⟨image, holds, -⟩ := UntypedSequence.holds_of_init run
    exact ⟨image, holds⟩
  | indexedMap shape =>
    obtain ⟨image, holds, -⟩ := IndexedMap.holds_of_init types.shape run
    exact ⟨image, holds⟩

/-- The header counts nothing and has the capacities of the sizing. -/
theorem usage_of_init : container.usage later =
    .ok ⟨0, sizing.slots, container.arena sizing, 0, sizing.log2MinGrowth⟩ later := by
  cases container with
  | map key => exact (Tallied.of_init types trivial run).run_usage
  | sequence => exact (Tallied.of_init types trivial run).run_usage
  | indexedMap shape =>
    obtain ⟨image, holds, -, grown, step, -⟩ := IndexedMap.holds_of_init types.shape run
    have isUsage : (indexedMap shape).usage later =
        .ok ⟨image.header.count, image.header.capacity, 0, 0, image.header.log2MinGrowth⟩ later := by
      rw [usage, Edit.run_map, holds.run_header]
    rw [isUsage, Sizing.slots_of_grown grown, step, holds.represents.count]
    rfl

/-- The length of a new container is that of the layout for its capacities. -/
theorem size_of_init : container.total sizing.slots sizing.arena = .ok later.bytes.size := by
  cases container with
  | map key => exact (Tallied.of_init types trivial run).total_eq
  | sequence => exact (Tallied.of_init types trivial run).total_eq
  | indexedMap shape =>
    obtain ⟨image, holds, -, grown, -⟩ := IndexedMap.holds_of_init types.shape run
    have framed := holds.represents.framed
    have computed := framed.computed
    rw [framed.bucketCapacity, Sizing.slots_of_grown grown] at computed
    rw [holds.size_eq]
    exact congrArg (Functor.map fun layout => layout.total) computed

end

theorem Vacant.run_attach (types : container.WellFormed) (vacant : container.Vacant site) :
    container.attach site = .ok () site := by
  cases container with
  | map key =>
    obtain ⟨image, holds⟩ := vacant
    exact holds.run_attach types.key
  | sequence =>
    obtain ⟨image, holds⟩ := vacant
    exact holds.run_attach
  | indexedMap shape =>
    obtain ⟨image, holds⟩ := vacant
    exact holds.run_attach types.shape

/-- In an empty block whose types can be aligned, creation fails for want of a resource only, and
changes nothing. -/
theorem init_bounded [LawfulHost Buffer] (types : container.WellFormed)
    (supported : ∀ type ∈ container.types, type.align ≤ blockAlign) (empty : site.bytes.size = 0) :
    Store.Withdraws Failure.IsStorage site (container.init sizing) := by
  cases container with
  | map key =>
    refine UntypedMap.init_failsOnly types.key sizing site (fun _ => id) (absurd empty) ?_
    exact fun large => absurd (supported _ List.mem_cons_self) (Nat.not_le_of_lt large)
  | sequence =>
    rcases @UntypedSequence.run_init _ _ site _ sizing with
      ⟨failure, failed, ⟨used, -⟩ | storage⟩ | ⟨later, image, run, -⟩
    · exact absurd empty used
    · exact .of_error failed storage
    · exact .of_ok run
  | indexedMap shape =>
    refine IndexedMap.init_failsOnly types.shape sizing site (fun _ => id) (absurd empty) ?_ ?_
    · exact fun large => absurd (supported _ List.mem_cons_self) (Nat.not_le_of_lt large)
    · intro kind member large
      exact absurd (supported _ (List.mem_cons_of_mem _ (List.mem_map_of_mem member)))
        (Nat.not_le_of_lt large)

/-! ### Creation in a buffer -/

/-- In an empty buffer a container whose types can be aligned is created exactly if none of the
numbers that were asked for exceeds the largest capacity, its key or row has a size that a header
word can hold, and the layout for the rounded numbers has a length that the limit, and the size of
an allocation, allow. It has no rows and nothing in its arena, as many slots as the least power of two
that is at least the capacity and the growth step that were asked for, an arena of the same kind
unless none was asked for, and the length of its layout, and it can be attached to. Otherwise a
resource has run out, and the buffer stays empty. -/
theorem created_exactly (container : Container) (sizing : Sizing) (site : Site BlockBuffer)
    (types : container.WellFormed)
    (supported : ∀ type ∈ container.types, type.align ≤ blockAlign)
    (empty : site.buffer.length = 0) :
    ((∃ later, container.init sizing site = .ok () later) ↔
      sizing.capacity ≤ maxCapacity ∧ sizing.minGrowth ≤ maxCapacity ∧
        (container.Untyped → sizing.dataCapacity ≤ maxCapacity) ∧
        container.recordedSize < 2 ^ 32 ∧
        ∃ total, container.total sizing.slots sizing.arena = .ok total ∧
          Grants site.buffer.limit total) ∧
    (∀ later, container.init sizing site = .ok () later →
      container.Vacant later ∧
      container.usage later =
        .ok ⟨0, sizing.slots, container.arena sizing, 0, sizing.log2MinGrowth⟩ later ∧
      container.total sizing.slots sizing.arena = .ok later.buffer.length ∧
      container.attach later = .ok () later) ∧
    (∀ failure later, container.init sizing site = .error failure later →
      failure.IsStorage ∧ later = site) ∧
    IsNextPower (max sizing.capacity sizing.minGrowth) sizing.slots ∧
    (sizing.dataCapacity = 0 → sizing.arena = 0) ∧
    (sizing.dataCapacity ≠ 0 →
      IsNextPower (max sizing.dataCapacity sizing.minGrowth) sizing.arena) := by
  have nothing : site.bytes.size = 0 := (BlockBuffer.size_bytes site.buffer).trans empty
  refine ⟨⟨?_, ?_⟩, ?_, init_bounded types supported nothing, Sizing.isNextPower_slots sizing,
    fun none => if_pos none, Sizing.isNextPower_arena⟩
  · rintro ⟨later, run⟩
    obtain ⟨total, buffer, accepts, granted⟩ := accepts_of_init types nothing run
    obtain ⟨small, step, smallData, recorded, computed⟩ := accepts_iff.mp accepts
    exact ⟨small, step, smallData, recorded, total, computed,
      (BlockBuffer.limited.grants_iff _ _).mpr ⟨buffer, granted⟩⟩
  · rintro ⟨small, step, smallData, recorded, total, computed, grants⟩
    obtain ⟨buffer, granted⟩ := BlockBuffer.limited.grants _ _ grants
    have accepts := accepts_iff.mpr ⟨small, step, smallData, recorded, computed⟩
    exact accepts.run_init types nothing granted
  · intro later run
    have vacant := vacant_of_init types run
    have size := size_of_init types run
    rw [show later.bytes.size = later.buffer.length from BlockBuffer.size_bytes later.buffer] at size
    exact ⟨vacant, usage_of_init types run, size, vacant.run_attach types⟩

/-- A map for five word keys and three units of values takes 256 bytes, with eight slots and four
units. A byte less, and there is no map. -/
theorem five_keys_take_room :
    (∃ later, (map wordKey).init ⟨5, 3, 1⟩ (BlockBuffer.unused (some 256)) = .ok () later ∧
      later.buffer.length = 256 ∧ (map wordKey).usage later = .ok ⟨0, 8, 4, 0, 0⟩ later) ∧
    ∃ failure, (map wordKey).init ⟨5, 3, 1⟩ (BlockBuffer.unused (some 255)) =
        .error failure (BlockBuffer.unused (some 255)) ∧ failure.IsStorage := by
  have types : (map wordKey).WellFormed := .of_key ElementType.wellFormed_word32
  have supported : ∀ type ∈ (map wordKey).types, type.align ≤ blockAlign := by
    intro type member
    obtain rfl := List.mem_singleton.mp member
    decide
  have isTotal : (map wordKey).total 8 4 = .ok 256 := rfl
  constructor
  · obtain ⟨accepted, made, -⟩ :=
      created_exactly (map wordKey) ⟨5, 3, 1⟩ (BlockBuffer.unused (some 256)) types supported rfl
    obtain ⟨later, run⟩ := accepted.mpr
      ⟨by decide, by decide, fun _ => by decide, by decide, 256, isTotal, by decide⟩
    obtain ⟨-, isUsage, size, -⟩ := made later run
    exact ⟨later, run, (Except.ok.inj (isTotal.symm.trans size)).symm, isUsage⟩
  · obtain ⟨accepted, -, failing, -⟩ :=
      created_exactly (map wordKey) ⟨5, 3, 1⟩ (BlockBuffer.unused (some 255)) types supported rfl
    cases run : (map wordKey).init ⟨5, 3, 1⟩ (BlockBuffer.unused (some 255)) with
    | ok _ later =>
      obtain ⟨-, -, -, -, total, computed, granted⟩ := accepted.mp ⟨later, run⟩
      obtain rfl := Except.ok.inj (isTotal.symm.trans computed)
      exact absurd granted (by decide)
    | error failure later =>
      obtain ⟨storage, rfl⟩ := failing failure later run
      exact ⟨failure, rfl, storage⟩

/-- Keys of `2 ^ 32` bytes. -/
def hugeKey : KeyType :=
  { ElementType.named "[u8; 4294967296]" (2 ^ 32) 1 with hash := fun _ => 0 }

/-- All numbers are small, and an unlimited buffer grants the layout. But no word of the header holds
the size of the keys, so there is no map for them. -/
theorem huge_keys_not_recorded :
    (map hugeKey).WellFormed ∧ (∀ type ∈ (map hugeKey).types, type.align ≤ blockAlign) ∧
    (∃ total, (map hugeKey).total (⟨1, 0, 1⟩ : Sizing).slots (⟨1, 0, 1⟩ : Sizing).arena = .ok total ∧
      Grants none total) ∧
    ∃ later, (map hugeKey).init ⟨1, 0, 1⟩ (BlockBuffer.unused none) =
      .error (.overflow .keySize) later := by
  refine ⟨.of_key ⟨⟨0, rfl⟩, Nat.one_dvd _⟩, fun type member => ?_, ⟨_, rfl, by decide⟩,
    _, Store.run_of_outcome_error (by decide +kernel)⟩
  obtain rfl := List.mem_singleton.mp member
  decide

end Container

end PackedStore
