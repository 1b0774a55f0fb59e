/-
This file says what an overflow of a map or a sequence is blamed on, whatever was asked
of it. A request that overflows names the slots if it asked for more of them than there
can be, and the arena if it asked for more of that. Creation names the slots or the
growth step where these are too large; where only the arena is too large it names the
slots all the same, since it rounds both numbers in one way.
-/

import PackedStore.Proofs.Creations
import PackedStore.Proofs.UntypedMap.Overflows
import PackedStore.Proofs.UntypedSequence.Overflows

namespace PackedStore

/-! ### Sizings -/

/-- The quantity is one of the slots. -/
def Quantity.IsSlots : Quantity → Prop
  | slotCapacity | minimalGrowth => True
  | _ => False

namespace Sizing

variable {sizing : Sizing} {recorded capacity dataCapacity : Nat}

/-- The slots and the growth step can be rounded to capacities. -/
def SlotsFit (sizing : Sizing) : Prop :=
  sizing.capacity ≤ maxCapacity ∧ sizing.minGrowth ≤ maxCapacity

/-- What an overflow tells about the sizing of a container that records a size: the slots do not
fit, or the arena does not and the slots are named for it, or the size is no header word. -/
def Explains (sizing : Sizing) (recorded : Nat) (what : Quantity) : Prop :=
  (¬ sizing.SlotsFit ∧ what.IsSlots) ∨
  (sizing.SlotsFit ∧ maxCapacity < sizing.dataCapacity ∧ what = .slotCapacity) ∨
  (sizing.SlotsFit ∧ sizing.dataCapacity ≤ maxCapacity ∧ 2 ^ 32 ≤ recorded ∧
    (what.IsExtent ∨ what = .keySize))

theorem slotsFit_of_grown
    (grown : grownCapacity 0 sizing.capacity sizing.log2MinGrowth = .ok capacity) :
    sizing.SlotsFit := by
  obtain rfl := slots_of_grown grown
  exact grown_iff.mp grown

theorem exists_grown_error (unfit : ¬ sizing.SlotsFit) :
    ∃ what : Quantity, what.IsSlots ∧
      grownCapacity 0 sizing.capacity sizing.log2MinGrowth = .error (.overflow what) := by
  cases run : grownCapacity 0 sizing.capacity sizing.log2MinGrowth with
  | ok capacity => exact absurd (slotsFit_of_grown run) unfit
  | error failure =>
    rw [grownCapacity_eq] at run
    obtain ⟨-, rfl⟩ := cappedPower_eq_error run
    refine ⟨_, ?_, rfl⟩
    split <;> trivial

theorem names_grown : (grownCapacity 0 sizing.capacity sizing.log2MinGrowth).FailsOnly
    (Failure.Names (sizing.Explains recorded)) := by
  by_cases fit : sizing.SlotsFit
  · rw [grown_iff.mpr fit]
    exact .ok _
  · obtain ⟨what, isSlots, refused⟩ := exists_grown_error fit
    rw [refused]
    exact .error (Failure.names_overflow (Or.inl ⟨fit, isSlots⟩))

variable (fit : sizing.SlotsFit)

include fit

/-- An arena that is too large is refused in the name of the slots. -/
theorem initialData_of_large (large : maxCapacity < sizing.dataCapacity) :
    initialData sizing = .error (.overflow .slotCapacity) := by
  have step := (IsCapacity.of_grown (grown_iff.mpr fit)).1.le_log2
  rw [initialData, if_neg (by omega)]
  exact grownCapacity_eq_error (by omega) large

theorem names_initialData :
    (initialData sizing).FailsOnly (Failure.Names (sizing.Explains recorded)) := by
  by_cases small : sizing.dataCapacity ≤ maxCapacity
  · rw [(initialData_iff fit.2).mpr small]
    exact .ok _
  · have large := Nat.lt_of_not_le small
    rw [initialData_of_large fit large]
    exact .error (Failure.names_overflow (Or.inr (Or.inl ⟨fit, large, rfl⟩)))

theorem le_max_of_initialData (grownData : initialData sizing = .ok dataCapacity) :
    sizing.dataCapacity ≤ maxCapacity := by
  obtain rfl := arena_of_initialData grownData
  exact (initialData_iff fit.2).mp grownData

end Sizing

/-! ### Creation -/

variable {sizing : Sizing} {Buffer : Type} [Host Buffer]

namespace UntypedMap

variable {key : KeyType}

/-- Keys that no block can hold aligned are refused for that, and not for any size. -/
theorem Layout.compute_of_unsupported {capacity buckets dataCapacity : Nat}
    (unsupported : blockAlign < key.align) (bound : capacity ≤ maxCapacity) :
    compute key.toElementType capacity buckets dataCapacity =
      .error (.misuse (.arrayAlignment key.align)) := by
  have limits : sizeLimit = 2 ^ 64 ∧ blockAlign = 16 ∧ headerWords = 8 ∧
    Placement.start.cursor = 0 := ⟨rfl, rfl, rfl, rfl⟩
  unfold maxCapacity at bound
  obtain ⟨header, first, runHeader, stopHeader⟩ :=
    @Placement.arrayOf_word32 headerWords Placement.start (by omega)
  obtain ⟨values, second, runValues, -⟩ := @Placement.arrayOf_word32 capacity first (by omega)
  have refused : Placement.arrayOf capacity key.toElementType second =
      .error (.misuse (.arrayAlignment key.align)) second := by
    simp only [Placement.arrayOf, Placement.array, Edit.run_bind,
      demand_of_not (Nat.not_le_of_lt unsupported), Edit.run_lift_error]
  simp only [compute, Placement.total, Edit.run_bind, runHeader, runValues, refused]

namespace Ledger

/-- The layout of a new map is refused for the size of its keys only. -/
theorem names_layout {capacity dataCapacity : Nat} (fit : sizing.SlotsFit)
    (small : sizing.dataCapacity ≤ maxCapacity) (bound : capacity ≤ maxCapacity)
    (dataBound : dataCapacity ≤ maxCapacity) :
    (Layout.compute key.toElementType capacity (2 * capacity) dataCapacity).FailsOnly
      (Failure.Names (sizing.Explains key.size)) := by
  by_cases huge : 2 ^ 32 ≤ key.size
  · refine Layout.failsOnly_compute (fun what isExtent => ?_) fun _ => Failure.names_misuse _
    exact Failure.names_overflow (Or.inr (Or.inr ⟨fit, small, huge, Or.inl isExtent⟩))
  · by_cases supported : key.align ≤ blockAlign
    · obtain ⟨layout, computed, -⟩ :=
        Layout.compute_of supported (Nat.lt_of_not_le huge) bound dataBound
      rw [computed]
      exact .ok layout
    · rw [Layout.compute_of_unsupported (Nat.lt_of_not_le supported) bound]
      exact .error (Failure.names_misuse _)

theorem names_create :
    ((create key sizing).run none).FailsOnly (Failure.Names (sizing.Explains key.size)) := by
  simp only [create, Plan.run_bind, Plan.run_lift]
  refine .check Sizing.names_grown fun capacity grown => ?_
  have fit := Sizing.slotsFit_of_grown grown
  refine .check (Sizing.names_initialData fit) fun dataCapacity grownData => ?_
  have small := Sizing.le_max_of_initialData fit grownData
  simp only [Plan.run_bind, Plan.run_lift]
  refine .check (names_layout fit small (IsCapacity.of_grown grown).1.le_max
    (isArenaCapacity_of_initialData grownData).le_max) fun layout computed => ?_
  refine .check ?_ fun _ _ => .asks (.ok _ _)
  by_cases huge : 2 ^ 32 ≤ key.size
  · rw [toWord32, if_neg (Nat.not_lt_of_le huge)]
    exact .error (Failure.names_overflow (Or.inr (Or.inr ⟨fit, small, huge, Or.inr rfl⟩)))
  · rw [toWord32_of (Nat.lt_of_not_le huge)]
    exact .ok _

end Ledger

end UntypedMap

namespace UntypedSequence.Ledger

theorem names_create :
    ((create sizing).run none).FailsOnly (Failure.Names (sizing.Explains 0)) := by
  simp only [create, Plan.run_bind, Plan.run_lift]
  refine .check Sizing.names_grown fun capacity grown => ?_
  refine .check (Sizing.names_initialData (Sizing.slotsFit_of_grown grown))
    fun dataCapacity grownData => ?_
  obtain ⟨layout, computed, -⟩ := Layout.compute_of (IsCapacity.of_grown grown).1.le_max
    (isArenaCapacity_of_initialData grownData).le_max
  simp only [computed, Plan.run_bind, Plan.run_lift, Script.bind_ok]
  exact .asks (.ok _ _)

end UntypedSequence.Ledger

namespace Container

variable {container : Container} {site later : Site Buffer} {what : Quantity}

/-- A block that is in use is not refused for any quantity. -/
theorem empty_of_overflow (untyped : container.Untyped)
    (failed : container.init sizing site = .error (.overflow what) later) :
    site.bytes.size = 0 := by
  by_contra used
  cases container with
  | map key =>
    simp only [init, UntypedMap.init, Edit.run_bind, Store.run_length, demand_of_not used,
      Edit.run_lift_error, Failure.overflow, EStateM.Result.error.injEq, reduceCtorEq,
      false_and] at failed
  | sequence =>
    simp only [init, UntypedSequence.init, Edit.run_bind, Store.run_length, demand_of_not used,
      Edit.run_lift_error, Failure.overflow, EStateM.Result.error.injEq, reduceCtorEq,
      false_and] at failed
  | indexedMap shape => exact untyped

theorem explained_of_init [LawfulHost Buffer] (untyped : container.Untyped)
    (types : container.WellFormed)
    (failed : container.init sizing site = .error (.overflow what) later) :
    Host.Overflows Buffer what ∨ sizing.Explains container.recordedSize what := by
  have empty := empty_of_overflow untyped failed
  cases container with
  | map key =>
    exact (UntypedMap.enacts_init types.key empty sizing).overflow UntypedMap.Ledger.names_create
      failed
  | sequence =>
    exact (UntypedSequence.enacts_init empty sizing).overflow UntypedSequence.Ledger.names_create
      failed
  | indexedMap shape => exact untyped.elim

/-- Slots that do not fit are refused. -/
theorem exists_init_error (untyped : container.Untyped) (empty : site.bytes.size = 0)
    (unfit : ¬ sizing.SlotsFit) :
    ∃ what : Quantity, what.IsSlots ∧
      container.init sizing site = .error (.overflow what) site := by
  obtain ⟨what, isSlots, refused⟩ := Sizing.exists_grown_error unfit
  refine ⟨what, isSlots, ?_⟩
  cases container with
  | map key =>
    simp only [init, UntypedMap.init, Edit.run_bind, Store.run_length, demand_of empty,
      Edit.run_lift_ok, refused, Edit.run_lift_error]
  | sequence =>
    simp only [init, UntypedSequence.init, Edit.run_bind, Store.run_length, demand_of empty,
      Edit.run_lift_ok, refused, Edit.run_lift_error]
  | indexedMap shape => exact untyped.elim

/-! ### Requests -/

/-- The container at the site must have so many slots and so much arena for a request. -/
def Demands (site : Site Buffer) :
    (container : Container) → container.Request → Nat → Nat → Prop
  | map key, request, slots, arena => ∃ ledger, UntypedMap.Records key site ledger ∧
      slots = UntypedMap.Request.slotsFor ledger request ∧
      arena = UntypedMap.Request.arenaFor ledger request
  | sequence, request, slots, arena => ∃ ledger, UntypedSequence.Records site ledger ∧
      slots = UntypedSequence.Request.slotsFor ledger request ∧
      arena = UntypedSequence.Request.arenaFor ledger request
  | indexedMap _, _, _, _ => False

theorem Stands.blames [LawfulHost Buffer] (untyped : container.Untyped)
    (types : container.WellFormed) (stands : container.Stands site)
    {request : container.Request} (brings : container.Brings request)
    (failed : container.ask request site = .error (.overflow what) later) :
    Host.Overflows Buffer what ∨ ∃ slots arena, container.Demands site request slots arena ∧
      ((what = .slotCapacity ∧ maxCapacity < slots) ∨ (what.IsArena ∧ maxCapacity < arena)) := by
  cases container with
  | map key =>
    obtain ⟨ledger, records⟩ := stands
    have asked : UntypedMap.Request.ask key request site = .error (.overflow what) later :=
      Edit.map_eq_error failed
    exact (records.blames types.key brings asked).imp_right fun blamed =>
      ⟨_, _, ⟨ledger, records, rfl, rfl⟩, blamed⟩
  | sequence =>
    obtain ⟨ledger, records⟩ := stands
    have asked : UntypedSequence.Request.ask request site = .error (.overflow what) later :=
      Edit.map_eq_error failed
    exact (records.blames brings asked).imp_right fun blamed =>
      ⟨_, _, ⟨ledger, records, rfl, rfl⟩, blamed⟩
  | indexedMap shape => exact untyped.elim

/-- Whatever has been asked of a map or a sequence, a request that overflows names the slots if they
are too many and the arena if it is too large; a host may report overflows of its own. A creation
that overflows names the slots or the growth step exactly if these do not fit, except that it names
the slots also for an arena that does not fit. With keys of four gigabytes or more, it is the layout
or the size of a key that overflows. -/
theorem overflows_attributed [LawfulHost Buffer] (untyped : container.Untyped)
    (types : container.WellFormed) (sizing : Sizing) (site : Site Buffer) :
    (∀ what later, container.init sizing site = .error (.overflow what) later →
      Host.Overflows Buffer what ∨ sizing.Explains container.recordedSize what) ∧
    (site.bytes.size = 0 → ¬ sizing.SlotsFit → ∃ what : Quantity, what.IsSlots ∧
      container.init sizing site = .error (.overflow what) site) ∧
    ∀ created requests, container.init sizing site = .ok () created →
      (∀ request ∈ requests, container.Brings request) →
      ∀ request what later, container.Brings request →
        container.ask request ((Store.machine container.ask).reached requests created) =
          .error (.overflow what) later →
        Host.Overflows Buffer what ∨ ∃ slots arena,
          container.Demands ((Store.machine container.ask).reached requests created) request
            slots arena ∧
          ((what = .slotCapacity ∧ maxCapacity < slots) ∨
            (what.IsArena ∧ maxCapacity < arena)) := by
  refine ⟨fun what later => explained_of_init untyped types, exists_init_error untyped, ?_⟩
  intro created requests run brings request what later bringsLast failed
  have step : ∀ request (site : Site Buffer), container.Brings request → container.Stands site →
      container.Stands (Store.machine container.ask request site).2 :=
    fun request site brings stands => stands.ask types brings
  have start : container.Stands created := .of_init types run
  exact (Machine.reached_of_step step brings start).blames untyped types bringsLast failed

/-- The request that adds a first word. -/
def firstWord : UntypedMap.Request :=
  .perform (.add (UntypedMap.keyOf 7) (UntypedSequence.wordDatum 1))

/-- A map of words with one entry. -/
def oneWord : Site BlockBuffer :=
  (Store.machine (map wordKey).ask).reached [firstWord]
    (Store.outcome ((map wordKey).init ⟨1, 0, 1⟩) (BlockBuffer.unused none)).2

/-- A map of words is refused if it is to have more slots than there can be. The map with one word
has no arena for more words than there can be, and names the arena. -/
theorem word_map_overflows :
    (∃ what : Quantity, what.IsSlots ∧ (map wordKey).init ⟨2 ^ 29 + 1, 0, 1⟩
      (BlockBuffer.unused none) = .error (.overflow what) (BlockBuffer.unused none)) ∧
    ∃ later slots arena, (map wordKey).ask (.perform (.reserveData (2 ^ 29 + 1))) oneWord =
        .error (.overflow .arenaCapacity) later ∧
      (map wordKey).Demands oneWord (.perform (.reserveData (2 ^ 29 + 1))) slots arena ∧
      maxCapacity < arena := by
  have types : (map wordKey).WellFormed := .of_key ElementType.wellFormed_word32
  constructor
  · obtain ⟨-, refused, -⟩ := @overflows_attributed BlockBuffer _ (map wordKey) _ trivial types
      ⟨2 ^ 29 + 1, 0, 1⟩ (BlockBuffer.unused none)
    exact refused rfl fun fit => absurd fit.1 (by decide)
  · obtain ⟨-, -, blamed⟩ := @overflows_attributed BlockBuffer _ (map wordKey) _ trivial types
      ⟨1, 0, 1⟩ (BlockBuffer.unused none)
    have created : (map wordKey).init ⟨1, 0, 1⟩ (BlockBuffer.unused none) = .ok () _ :=
      Store.run_of_outcome_ok (by decide +kernel)
    have brings : ∀ request ∈ [firstWord], (map wordKey).Brings request := by
      intro request member
      obtain rfl := List.mem_singleton.mp member
      exact ⟨UntypedMap.fits_keyOf rfl 7, ElementType.wellFormed_word32⟩
    have refused : (Store.outcome (UntypedMap.reserveData wordKey (2 ^ 29 + 1)) oneWord).1 =
        .error (.overflow .arenaCapacity) := by decide +kernel
    have reserve := Store.run_of_outcome_error refused
    generalize (Store.outcome (UntypedMap.reserveData wordKey (2 ^ 29 + 1)) oneWord).2 = later
      at reserve
    have failed : (map wordKey).ask (.perform (.reserveData (2 ^ 29 + 1))) oneWord =
        .error (.overflow .arenaCapacity) later := by
      rw [ask, Edit.run_map, UntypedMap.Request.ask, Edit.run_map, UntypedMap.Operation.run,
        Edit.run_map, reserve]
    have named := blamed _ [firstWord] created brings (.perform (.reserveData (2 ^ 29 + 1))) _ later
      trivial failed
    rcases named with own | ⟨slots, arena, demands, ⟨same, -⟩ | ⟨-, beyond⟩⟩
    · exact absurd own (BlockBuffer.limited.not_overflows _)
    · exact absurd same (by decide)
    · exact ⟨_, slots, arena, failed, demands, beyond⟩

/-- One word of arena too many is refused in the name of the slots, of which there are enough. -/
theorem arena_refused_as_slots :
    ({ dataCapacity := 2 ^ 29 + 1 } : Sizing).SlotsFit ∧ ¬ Quantity.slotCapacity.IsArena ∧
      UntypedMap.init wordKey { dataCapacity := 2 ^ 29 + 1 } (BlockBuffer.unused none) =
        .error (.overflow .slotCapacity) (BlockBuffer.unused none) ∧
      UntypedSequence.init { dataCapacity := 2 ^ 29 + 1 } (BlockBuffer.unused none) =
        .error (.overflow .slotCapacity) (BlockBuffer.unused none) :=
  ⟨⟨by decide, by decide⟩, id, rfl, rfl⟩

end Container

end PackedStore
