/-
This file says when an untyped map needs its host to take one more value. With a slot
left, only a value that goes to the arena and ends behind its capacity needs a longer
block; with no slot left, every value needs the block of the next capacity first. All
other insertions succeed in any host and leave both capacities as they are.
-/

import PackedStore.Proofs.Host.Requests
import PackedStore.Proofs.UntypedMap.ArenaLeaks
import PackedStore.Proofs.UntypedMap.Copying

namespace PackedStore.UntypedMap

open Host (Rewrites)
open Store (Enacts Needs)

variable {Buffer : Type} [Host Buffer] {key : KeyType} {site : Site Buffer} {ledger : Ledger}
  {operation : Operation} {entryKey : Bytes} {payload : Payload}

/-! ### Lengths -/

namespace Header

variable (key : KeyType) (header : Header)

/-- The length of the block of a full map after its next growth. -/
def nextLength : Checked Nat := do
  let capacity ← nextCapacity header.count header.capacity header.log2MinGrowth
  let layout ← Layout.compute key.toElementType capacity (2 * capacity) header.dataCapacity
  return layout.total

/-- The length of the block after its arena has grown for a number of words. -/
def wideLength (required : Nat) : Checked Nat := do
  let dataCapacity ← grownDataCapacity header.dataCapacity required header.log2MinGrowth
  let layout ←
    Layout.compute key.toElementType header.capacity (2 * header.capacity) dataCapacity
  return layout.total

/-- Where a value ends in the arena that is stored next. -/
def stopFor (payload : Payload) : Nat :=
  stopBehind header.dataAllocated payload.bytes.size payload.align

end Header

/-! ### Operations that insert -/

/-- The operation stores a value that can be stored, if its key is not there. -/
inductive Operation.Introduces : Operation → Bytes → Payload → Prop where
  | add (entryKey : Bytes) {datum : Datum} (storable : demandStorable datum.type = .ok ()) :
      Introduces (.add entryKey datum) entryKey datum.payload
  | addBytes (entryKey : Bytes) (tag : TypeTag) {content : Bytes} (filled : content.size ≠ 0) :
      Introduces (.addBytes entryKey tag content) entryKey (.raw tag content)
  | addOrSet (entryKey : Bytes) {datum : Datum} (storable : demandStorable datum.type = .ok ()) :
      Introduces (.addOrSet entryKey datum) entryKey datum.payload
  | addOrSetBytes (entryKey : Bytes) (tag : TypeTag) {content : Bytes}
      (filled : content.size ≠ 0) :
      Introduces (.addOrSetBytes entryKey tag content) entryKey (.raw tag content)
  | getOrAdd (entryKey : Bytes) {default : Datum} (storable : demandStorable default.type = .ok ()) :
      Introduces (.getOrAdd entryKey default) entryKey default.payload

theorem Operation.Introduces.isAlign (introduces : operation.Introduces entryKey payload)
    (fits : operation.Fits ElementType.WellFormed key) : IsAlign payload.align := by
  cases introduces with
  | add _ storable | addOrSet _ storable | getOrAdd _ storable =>
    exact (fits_of_storable fits.2 storable).supported
  | addBytes _ tag | addOrSetBytes _ tag => exact (fits_raw tag _).supported

namespace Ledger

/-- The ledger with one more entry, for which there is a slot and room in the arena. -/
def filled (ledger : Ledger) (entryKey : Bytes) (payload : Payload) (place : Nat) : Ledger :=
  (ledger.raise (ledger.header.stopFor payload)).push entryKey payload.value place

/-- What an operation answers that has inserted a new key in a slot. -/
def reply : Operation → Nat → Ledger → Checked Answer
  | .add .., slot, _ | .addBytes .., slot, _ => .ok (.number slot)
  | .getOrAdd _ default, slot, later =>
    (fun content => .value (some content)) <$> later.read slot default.type
  | _, _, _ => .ok .done

/-- An operation that inserts a new key does what an insertion does, and answers. -/
theorem plan_of_introduces (introduces : operation.Introduces entryKey payload)
    (absent : Entries.find ledger.entries entryKey = none) :
    (operation.plan key).run ledger = ((insertNew key entryKey payload).run ledger).bind
      fun slot later => .ends (reply operation slot later) later := by
  cases introduces with
  | add _ storable =>
    simp only [Operation.plan, insertUnique, reply, Plan.run_map, Plan.run_bind, Plan.run_get,
      Plan.run_lift, storable, demand_of absent, Script.bind_ok]
  | addBytes _ tag filled =>
    simp only [Operation.plan, insertUnique, reply, Plan.run_map, Plan.run_bind, Plan.run_get,
      Plan.run_lift, demand_of filled, demand_of absent, Script.bind_ok]
  | addOrSet _ storable =>
    simp only [Operation.plan, store, reply, Plan.run_map, Plan.run_bind, Plan.run_get,
      Plan.run_lift, storable, absent, Script.bind_ok]
    exact Script.bind_assoc _ _ _
  | addOrSetBytes _ tag filled =>
    simp only [Operation.plan, store, reply, Plan.run_map, Plan.run_bind, Plan.run_get,
      Plan.run_lift, demand_of filled, absent, Script.bind_ok]
    exact Script.bind_assoc _ _ _
  | getOrAdd _ storable =>
    simp only [Operation.plan, getOrAdd, reply, Plan.run_map, Plan.run_bind, Plan.run_get,
      Plan.run_lift, storable, absent, Script.bind_ok, Script.bind_assoc]
    refine congrArg (Script.bind _) (funext fun slot => funext fun later => ?_)
    cases later.read slot _ <;> rfl

/-- A new entry is answered for. -/
theorem exists_reply (introduces : operation.Introduces entryKey payload)
    (fits : operation.Fits ElementType.WellFormed key) (even : ledger.Even) {place : Nat}
    (aligned : AlignedAt payload place) :
    ∃ answer, reply operation ledger.entries.length (ledger.filled entryKey payload place) =
      .ok answer := by
  cases introduces with
  | @getOrAdd _ default storable =>
    have evenRaised : (ledger.raise (ledger.header.stopFor default.payload)).Even := even
    have supported := (fits_of_storable fits.2 storable).supported
    exact ⟨_, congrArg (Functor.map _) (read_push supported evenRaised entryKey aligned)⟩
  | _ => exact ⟨_, rfl⟩

/-! ### What an insertion needs -/

section

variable (small : payload.bytes.size < 2 ^ 16)

include small

theorem needed_full (full : ledger.header.count = ledger.header.capacity) :
    ((insertNew key entryKey payload).run ledger).needed =
      some (ledger.header.nextLength key) := by
  simp only [insertNew, Plan.run_bind, Plan.run_lift, demand_of small, Script.bind_ok]
  refine Script.needed_bind ?_ _
  simp only [makeRoom, Plan.run_bind, Plan.run_get, Script.bind_ok, if_pos full, Plan.run_lift]
  refine Script.needed_check fun capacity => ?_
  simp only [grow, Plan.run_bind, Plan.run_get, Script.bind_ok, Plan.run_lift]
  exact Script.needed_check fun layout => rfl

variable (used : ledger.header.dataAllocated ≤ maxCapacity) (supported : IsAlign payload.align)
  (room : ledger.header.count < ledger.header.capacity)

omit small in
include room in
theorem run_makeRoom_within : (makeRoom key).run ledger = .ends (.ok ()) ledger := by
  simp only [makeRoom, Plan.run_bind, Plan.run_get, Script.bind_ok, if_neg (Nat.ne_of_lt room)]
  rfl

include used supported

/-- There is a place for every large value, although it may be behind the capacity. -/
theorem exists_planned (large : 4 < payload.bytes.size) :
    ∃ offset, planAllocation ledger.header.dataAllocated payload.bytes.size payload.align =
        some ⟨offset, ledger.header.stopFor payload⟩ ∧ payload.align ∣ offset * wordSize := by
  have words : wordsFor payload.bytes.size ≤ 2 ^ 14 := by
    unfold wordsFor wordSize
    omega
  unfold maxCapacity at used
  obtain ⟨offset, planned, -, -, aligned⟩ := @planAllocation_of ledger.header.dataAllocated
    payload.bytes.size payload.align supported (by unfold sizeLimit; omega)
  refine ⟨offset, ?_, aligned⟩
  rw [planned, Header.stopFor, ← stop_of_planAllocation planned (isLarge_iff.mpr large)]

include room in
theorem needed_narrow (large : 4 < payload.bytes.size)
    (narrow : ledger.header.dataCapacity < ledger.header.stopFor payload) :
    ((insertNew key entryKey payload).run ledger).needed =
      some (ledger.header.wideLength key (ledger.header.stopFor payload)) := by
  obtain ⟨offset, planned, -⟩ := exists_planned small used supported large
  simp only [insertNew, fillSlot, takeRoom, if_pos (isLarge_iff.mpr large), Plan.run_bind,
    Plan.run_lift, demand_of small, Script.bind_ok, run_makeRoom_within room]
  refine Script.needed_bind ?_ _
  simp only [allocate, Plan.run_bind, Plan.run_get, Plan.run_lift, Script.bind_ok, planned, orFail]
  refine Script.needed_bind ?_ _
  simp only [ensureData, Plan.run_bind, Plan.run_get, Script.bind_ok, if_pos narrow, Plan.run_lift]
  exact Script.needed_check fun dataCapacity => Script.needed_check fun layout => rfl

variable
  (wide : 4 < payload.bytes.size → ledger.header.stopFor payload ≤ ledger.header.dataCapacity)

include wide

/-- With room for the value in the arena, a slot is filled without a request. -/
theorem run_fillSlot_within :
    ∃ place, AlignedAt payload place ∧
      (fillSlot key entryKey payload).run ledger =
        .ends (.ok ledger.entries.length) (ledger.filled entryKey payload place) := by
  simp only [fillSlot, takeRoom, Plan.run_bind]
  by_cases large : 4 < payload.bytes.size
  · obtain ⟨offset, planned, aligned⟩ := exists_planned small used supported large
    refine ⟨offset, fun _ _ => aligned, ?_⟩
    simp only [if_pos (isLarge_iff.mpr large), allocate, ensureData, Plan.run_bind, Plan.run_get,
      Plan.run_lift, Script.bind_ok, planned, orFail, if_neg (Nat.not_lt_of_le (wide large))]
    rfl
  · refine ⟨0, fun _ isLarge => absurd isLarge large, ?_⟩
    have stop : ledger.header.stopFor payload = ledger.header.dataAllocated := by
      rw [Header.stopFor, stopBehind, if_neg fun isLarge => large (isLarge_iff.mp isLarge)]
    rw [if_neg fun isLarge => large (isLarge_iff.mp isLarge), filled, stop]
    rfl

include room in
/-- With room for the value, an insertion asks for nothing. -/
theorem run_insertNew_within :
    ∃ place, AlignedAt payload place ∧
      (insertNew key entryKey payload).run ledger =
        .ends (.ok ledger.entries.length) (ledger.filled entryKey payload place) := by
  simp only [insertNew, Plan.run_bind, Plan.run_lift, demand_of small, Script.bind_ok,
    run_makeRoom_within room]
  exact run_fillSlot_within small used supported wide

end

end Ledger

/-! ### Insertions -/

/-- An operation that inserts a new key needs the block of the next capacity if all slots are in use,
and otherwise a longer arena if its value goes there and ends behind the capacity. Otherwise it
succeeds whatever the host does, and the map keeps its capacities and its length. -/
structure InsertsWithinCapacity (key : KeyType) (operation : Operation) (payload : Payload)
    (site : Site Buffer) (before : Header) : Prop where
  read : header site = .ok before site
  count_le : before.count ≤ before.capacity
  full : before.count = before.capacity →
    Needs (operation.run key) site (some (before.nextLength key))
  narrow : before.count < before.capacity → 4 < payload.bytes.size →
    before.dataCapacity < before.stopFor payload →
    Needs (operation.run key) site (some (before.wideLength key (before.stopFor payload)))
  within : before.count < before.capacity →
    (4 < payload.bytes.size → before.stopFor payload ≤ before.dataCapacity) →
    ∃ answer later after, operation.run key site = .ok answer later ∧
      Rewrites site.buffer later.buffer ∧ header later = .ok after later ∧
      after.count = before.count + 1 ∧ after.capacity = before.capacity ∧
      after.dataCapacity = before.dataCapacity ∧ later.bytes.size = site.bytes.size

namespace Records

/-- The capacities determine the length of the block. -/
theorem same_length {later : Site Buffer} {ledgerLater : Ledger} (records : Records key site ledger)
    (recordsLater : Records key later ledgerLater)
    (slots : ledgerLater.header.capacity = ledger.header.capacity)
    (data : ledgerLater.header.dataCapacity = ledger.header.dataCapacity) :
    later.bytes.size = site.bytes.size := by
  obtain ⟨layout, computed, size⟩ := records.size_eq
  obtain ⟨layoutLater, computedLater, sizeLater⟩ := recordsLater.size_eq
  rw [slots, data] at computedLater
  rw [sizeLater, size, Except.ok.inj (computedLater.symm.trans computed)]

/-- An insertion of a new key goes to the slot and the words that are there, if they are. -/
theorem insertsWithinCapacity [LawfulHost Buffer] (wellFormed : key.toElementType.WellFormed)
    (records : Records key site ledger) (introduces : operation.Introduces entryKey payload)
    (fits : operation.Fits ElementType.WellFormed key) (small : payload.bytes.size < 2 ^ 16)
    (absent : Entries.find ledger.entries entryKey = none) :
    InsertsWithinCapacity key operation payload site ledger.header := by
  have regular := records.regular
  have used := Nat.le_trans regular.allocated_le regular.dataReached.le_max
  have supported := introduces.isAlign fits
  have enacts := records.enacts wellFormed fits
  rw [Ledger.plan_of_introduces introduces absent] at enacts
  refine ⟨records.run_header, regular.count_le, fun full => ?_, fun room large narrow => ?_,
    fun room wide => ?_⟩
  · have needs := enacts.needs
    rw [Script.needed_bind (Ledger.needed_full small full)] at needs
    exact needs
  · have needs := enacts.needs
    rw [Script.needed_bind (Ledger.needed_narrow small used supported room large narrow)] at needs
    exact needs
  · obtain ⟨place, suits, ran⟩ :=
      Ledger.run_insertNew_within small used supported room wide
    obtain ⟨answer, replies⟩ := Ledger.exists_reply introduces fits records.even suits
    rw [ran, Script.bind_ok, replies] at enacts
    obtain ⟨later, run, rewrites, recordsLater⟩ := enacts.ended
    refine ⟨answer, later, _, run, rewrites, recordsLater.run_header, ?_, rfl, rfl,
      records.same_length recordsLater rfl rfl⟩
    rw [records.count_eq]
    rfl

end Records

/-- In every reachable map a value with a new key takes the room that is there. -/
theorem Reachable.insertsWithinCapacity [LawfulHost Buffer]
    (wellFormed : key.toElementType.WellFormed)
    (reachable : Reachable ElementType.WellFormed key site)
    (introduces : operation.Introduces entryKey payload)
    (fits : operation.Fits ElementType.WellFormed key) (small : payload.bytes.size < 2 ^ 16)
    (isNew : contains key entryKey site = .ok false site) :
    ∃ before, InsertsWithinCapacity key operation payload site before := by
  obtain ⟨ledger, records⟩ := reachable.records wellFormed fun _ => id
  refine ⟨_, records.insertsWithinCapacity wellFormed introduces fits small ?_⟩
  obtain ⟨image, order, holds, -, -⟩ := records
  have found := (EStateM.Result.ok.inj ((holds.run_contains entryKey).symm.trans isNew)).1
  exact Option.not_isSome_iff_eq_none.mp (by simp [found])

end PackedStore.UntypedMap
