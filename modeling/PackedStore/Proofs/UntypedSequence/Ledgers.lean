/-
This file says how much of a sequence decides what it will do: its values, its two
capacities and its growth step. The header follows from these, and so does which
lengths an operation asks its host for, one after another. What else stands in the
block, such as stale records behind the last one, never matters.
-/

import PackedStore.Proofs.Host.Scripts
import PackedStore.Proofs.UntypedSequence.Operations

namespace PackedStore.UntypedSequence

/-- What the future of a sequence depends on. -/
structure Ledger where
  capacity : Nat
  dataCapacity : Nat
  log2MinGrowth : Nat
  elements : List Datum

namespace Ledger

/-- The header of a sequence with the ledger. -/
def header (ledger : Ledger) : Header where
  magic := UntypedSequence.magic
  count := ledger.elements.length
  capacity := ledger.capacity
  dataCapacity := ledger.dataCapacity
  dataAllocated := packedFrom 0 ledger.elements
  log2MinGrowth := ledger.log2MinGrowth
  spare := (0, 0)

/-- The ledger of a new sequence. -/
def initial (capacity dataCapacity log2MinGrowth : Nat) : Ledger :=
  ⟨capacity, dataCapacity, log2MinGrowth, []⟩

/-! ### Plans -/

/-- More slots need a longer block. -/
def grow (capacity : Nat) : Plan Ledger Unit := do
  let ledger ← get
  let layout ← Layout.compute capacity ledger.dataCapacity
  Plan.ask layout.total
  set { ledger with capacity }

def setCapacity (capacity : Nat) : Plan Ledger Unit := do
  let ledger ← get
  if ledger.capacity < capacity then
    grow (← grownCapacity ledger.elements.length capacity ledger.log2MinGrowth)

/-- More arena needs a longer block. -/
def ensureData (required : Nat) : Plan Ledger Unit := do
  let ledger ← get
  if ledger.dataCapacity < required then
    let dataCapacity ← grownDataCapacity ledger.dataCapacity required ledger.log2MinGrowth
    let layout ← Layout.compute ledger.capacity dataCapacity
    Plan.ask layout.total
    set { ledger with dataCapacity }

def makeRoom : Plan Ledger Unit := do
  let ledger ← get
  if ledger.elements.length = ledger.capacity then
    grow (← nextCapacity ledger.elements.length ledger.capacity ledger.log2MinGrowth)

def fillSlot (datum : Datum) (stop : Nat) : Plan Ledger Nat := do
  ensureData stop
  let ledger ← get
  set { ledger with elements := ledger.elements ++ [datum] }
  return ledger.elements.length

/-- A value takes a slot and its bytes behind those of all others. -/
def add (datum : Datum) : Plan Ledger Nat := do
  demandStorable datum.type
  let ledger ← get
  let place ← placeBehind (packedFrom 0 ledger.elements) datum
  makeRoom
  fillSlot datum place.2

def exchange (index : Nat) (datum : Datum) : Plan Ledger Bytes := do
  let ledger ← get
  let old ← Elements.access ledger.elements index datum.type
  set { ledger with elements := Elements.write ledger.elements index datum.bytes }
  return old

def removeAt (index : Nat) : Plan Ledger Unit := do
  let ledger ← get
  let _ ← Elements.element ledger.elements index
  set { ledger with elements := ledger.elements.eraseIdx index }

/-- No value is left, and the capacities stay. -/
def clear : Plan Ledger Unit :=
  modify fun ledger => { ledger with elements := [] }

end Ledger

/-- What an operation does to the ledger of a sequence. -/
def Operation.plan : Operation → Plan Ledger Answer
  | add datum => .number <$> Ledger.add datum
  | exchange index datum => .content <$> Ledger.exchange index datum
  | removeAt index => (fun _ => .done) <$> Ledger.removeAt index
  | setCapacity capacity => (fun _ => .done) <$> Ledger.setCapacity capacity
  | clear => (fun _ => .done) <$> Ledger.clear
  | elementAt index type =>
    .content <$> Plan.tell fun ledger => Elements.access ledger.elements index type
  | bytesAt index => (fun found => .stored found.1 found.2) <$> Plan.tell fun ledger => do
    let datum ← Elements.element ledger.elements index
    return (datum.type.tag, datum.bytes)
  | tagAt index => .tag <$> Plan.tell fun ledger => do
    return (← Elements.element ledger.elements index).type.tag
  | sizeAt index => .number <$> Plan.tell fun ledger => do
    return (← Elements.element ledger.elements index).bytes.size
  | count => Plan.tell fun ledger => .ok (.number ledger.elements.length)

/-! ### What becomes of ledgers -/

namespace Ledger

open Script (granted_bind_eq_ok)

variable {ledger later : Ledger}

/-- The ledger after room has been made for one more slot. -/
def roomy (ledger : Ledger) : Ledger :=
  { ledger with capacity := roomyCapacity ledger.elements.length ledger.capacity }

/-- The ledger after room has been made for a number of bytes. -/
def widened (ledger : Ledger) (required : Nat) : Ledger :=
  { ledger with
    dataCapacity := wideCapacity ledger.log2MinGrowth ledger.dataCapacity required }

theorem granted_grow {capacity : Nat}
    (ends : ((grow capacity).run ledger).granted = (.ok (), later)) :
    later = { ledger with capacity } := by
  simp only [grow, Plan.run_bind, Plan.run_get, Plan.run_lift, Plan.run_ask, Plan.run_set,
    Script.bind_ok, Script.bind_asks, granted_bind_eq_ok, Script.granted, Prod.mk.injEq] at ends
  obtain ⟨layout, _, ⟨-, rfl⟩, -, rfl⟩ := ends
  rfl

theorem granted_makeRoom (regular : ledger.header.Regular)
    (ends : (makeRoom.run ledger).granted = (.ok (), later)) :
    later = ledger.roomy ∧ later.header.Regular ∧ later.elements.length < later.capacity := by
  have reached : IsCapacity ledger.log2MinGrowth ledger.capacity := regular.reached
  have fits (smaller : ledger.elements.length = ledger.capacity → ledger.capacity ≠ maxCapacity) :
      ledger.roomy.header.Regular ∧ ledger.roomy.elements.length < ledger.roomy.capacity := by
    obtain ⟨reachedRoomy, room⟩ := roomyCapacity_reached reached regular.count_le smaller
    exact ⟨⟨rfl, reachedRoomy, regular.dataReached, Nat.le_of_lt room, regular.allocated_le, rfl⟩,
      room⟩
  suffices same : later = ledger.roomy ∧
      (ledger.elements.length = ledger.capacity → ledger.capacity ≠ maxCapacity) by
    obtain ⟨rfl, smaller⟩ := same
    exact ⟨rfl, fits smaller⟩
  simp only [makeRoom, Plan.run_bind, Plan.run_get, Script.bind_ok] at ends
  by_cases full : ledger.elements.length = ledger.capacity
  · rw [if_pos full, nextCapacity_eq reached (Nat.le_of_eq full)] at ends
    by_cases largest : ledger.capacity = maxCapacity
    · rw [if_pos largest] at ends
      exact absurd (congrArg Prod.fst ends) (by simp [Script.granted])
    · rw [if_neg largest, Plan.run_bind, Plan.run_lift, Script.bind_ok] at ends
      rw [roomy, roomyCapacity, if_pos full]
      exact ⟨granted_grow ends, fun _ => largest⟩
  · rw [if_neg full] at ends
    rw [roomy, roomyCapacity, if_neg full]
    exact ⟨(congrArg Prod.snd ends).symm, fun isFull => absurd isFull full⟩

theorem granted_ensureData (regular : ledger.header.Regular) {required : Nat}
    (ends : ((ensureData required).run ledger).granted = (.ok (), later)) :
    later = ledger.widened required ∧ required ≤ later.dataCapacity := by
  simp only [ensureData, Plan.run_bind, Plan.run_get, Script.bind_ok] at ends
  by_cases more : ledger.dataCapacity < required
  · have step : ledger.log2MinGrowth ≤ 29 := regular.reached.le_log2
    have reached : IsArenaCapacity ledger.log2MinGrowth ledger.dataCapacity := regular.dataReached
    rw [if_pos more] at ends
    by_cases large : maxCapacity < required
    · rw [grownDataCapacity_eq_error step reached more large] at ends
      exact absurd (congrArg Prod.fst ends) (by simp [Script.granted])
    · rw [grownDataCapacity_eq step reached more (Nat.le_of_not_lt large)] at ends
      simp only [Plan.run_bind, Plan.run_lift, Plan.run_ask, Plan.run_set,
        Script.bind_ok, Script.bind_asks, granted_bind_eq_ok, Script.granted, Prod.mk.injEq] at ends
      obtain ⟨layout, _, ⟨-, rfl⟩, -, rfl⟩ := ends
      rw [widened, wideCapacity, if_pos more]
      exact ⟨rfl, ceilLog2_le_iff.mp (Nat.le_max_right _ _)⟩
  · rw [if_neg more] at ends
    obtain rfl : ledger = later := congrArg Prod.snd ends
    rw [widened, wideCapacity, if_neg more]
    exact ⟨rfl, Nat.le_of_not_lt more⟩

/-- A value that has been added stands behind all others. -/
theorem granted_add (regular : ledger.header.Regular) {datum : Datum} {index : Nat}
    (power : ∃ exponent, datum.type.align = 2 ^ exponent)
    (ends : ((add datum).run ledger).granted = (.ok index, later)) :
    index = ledger.elements.length ∧ later =
      { ledger.roomy.widened (packedFrom 0 (ledger.elements ++ [datum])) with
        elements := ledger.elements ++ [datum] } := by
  have near : packedFrom 0 ledger.elements < 2 ^ 32 :=
    Nat.lt_of_le_of_lt (Nat.le_trans regular.allocated_le regular.dataReached.le_max) (by decide)
  simp only [add, fillSlot, Plan.run_bind, Plan.run_get, Plan.run_lift, Plan.run_set, Plan.run_pure,
    Script.bind_ok, granted_bind_eq_ok, Script.granted, Prod.mk.injEq] at ends
  obtain ⟨_, _, ⟨storable, rfl⟩, place, _, ⟨placed, rfl⟩, _, roomy, made, _, wide, ensured, isIndex,
    rfl⟩ := ends
  obtain ⟨-, rfl⟩ := (placeBehind_eq_ok (storable_of power storable) near).mp placed
  obtain ⟨rfl, regularRoomy, -⟩ := granted_makeRoom regular made
  obtain ⟨rfl, -⟩ := granted_ensureData regularRoomy ensured
  refine ⟨(Except.ok.inj isIndex).symm, ?_⟩
  rw [packedFrom_append, packedFrom_cons, packedFrom_nil]
  rfl

end Ledger

/-! ### Sites -/

variable {Buffer : Type} [Host Buffer] {site later : Site Buffer} {image changed : Image}
  {elements others : List Datum} {ledger : Ledger}

/-- The sequence in the block of the site has the ledger. -/
def Records {Buffer : Type} [Host Buffer] (site : Site Buffer) (ledger : Ledger) : Prop :=
  ∃ image, Holds site image ledger.elements ∧ image.header = ledger.header

/-- The header of an image follows from its values, its capacities and its growth step. -/
theorem Represents.header_eq (represents : Represents image elements) :
    image.header = Ledger.header
      ⟨image.header.capacity, image.header.dataCapacity, image.header.log2MinGrowth, elements⟩ := by
  have regular := represents.regular
  rw [Ledger.header, ← represents.count, ← represents.allocated, ← regular.magic, ← regular.spare]

/-- Images of one layout have the same capacities. -/
theorem Image.Sound.capacities_eq (sound : image.Sound) (soundChanged : changed.Sound)
    (layout : changed.layout = image.layout) :
    changed.header.capacity = image.header.capacity ∧
      changed.header.dataCapacity = image.header.dataCapacity := by
  have slots := sound.placed.offsets
  have slotsChanged := soundChanged.placed.offsets
  have data := sound.placed.data
  have dataChanged := soundChanged.placed.data
  rw [layout] at slotsChanged dataChanged
  omega

namespace Records

theorem of_holds (holds : Holds site image elements) :
    Records site ⟨image.header.capacity, image.header.dataCapacity, image.header.log2MinGrowth,
      elements⟩ :=
  ⟨image, holds, holds.represents.header_eq⟩

/-- A change that keeps the layout keeps all but the values. -/
theorem of_changed (holds : Holds site image ledger.elements) (isHeader : image.header = ledger.header)
    (holdsLater : Holds later changed others) (layout : changed.layout = image.layout)
    (step : changed.header.log2MinGrowth = image.header.log2MinGrowth) :
    Records later { ledger with elements := others } := by
  have records := Records.of_holds holdsLater
  obtain ⟨slots, data⟩ :=
    holds.represents.sound.capacities_eq holdsLater.represents.sound layout
  rw [slots, data, step, isHeader] at records
  exact records

theorem of_bytes (records : Records site ledger) (same : later.bytes = site.bytes) :
    Records later ledger := by
  obtain ⟨image, holds, isHeader⟩ := records
  exact ⟨image, holds.of_bytes same, isHeader⟩

theorem regular (records : Records site ledger) : ledger.header.Regular := by
  obtain ⟨image, holds, isHeader⟩ := records
  rw [← isHeader]
  exact holds.represents.regular

end Records

end PackedStore.UntypedSequence
