/-
This file says when a sequence needs its host to take one more value. Every value goes
to the arena, so with a slot left it needs a longer block exactly if it ends behind the
capacity of the arena; with no slot left it needs the block of the next capacity first.
All other values are added in any host, and both capacities stay as they are.
-/

import PackedStore.Proofs.Host.Requests
import PackedStore.Proofs.UntypedSequence.LedgerReplies
import PackedStore.Proofs.UntypedSequence.Reachable

namespace PackedStore.UntypedSequence

open Host (Rewrites)
open Store (Enacts Needs)

variable {Buffer : Type} [Host Buffer] {site : Site Buffer} {elements : List Datum} {datum : Datum}
  {ledger : Ledger}

/-! ### Lengths -/

namespace Header

variable (header : Header)

/-- The length of the block of a full sequence after its next growth. -/
def nextLength : Checked Nat := do
  let capacity ← nextCapacity header.count header.capacity header.log2MinGrowth
  let layout ← Layout.compute capacity header.dataCapacity
  return layout.total

/-- The length of the block after its arena has grown for a number of bytes. -/
def wideLength (required : Nat) : Checked Nat := do
  let dataCapacity ← grownDataCapacity header.dataCapacity required header.log2MinGrowth
  let layout ← Layout.compute header.capacity dataCapacity
  return layout.total

/-- Where a value ends in the arena that is added next. -/
def stopFor (datum : Datum) : Nat :=
  stopFrom header.dataAllocated datum

end Header

/-- A value that ends where no header can say so has no place. -/
theorem placeBehind_eq_error {cursor : Nat} (storable : Storable datum.type) (near : cursor < 2 ^ 32)
    (beyond : 2 ^ 32 ≤ stopFrom cursor datum) :
    placeBehind cursor datum = .error (.overflow .arenaSize) := by
  have size : startFrom cursor datum + datum.type.size = stopFrom cursor datum := by
    rw [stopFrom, datum.size_bytes]
  have noWord : toWord32 (stopFrom cursor datum) .arenaSize = .error (.overflow .arenaSize) :=
    if_neg (Nat.not_lt_of_le beyond)
  simp only [placeBehind, storable.alignUp?_eq near, orFail, Checked.bind_ok, size]
  by_cases sized : stopFrom cursor datum < sizeLimit
  · rw [show size? (stopFrom cursor datum) = some (stopFrom cursor datum) from if_pos sized]
    by_cases start : startFrom cursor datum < 2 ^ 32
    · simp only [Checked.bind_ok, toWord32_of start, noWord, Checked.bind_error]
    · have noStart : toWord32 (startFrom cursor datum) .arenaSize =
          .error (.overflow .arenaSize) := if_neg start
      simp only [Checked.bind_ok, noStart, Checked.bind_error]
  · rw [show size? (stopFrom cursor datum) = none from if_neg sized]
    rfl

/-! ### What an addition needs -/

namespace Ledger

section

variable (storable : Storable datum.type) (near : packedFrom 0 ledger.elements < 2 ^ 32)

include storable near

theorem run_add_beyond (beyond : 2 ^ 32 ≤ ledger.header.stopFor datum) :
    (add datum).run ledger = .ends (.error (.overflow .arenaSize)) ledger := by
  simp only [add, Plan.run_bind, Plan.run_get, Plan.run_lift, demandStorable_of storable,
    Script.bind_ok, placeBehind_eq_error storable near beyond, Script.bind_error]

variable (inWords : ledger.header.stopFor datum < 2 ^ 32)

include inWords

/-- A value that has a place takes a slot and then its bytes. -/
theorem run_add : (add datum).run ledger = (makeRoom.run ledger).bind fun _ =>
    (fillSlot datum (ledger.header.stopFor datum)).run := by
  simp only [add, Plan.run_bind, Plan.run_get, Plan.run_lift, demandStorable_of storable,
    Script.bind_ok, (placeBehind_eq_ok storable near).mpr ⟨inWords, rfl⟩]
  rfl

theorem needed_full (full : ledger.elements.length = ledger.capacity) :
    ((add datum).run ledger).needed = some ledger.header.nextLength := by
  rw [run_add storable near inWords]
  refine Script.needed_bind ?_ _
  simp only [makeRoom, Plan.run_bind, Plan.run_get, Script.bind_ok, if_pos full, Plan.run_lift]
  refine Script.needed_check fun capacity => ?_
  simp only [grow, Plan.run_bind, Plan.run_get, Script.bind_ok, Plan.run_lift]
  exact Script.needed_check fun layout => rfl

variable (room : ledger.elements.length < ledger.capacity)

include room

theorem run_add_within : (add datum).run ledger =
    (fillSlot datum (ledger.header.stopFor datum)).run ledger := by
  rw [run_add storable near inWords]
  simp only [makeRoom, Plan.run_bind, Plan.run_get, Script.bind_ok, if_neg (Nat.ne_of_lt room),
    Plan.run_pure]

theorem needed_narrow (narrow : ledger.dataCapacity < ledger.header.stopFor datum) :
    ((add datum).run ledger).needed =
      some (ledger.header.wideLength (ledger.header.stopFor datum)) := by
  rw [run_add_within storable near inWords room]
  simp only [fillSlot, Plan.run_bind]
  refine Script.needed_bind ?_ _
  simp only [ensureData, Plan.run_bind, Plan.run_get, Script.bind_ok, if_pos narrow, Plan.run_lift]
  exact Script.needed_check fun dataCapacity => Script.needed_check fun layout => rfl

/-- With room for the value, an addition asks for nothing. -/
theorem run_add_wide (wide : ledger.header.stopFor datum ≤ ledger.dataCapacity) :
    (add datum).run ledger = .ends (.ok ledger.elements.length)
      { ledger with elements := ledger.elements ++ [datum] } := by
  rw [run_add_within storable near inWords room]
  simp only [fillSlot, ensureData, Plan.run_bind, Plan.run_get, Script.bind_ok,
    if_neg (Nat.not_lt_of_le wide)]
  rfl

end

end Ledger

/-! ### Additions -/

/-- A value needs the block of the next capacity if all slots are in use, and otherwise a longer arena
if it ends behind the capacity. Otherwise it is added whatever the host does, and the sequence keeps
its capacities and its length. No arena is large enough for a value that ends beyond all words. -/
structure AddsWithinCapacity (datum : Datum) (site : Site Buffer) (before : Header) : Prop where
  read : header site = .ok before site
  count_le : before.count ≤ before.capacity
  beyond : 2 ^ 32 ≤ before.stopFor datum →
    Needs (add datum) site (some (.error (.overflow .arenaSize)))
  full : before.stopFor datum < 2 ^ 32 → before.count = before.capacity →
    Needs (add datum) site (some before.nextLength)
  narrow : before.stopFor datum < 2 ^ 32 → before.count < before.capacity →
    before.dataCapacity < before.stopFor datum →
    Needs (add datum) site (some (before.wideLength (before.stopFor datum)))
  within : before.count < before.capacity → before.stopFor datum ≤ before.dataCapacity →
    ∃ later after, add datum site = .ok before.count later ∧
      Rewrites site.buffer later.buffer ∧ header later = .ok after later ∧
      after.count = before.count + 1 ∧ after.capacity = before.capacity ∧
      after.dataCapacity = before.dataCapacity ∧ later.bytes.size = site.bytes.size

namespace Records

/-- The capacities determine the length of the block. -/
theorem same_length {later : Site Buffer} {ledgerLater : Ledger} (records : Records site ledger)
    (recordsLater : Records later ledgerLater) (slots : ledgerLater.capacity = ledger.capacity)
    (data : ledgerLater.dataCapacity = ledger.dataCapacity) :
    later.bytes.size = site.bytes.size := by
  obtain ⟨layout, computed, size⟩ := records.size_eq
  obtain ⟨layoutLater, computedLater, sizeLater⟩ := recordsLater.size_eq
  rw [slots, data] at computedLater
  rw [sizeLater, size, Except.ok.inj (computedLater.symm.trans computed)]

theorem run_header (records : Records site ledger) : header site = .ok ledger.header site := by
  obtain ⟨image, holds, isHeader⟩ := records
  rw [holds.run_header, isHeader]

/-- A value goes to the slot and the bytes that are there, if they are. -/
theorem addsWithinCapacity [LawfulHost Buffer] (records : Records site ledger)
    (wellFormed : datum.type.WellFormed) (checked : demandStorable datum.type = .ok ()) :
    AddsWithinCapacity datum site ledger.header := by
  have regular := records.regular
  have bound := regular.dataReached.le_max
  have near : packedFrom 0 ledger.elements < 2 ^ 32 :=
    Nat.lt_of_le_of_lt (Nat.le_trans regular.allocated_le bound) (by decide)
  have storable := storable_of wellFormed.align_eq checked
  have enacts : Enacts Records site (add datum) ((Ledger.add datum).run ledger) :=
    records.enacts_add wellFormed.align_eq
  refine ⟨records.run_header, regular.count_le, fun beyond => ?_, fun inWords full => ?_,
    fun inWords room narrow => ?_, fun room wide => ?_⟩
  · rw [Ledger.run_add_beyond storable near beyond] at enacts
    exact enacts.needs
  · have needs := enacts.needs
    rw [Ledger.needed_full storable near inWords full] at needs
    exact needs
  · have needs := enacts.needs
    rw [Ledger.needed_narrow storable near inWords room narrow] at needs
    exact needs
  · have inWords : ledger.header.stopFor datum < 2 ^ 32 :=
      Nat.lt_of_le_of_lt (Nat.le_trans wide bound) (by decide)
    rw [Ledger.run_add_wide storable near inWords room wide] at enacts
    obtain ⟨later, run, rewrites, recordsLater⟩ := enacts.ended
    exact ⟨later, _, run, rewrites, recordsLater.run_header, List.length_append, rfl, rfl,
      records.same_length recordsLater rfl rfl⟩

end Records

/-- In every reachable sequence a value takes the room that is there. -/
theorem Reachable.addsWithinCapacity [LawfulHost Buffer] (reachable : Reachable site elements)
    (wellFormed : datum.type.WellFormed) (storable : demandStorable datum.type = .ok ()) :
    ∃ before, AddsWithinCapacity datum site before := by
  obtain ⟨image, holds⟩ := reachable.carries
  exact ⟨_, (Records.of_holds holds).addsWithinCapacity wellFormed storable⟩

end PackedStore.UntypedSequence
