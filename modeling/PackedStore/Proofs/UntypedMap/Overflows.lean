/-
This file says which quantity an untyped map names when one overflows. It names the
slots only where a growth of the slots was refused, for which more of them were asked
for than there can be, and the arena only where a value or a reservation would end
behind the largest arena. A layout for capacities that growth can reach never overflows.
-/

import PackedStore.Proofs.Host.Blames
import PackedStore.Proofs.Slots.Allocations
import PackedStore.Proofs.UntypedMap.ArenaReserves

namespace PackedStore.UntypedMap

open Failure (Blames)

/-! ### What is asked for -/

/-- The number of slots for the entries and for one with a key. -/
def Entries.slotsWith (entries : List Entry) (entryKey : Bytes) : Nat :=
  if find entries entryKey = none then entries.length + 1 else entries.length

namespace Operation

/-- The number of slots that a map must have for an operation. -/
def slotsFor (entries : List Entry) : Operation → Nat
  | setCapacity capacity => capacity
  | add entryKey _ | addOrSet entryKey _ | getOrAdd entryKey _ | addBytes entryKey _ _
  | addOrSetBytes entryKey _ _ => Entries.slotsWith entries entryKey
  | _ => entries.length

/-- The number of words that an arena must have for an operation. -/
def arenaFor (header : Header) : Operation → Nat
  | reserveData additional => header.dataAllocated + additional
  | operation => operation.brought?.elim header.dataAllocated header.stopFor

end Operation

variable {key : KeyType} {ledger : Ledger} {slots arena : Nat} {entryKey : Bytes}
  {payload : Payload}

namespace Ledger

/-! ### Slots -/

section

variable (regular : ledger.header.Regular key) (supported : key.align ≤ blockAlign)

include regular supported

/-- There is a layout for every capacity that growth can reach. -/
theorem failsOnly_grow {allowed : Failure → Prop} {capacity : Nat}
    (small : capacity ≤ maxCapacity) :
    ((grow key capacity).run ledger).FailsOnly allowed := by
  obtain ⟨layout, computed, -⟩ :=
    Layout.compute_of supported regular.keySize_lt small regular.dataReached.le_max
  simp only [grow, computed, Plan.run_bind, Plan.run_get, Plan.run_lift, Plan.run_ask, Plan.run_set,
    Script.bind_ok, Script.bind_asks]
  exact .asks (.ok _ _)

theorem blames_setCapacity (capacity : Nat) :
    ((setCapacity key capacity).run ledger).FailsOnly (Blames capacity arena) := by
  simp only [setCapacity, Plan.run_bind, Plan.run_get, Script.bind_ok]
  by_cases more : ledger.header.capacity < capacity
  · have rows := Nat.le_trans regular.count_le regular.reached.le_max
    rw [if_pos more]
    exact .check (blames_grownCapacity regular.reached.le_log2 rows) fun larger grown =>
      failsOnly_grow regular supported (IsCapacity.of_grown grown).1.le_max
  · rw [if_neg more]
    exact .ok _ _

theorem blames_makeRoom :
    ((makeRoom key).run ledger).FailsOnly (Blames (ledger.header.count + 1) arena) := by
  simp only [makeRoom, Plan.run_bind, Plan.run_get, Script.bind_ok]
  by_cases full : ledger.header.count = ledger.header.capacity
  · rw [if_pos full]
    exact .check (blames_nextCapacity regular.reached full) fun larger next =>
      failsOnly_grow regular supported (regular.reached.of_next (Nat.le_of_eq full) next).le_max
  · rw [if_neg full]
    exact .ok _ _

/-! ### The arena -/

theorem blames_ensureData (required : Nat) :
    ((ensureData key required).run ledger).FailsOnly (Blames slots required) := by
  have step := regular.reached.le_log2
  simp only [ensureData, Plan.run_bind, Plan.run_get, Script.bind_ok]
  by_cases more : ledger.header.dataCapacity < required
  · rw [if_pos more]
    refine .check (blames_grownDataCapacity step regular.dataReached more) fun larger grown => ?_
    have reached := IsCapacity.of_grownData step regular.dataReached more grown
    obtain ⟨layout, computed, -⟩ :=
      Layout.compute_of supported regular.keySize_lt regular.reached.le_max reached.le_max
    simp only [computed, Plan.run_bind, Plan.run_lift, Plan.run_ask, Plan.run_set, Script.bind_ok,
      Script.bind_asks]
    exact .asks (.ok _ _)
  · rw [if_neg more]
    exact .ok _ _

theorem blames_reserveData (additional : Nat) :
    ((reserveData key additional).run ledger).FailsOnly
      (Blames slots (ledger.header.dataAllocated + additional)) := by
  simp only [reserveData, Plan.run_bind, Plan.run_get, Script.bind_ok, Plan.run_lift]
  refine .check (blames_size? _) fun required isRequired => ?_
  obtain ⟨-, rfl⟩ := size?_eq_some_iff.mp (orFail_eq_ok.mp isRequired)
  exact blames_ensureData regular supported _

/-- A large value is refused where it would end behind the largest arena. -/
theorem blames_allocate {size align : Nat} (isAlign : IsAlign align) (large : isLarge size = true) :
    ((allocate key size align).run ledger).FailsOnly
      (Blames slots (stopBehind ledger.header.dataAllocated size align)) := by
  simp only [allocate, Plan.run_bind, Plan.run_get, Script.bind_ok, Plan.run_lift]
  refine .check ?_ fun allocation planned => ?_
  · rw [isAlign.planAllocation_eq (isAlign.isLeast_raise _), stopBehind, if_pos large, wordsFor_eq]
    split
    · exact .ok _
    · next beyond =>
      exact .error (Failure.blames_arena trivial
        (Nat.lt_of_lt_of_le (by decide) (Nat.le_of_not_lt beyond)))
  · rw [← stop_of_planAllocation (orFail_eq_ok.mp planned) large]
    exact (blames_ensureData regular supported _).bind fun _ _ _ => .ok _ _

theorem blames_takeRoom (isAlign : IsAlign payload.align) :
    ((takeRoom key payload).run ledger).FailsOnly
      (Blames slots (ledger.header.stopFor payload)) := by
  unfold takeRoom
  by_cases large : isLarge payload.bytes.size = true
  · rw [if_pos large]
    exact blames_allocate regular supported isAlign large
  · rw [if_neg large]
    exact .ok _ _

theorem blames_fillSlot (isAlign : IsAlign payload.align) :
    ((fillSlot key entryKey payload).run ledger).FailsOnly
      (Blames slots (ledger.header.stopFor payload)) := by
  simp only [fillSlot, Plan.run_bind]
  exact (blames_takeRoom regular supported isAlign).bind fun _ _ _ => .ok _ _

/-! ### Entries -/

/-- A new entry asks for one more slot, and then for its words. -/
theorem blames_insertNew (isAlign : IsAlign payload.align) :
    ((insertNew key entryKey payload).run ledger).FailsOnly
      (Blames (ledger.header.count + 1) (ledger.header.stopFor payload)) := by
  simp only [insertNew, Plan.run_bind, Plan.run_lift]
  refine .check (Checked.names_demand _ _) fun _ _ => ?_
  refine (blames_makeRoom regular supported).bind fun _ later made => ?_
  obtain ⟨rfl, regularLater, -⟩ := granted_makeRoom regular made
  exact @blames_fillSlot key { ledger with header := roomy ledger.header } _ _ _ regularLater
    supported isAlign

/-- A value in the place of another one asks for words where it cannot stand there. -/
theorem blames_replace (slot : Nat) (isAlign : IsAlign payload.align) :
    ((replace key slot payload).run ledger).FailsOnly
      (Blames slots (ledger.header.stopFor payload)) := by
  simp only [replace, Plan.run_bind, Plan.run_get, Script.bind_ok, Plan.run_lift]
  refine .check (.orFail _ (Failure.names_fault _)) fun old _ => ?_
  refine .check (Checked.names_demand _ _) fun _ _ => ?_
  split
  · exact .ok _ _
  · next moves =>
    have large : isLarge payload.bytes.size = true := isLarge_iff.mpr (by omega)
    simp only [Plan.run_bind]
    exact (blames_allocate regular supported isAlign large).bind fun _ _ _ => .ok _ _

section

variable (counted : ledger.header.count = ledger.entries.length)

include counted

theorem blames_store (isAlign : IsAlign payload.align) :
    ((store key entryKey payload).run ledger).FailsOnly
      (Blames (Entries.slotsWith ledger.entries entryKey) (ledger.header.stopFor payload)) := by
  simp only [store, Plan.run_bind, Plan.run_get, Script.bind_ok]
  cases found : Entries.find ledger.entries entryKey with
  | some slot => exact blames_replace regular supported slot isAlign
  | none =>
    rw [Entries.slotsWith, if_pos found, ← counted]
    exact (blames_insertNew regular supported isAlign).bind fun _ _ _ => .ok _ _

theorem blames_insertUnique (isAlign : IsAlign payload.align) :
    ((insertUnique key entryKey payload).run ledger).FailsOnly
      (Blames (Entries.slotsWith ledger.entries entryKey) (ledger.header.stopFor payload)) := by
  simp only [insertUnique, Plan.run_bind, Plan.run_get, Plan.run_lift, Script.bind_ok]
  refine .check (Checked.names_demand _ _) fun _ demanded => ?_
  rw [Entries.slotsWith, if_pos (demand_eq_ok.mp demanded), ← counted]
  exact blames_insertNew regular supported isAlign

end

end

/-! ### Reads -/

theorem blames_read (slot : Nat) (type : ElementType) :
    (ledger.read slot type).FailsOnly (Blames slots arena) := by
  have stored : (Entries.read ledger.entries slot type).FailsOnly (Blames slots arena) :=
    .bind (.orFail _ (Failure.names_fault _)) fun value =>
      .bind (Checked.names_demand _ _) fun _ => .ok _
  refine stored.bind fun content => ?_
  split
  · exact .bind (.bind (Checked.names_require _ _) fun _ => .ok _) fun aligned =>
      .bind (Checked.names_require _ _) fun _ => .ok content
  · exact .ok content

theorem blames_exchange (wanted : Bytes) (datum : Datum) :
    ((exchange wanted datum).run ledger).FailsOnly (Blames slots arena) := by
  simp only [exchange, Plan.run_bind, Plan.run_get, Script.bind_ok]
  cases found : Entries.find ledger.entries wanted with
  | none => exact .ok _ _
  | some slot => exact .check (blames_read slot datum.type) fun _ _ => .ok _ _

theorem blames_get? (wanted : Bytes) (type : ElementType) :
    ((get? wanted type).run ledger).FailsOnly (Blames slots arena) := by
  simp only [get?, Plan.run_bind, Plan.run_get, Script.bind_ok]
  cases found : Entries.find ledger.entries wanted with
  | none => exact .ok _ _
  | some slot => exact .check (blames_read slot type) fun _ _ => .ok _ _

theorem blames_getOrAdd (regular : ledger.header.Regular key) (supported : key.align ≤ blockAlign)
    (counted : ledger.header.count = ledger.entries.length) {default : Datum}
    (isAlign : IsAlign default.type.align) :
    ((getOrAdd key entryKey default).run ledger).FailsOnly
      (Blames (Entries.slotsWith ledger.entries entryKey)
        (ledger.header.stopFor default.payload)) := by
  simp only [getOrAdd, Plan.run_bind, Plan.run_get, Script.bind_ok]
  cases found : Entries.find ledger.entries entryKey with
  | some slot => exact blames_read slot default.type
  | none =>
    rw [Entries.slotsWith, if_pos found, ← counted]
    refine (@blames_insertNew key ledger entryKey default.payload regular supported isAlign).bind
      fun slot later _ => ?_
    simp only [Plan.run_bind, Plan.run_get, Script.bind_ok]
    exact blames_read slot default.type

end Ledger

/-! ### Operations -/

/-- An operation on a map overflows if it asks for more slots or more arena than there can be, and
blames what it asked too much of. -/
theorem Operation.blames {operation : Operation} (fits : operation.Fits ElementType.WellFormed key)
    (regular : ledger.header.Regular key) (supported : key.align ≤ blockAlign)
    (counted : ledger.header.count = ledger.entries.length) :
    ((operation.plan key).run ledger).FailsOnly
      (Blames (operation.slotsFor ledger.entries) (operation.arenaFor ledger.header)) := by
  cases operation with
  | add entryKey datum =>
    refine Script.FailsOnly.map (.check (Checked.names_demandStorable _) fun _ storable => ?_)
    exact Ledger.blames_insertUnique regular supported counted
      (fits_of_storable fits.2 storable).supported
  | addBytes entryKey tag content =>
    refine Script.FailsOnly.map (.check (Checked.names_demand _ _) fun _ _ => ?_)
    exact Ledger.blames_insertUnique regular supported counted (fits_raw tag content).supported
  | addOrSet entryKey datum =>
    refine Script.FailsOnly.map (.check (Checked.names_demandStorable _) fun _ storable => ?_)
    exact Ledger.blames_store regular supported counted (fits_of_storable fits.2 storable).supported
  | addOrSetBytes entryKey tag content =>
    refine Script.FailsOnly.map (.check (Checked.names_demand _ _) fun _ _ => ?_)
    exact Ledger.blames_store regular supported counted (fits_raw tag content).supported
  | getOrAdd entryKey default =>
    refine Script.FailsOnly.map (.check (Checked.names_demandStorable _) fun _ storable => ?_)
    exact Ledger.blames_getOrAdd regular supported counted
      (fits_of_storable fits.2 storable).supported
  | exchange wanted datum => exact Script.FailsOnly.map (Ledger.blames_exchange wanted datum)
  | setCapacity capacity =>
    exact Script.FailsOnly.map (Ledger.blames_setCapacity regular supported capacity)
  | reserveData additional =>
    exact Script.FailsOnly.map (Ledger.blames_reserveData regular supported additional)
  | get wanted type => exact Script.FailsOnly.map (Ledger.blames_get? wanted type)
  | clear | getBytes | find | contains | keys | count => exact .ok _ _

namespace Request

/-- The number of slots that a map must have for a request. -/
def slotsFor (ledger : Ledger) : Request → Nat
  | perform operation => operation.slotsFor ledger.entries
  | _ => ledger.entries.length

/-- The number of words that an arena must have for a request. -/
def arenaFor (ledger : Ledger) : Request → Nat
  | perform operation => operation.arenaFor ledger.header
  | _ => ledger.header.dataAllocated

end Request

/-- A map names what overflowed, unless the overflow is one of its host. -/
theorem Records.blames {Buffer : Type} [Host Buffer] [LawfulHost Buffer] {site later : Site Buffer}
    (wellFormed : key.toElementType.WellFormed) (records : Records key site ledger)
    {request : Request} (brings : request.Brings key) {what : Quantity}
    (failed : request.ask key site = .error (.overflow what) later) :
    Host.Overflows Buffer what ∨
      (what = .slotCapacity ∧ maxCapacity < request.slotsFor ledger) ∨
      (what.IsArena ∧ maxCapacity < request.arenaFor ledger) := by
  obtain ⟨image, order, holds, -⟩ := id records
  have blames : ((request.plan key).run ledger).FailsOnly
      (Blames (request.slotsFor ledger) (request.arenaFor ledger)) := by
    cases request with
    | perform operation =>
      exact Script.FailsOnly.map (operation.blames brings records.regular
        (holds.supported wellFormed) records.count_eq)
    | header | listing => exact .ok _ _
  exact (records.enacts_request wellFormed brings).overflow blames failed

end PackedStore.UntypedMap
