/-
This file says which quantity a sequence names when one overflows. A value that would
end behind the largest arena overflows the arena, whether no header can say where it
ends or no growth reaches that far, and the slots overflow only where more of them are
asked for than there can be. A layout for capacities that growth can reach never does.
-/

import PackedStore.Proofs.Host.Blames
import PackedStore.Proofs.UntypedSequence.Reserves

namespace PackedStore.UntypedSequence

open Failure (Blames)

/-! ### What is asked for -/

namespace Operation

/-- The number of slots that a sequence must have for an operation. -/
def slotsFor (elements : List Datum) : Operation → Nat
  | setCapacity capacity => capacity
  | add _ => elements.length + 1
  | _ => elements.length

/-- The number of bytes that an arena must have for an operation. -/
def arenaFor (header : Header) : Operation → Nat
  | add datum => header.stopFor datum
  | _ => header.dataAllocated

end Operation

variable {ledger : Ledger} {slots arena : Nat} {datum : Datum}

namespace Ledger

section

variable (regular : ledger.header.Regular)

include regular

/-! ### Slots -/

/-- There is a layout for every capacity that growth can reach. -/
theorem failsOnly_grow {allowed : Failure → Prop} {capacity : Nat}
    (small : capacity ≤ maxCapacity) :
    ((grow capacity).run ledger).FailsOnly allowed := by
  obtain ⟨layout, computed, -⟩ := Layout.compute_of small regular.dataReached.le_max
  have computed : Layout.compute capacity ledger.dataCapacity = .ok layout := computed
  simp only [grow, computed, Plan.run_bind, Plan.run_get, Plan.run_lift, Plan.run_ask, Plan.run_set,
    Script.bind_ok, Script.bind_asks]
  exact .asks (.ok _ _)

theorem blames_setCapacity (capacity : Nat) :
    ((setCapacity capacity).run ledger).FailsOnly (Blames capacity arena) := by
  simp only [setCapacity, Plan.run_bind, Plan.run_get, Script.bind_ok]
  by_cases more : ledger.capacity < capacity
  · have rows := Nat.le_trans regular.count_le regular.reached.le_max
    rw [if_pos more]
    exact .check (blames_grownCapacity regular.reached.le_log2 rows) fun larger grown =>
      failsOnly_grow regular (IsCapacity.of_grown grown).1.le_max
  · rw [if_neg more]
    exact .ok _ _

theorem blames_makeRoom :
    (makeRoom.run ledger).FailsOnly (Blames (ledger.elements.length + 1) arena) := by
  have reached : IsCapacity ledger.log2MinGrowth ledger.capacity := regular.reached
  simp only [makeRoom, Plan.run_bind, Plan.run_get, Script.bind_ok]
  by_cases full : ledger.elements.length = ledger.capacity
  · rw [if_pos full]
    exact .check (blames_nextCapacity reached full) fun larger next =>
      failsOnly_grow regular (reached.of_next (Nat.le_of_eq full) next).le_max
  · rw [if_neg full]
    exact .ok _ _

/-! ### The arena -/

theorem blames_ensureData (required : Nat) :
    ((ensureData required).run ledger).FailsOnly (Blames slots required) := by
  have step : ledger.log2MinGrowth ≤ 29 := regular.reached.le_log2
  have dataReached : IsArenaCapacity ledger.log2MinGrowth ledger.dataCapacity := regular.dataReached
  simp only [ensureData, Plan.run_bind, Plan.run_get, Script.bind_ok]
  by_cases more : ledger.dataCapacity < required
  · rw [if_pos more]
    refine .check (blames_grownDataCapacity step dataReached more) fun larger grown => ?_
    obtain ⟨layout, computed, -⟩ := Layout.compute_of regular.reached.le_max
      (IsCapacity.of_grownData step dataReached more grown).le_max
    have computed : Layout.compute ledger.capacity larger = .ok layout := computed
    simp only [computed, Plan.run_bind, Plan.run_lift, Plan.run_ask, Plan.run_set, Script.bind_ok,
      Script.bind_asks]
    exact .asks (.ok _ _)
  · rw [if_neg more]
    exact .ok _ _

theorem blames_fillSlot (stop : Nat) :
    ((fillSlot datum stop).run ledger).FailsOnly (Blames slots stop) := by
  simp only [fillSlot, Plan.run_bind]
  exact (blames_ensureData regular stop).bind fun _ _ _ => .ok _ _

omit regular in
/-- No arena is large enough for a value that no header can say the end of. -/
theorem blames_placeBehind {cursor : Nat} (storable : Storable datum.type)
    (near : cursor < 2 ^ 32) :
    (placeBehind cursor datum).FailsOnly (Blames slots (stopFrom cursor datum)) := by
  by_cases beyond : 2 ^ 32 ≤ stopFrom cursor datum
  · rw [placeBehind_eq_error storable near beyond]
    exact .error (Failure.blames_arena trivial (Nat.lt_of_lt_of_le (by decide) beyond))
  · rw [(placeBehind_eq_ok storable near).mpr ⟨Nat.lt_of_not_le beyond, rfl⟩]
    exact .ok _

/-- A value asks for one more slot, and then for its bytes. -/
theorem blames_add (power : ∃ exponent, datum.type.align = 2 ^ exponent) :
    ((add datum).run ledger).FailsOnly
      (Blames (ledger.elements.length + 1) (ledger.header.stopFor datum)) := by
  have near : packedFrom 0 ledger.elements < 2 ^ 32 :=
    Nat.lt_of_le_of_lt (Nat.le_trans regular.allocated_le regular.dataReached.le_max) (by decide)
  simp only [add, Plan.run_bind, Plan.run_lift]
  refine .check (Checked.names_demandStorable _) fun _ checked => ?_
  have storable := storable_of power checked
  simp only [Plan.run_bind, Plan.run_get, Plan.run_lift, Script.bind_ok]
  refine .check (blames_placeBehind storable near) fun place placed => ?_
  obtain ⟨-, rfl⟩ := (placeBehind_eq_ok storable near).mp placed
  refine (blames_makeRoom regular).bind fun _ later made => ?_
  exact blames_fillSlot (granted_makeRoom regular made).2.1 _

end

/-! ### Reads -/

theorem blames_element (elements : List Datum) (index : Nat) :
    (Elements.element elements index).FailsOnly (Blames slots arena) :=
  .orFail _ (Failure.names_misuse _)

theorem blames_access (elements : List Datum) (index : Nat) (type : ElementType) :
    (Elements.access elements index type).FailsOnly (Blames slots arena) :=
  (blames_element elements index).bind fun _ => .bind (Checked.names_demand _ _) fun _ =>
    .bind (Checked.names_require _ _) fun _ => .ok _

end Ledger

/-! ### Operations -/

/-- An operation on a sequence overflows if it asks for more slots or more arena than there can be,
and blames what it asked too much of. -/
theorem Operation.blames {operation : Operation} (fits : operation.Fits ElementType.WellFormed)
    (regular : ledger.header.Regular) :
    (operation.plan.run ledger).FailsOnly
      (Blames (operation.slotsFor ledger.elements) (operation.arenaFor ledger.header)) := by
  have element (index : Nat) := @Ledger.blames_element (operation.slotsFor ledger.elements)
    (operation.arenaFor ledger.header) ledger.elements index
  cases operation with
  | add datum => exact Script.FailsOnly.map (Ledger.blames_add regular fits.align_eq)
  | exchange index datum =>
    refine Script.FailsOnly.map ?_
    simp only [Ledger.exchange, Plan.run_bind, Plan.run_get, Script.bind_ok]
    exact .check (Ledger.blames_access _ index datum.type) fun _ _ => .ok _ _
  | removeAt index =>
    refine Script.FailsOnly.map ?_
    simp only [Ledger.removeAt, Plan.run_bind, Plan.run_get, Script.bind_ok]
    exact .check (element index) fun _ _ => .ok _ _
  | setCapacity capacity => exact Script.FailsOnly.map (Ledger.blames_setCapacity regular capacity)
  | elementAt index type =>
    exact Script.FailsOnly.map (Ledger.blames_access ledger.elements index type)
  | bytesAt index | tagAt index | sizeAt index =>
    exact Script.FailsOnly.map ((element index).bind fun _ => .ok _)
  | clear | count => exact .ok _ _

namespace Request

/-- The number of slots that a sequence must have for a request. -/
def slotsFor (ledger : Ledger) : Request → Nat
  | perform operation => operation.slotsFor ledger.elements
  | _ => ledger.elements.length

/-- The number of bytes that an arena must have for a request. -/
def arenaFor (ledger : Ledger) : Request → Nat
  | perform operation => operation.arenaFor ledger.header
  | _ => ledger.header.dataAllocated

end Request

/-- A sequence names what overflowed, unless the overflow is one of its host. -/
theorem Records.blames {Buffer : Type} [Host Buffer] [LawfulHost Buffer] {site later : Site Buffer}
    (records : Records site ledger) {request : Request} (brings : request.Brings) {what : Quantity}
    (failed : request.ask site = .error (.overflow what) later) :
    Host.Overflows Buffer what ∨
      (what = .slotCapacity ∧ maxCapacity < request.slotsFor ledger) ∨
      (what.IsArena ∧ maxCapacity < request.arenaFor ledger) := by
  have blames : (request.plan.run ledger).FailsOnly
      (Blames (request.slotsFor ledger) (request.arenaFor ledger)) := by
    cases request with
    | perform operation => exact Script.FailsOnly.map (operation.blames brings records.regular)
    | header | listing => exact .ok _ _
  exact (records.enacts_request brings).overflow blames failed

end PackedStore.UntypedSequence
