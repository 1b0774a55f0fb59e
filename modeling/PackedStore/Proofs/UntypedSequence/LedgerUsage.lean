/-
This file says how the operations on a sequence move its capacities. Adding a value
asks for one slot more and for the arena up to its end, a request asks for slots, and
nothing else asks for anything.
-/

import PackedStore.Proofs.Layout.Peaks
import PackedStore.Proofs.UntypedSequence.Ledgers
import PackedStore.Proofs.UntypedSequence.Simulation

namespace PackedStore.UntypedSequence

/-- How much of a sequence with the header is in use. -/
def Header.usage (header : Header) : Usage :=
  ⟨header.count, header.capacity, header.dataCapacity, header.dataAllocated, header.log2MinGrowth⟩

theorem Header.Regular.usage {header : Header} (regular : header.Regular) : header.usage.Regular :=
  ⟨regular.reached, regular.dataReached, regular.count_le, regular.allocated_le⟩

/-- The slots that an operation requests. -/
def Operation.requested : Operation → Nat
  | setCapacity capacity => capacity
  | _ => 0

namespace Ledger

variable {ledger later : Ledger} (regular : ledger.header.Regular)

include regular

theorem usage_setCapacity {capacity : Nat}
    (ends : ((setCapacity capacity).run ledger).granted = (.ok (), later)) :
    ledger.header.usage.Moves capacity 0 later.header.usage := by
  have reached : IsCapacity ledger.log2MinGrowth ledger.capacity := regular.reached
  simp only [setCapacity, Plan.run_bind, Plan.run_get, Script.bind_ok] at ends
  by_cases more : ledger.capacity < capacity
  · rw [if_pos more] at ends
    obtain ⟨larger, isGrown, ends⟩ := Plan.granted_check ends
    obtain rfl := granted_grow ends
    exact .requested regular.usage capacity
      (grownCapacity_eq_max reached regular.count_le more isGrown)
  · rw [if_neg more] at ends
    obtain rfl : ledger = later := congrArg Prod.snd ends
    refine .requested regular.usage capacity (Nat.max_eq_left ?_).symm
    exact reached.nextPower_le.mpr (Nat.le_of_not_lt more)

theorem usage_add {datum : Datum} {index : Nat}
    (power : ∃ exponent, datum.type.align = 2 ^ exponent)
    (ends : ((add datum).run ledger).granted = (.ok index, later)) :
    ledger.header.usage.Moves 0 0 later.header.usage := by
  obtain ⟨-, rfl⟩ := granted_add regular power ends
  have moves := Usage.Moves.added regular.usage (packedFrom 0 (ledger.elements ++ [datum]))
  simp only [Header.usage, header, roomy, widened, List.length_append, List.length_singleton]
  exact moves

/-- Other elements within the same capacities ask for nothing. -/
theorem usage_of_elements {elements : List Datum} (isLater : later = { ledger with elements })
    (regularLater : later.header.Regular) :
    ledger.header.usage.Moves 0 0 later.header.usage := by
  subst isLater
  exact .of_kept regular.usage rfl rfl regularLater.count_le regularLater.allocated_le rfl

omit regular in
theorem elements_of_exchange {index : Nat} {datum : Datum} {old : Bytes}
    (ends : ((exchange index datum).run ledger).granted = (.ok old, later)) :
    later = { ledger with elements := Elements.write ledger.elements index datum.bytes } := by
  rw [exchange, Plan.run_bind, Plan.run_get, Script.bind_ok] at ends
  obtain ⟨content, -, ends⟩ := Plan.granted_check ends
  exact (congrArg Prod.snd ends).symm

omit regular in
theorem elements_of_removeAt {index : Nat}
    (ends : ((removeAt index).run ledger).granted = (.ok (), later)) :
    later = { ledger with elements := ledger.elements.eraseIdx index } := by
  rw [removeAt, Plan.run_bind, Plan.run_get, Script.bind_ok] at ends
  obtain ⟨datum, -, ends⟩ := Plan.granted_check ends
  exact (congrArg Prod.snd ends).symm

end Ledger

/-- An operation that succeeds moves the capacities as it asks. -/
theorem usage_of_granted {ledger later : Ledger} (regular : ledger.header.Regular)
    (regularLater : later.header.Regular) {operation : Operation}
    (fits : operation.Fits ElementType.WellFormed) {answer : Answer}
    (ends : (operation.plan.run ledger).granted = (.ok answer, later)) :
    ledger.header.usage.Moves operation.requested 0 later.header.usage := by
  cases operation with
  | add datum =>
    obtain ⟨_, ran, -⟩ := Plan.granted_map ends
    exact Ledger.usage_add regular fits.align_eq ran
  | exchange =>
    obtain ⟨_, ran, -⟩ := Plan.granted_map ends
    exact Ledger.usage_of_elements regular (Ledger.elements_of_exchange ran) regularLater
  | removeAt =>
    obtain ⟨_, ran, -⟩ := Plan.granted_map ends
    exact Ledger.usage_of_elements regular (Ledger.elements_of_removeAt ran) regularLater
  | setCapacity capacity =>
    obtain ⟨_, ran, -⟩ := Plan.granted_map ends
    exact Ledger.usage_setCapacity regular ran
  | clear =>
    obtain ⟨_, ran, -⟩ := Plan.granted_map ends
    exact Ledger.usage_of_elements regular (congrArg Prod.snd ran).symm regularLater
  | elementAt | bytesAt | tagAt | sizeAt =>
    obtain ⟨_, ran, -⟩ := Plan.granted_map ends
    obtain rfl := congrArg Prod.snd ran
    exact .refl regular.usage
  | count =>
    obtain rfl := congrArg Prod.snd ends
    exact .refl regular.usage

end PackedStore.UntypedSequence
