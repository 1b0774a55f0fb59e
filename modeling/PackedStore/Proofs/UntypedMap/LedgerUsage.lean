/-
This file says how the operations on a map move its capacities. An operation that
succeeds raises the slots to the next power of two above the entries and the slots
it was asked for, and the arena to what the words in use and those reserved need.
-/

import PackedStore.Proofs.Layout.Peaks
import PackedStore.Proofs.UntypedMap.Ledgers

namespace PackedStore.UntypedMap

open Script (granted_bind_eq_ok)

/-- How much of a map with the header is in use. -/
def Header.usage (header : Header) : Usage :=
  ⟨header.count, header.capacity, header.dataCapacity, header.dataAllocated, header.log2MinGrowth⟩

theorem Header.Regular.usage {key : KeyType} {header : Header} (regular : header.Regular key) :
    header.usage.Regular :=
  ⟨regular.reached, regular.dataReached, regular.count_le, regular.allocated_le⟩

namespace Operation

/-- The slots that an operation requests. -/
def requested : Operation → Nat
  | setCapacity capacity => capacity
  | _ => 0

/-- The words up to which an operation reserves the arena. -/
def reserved (usage : Usage) : Operation → Nat
  | reserveData additional => usage.dataAllocated + additional
  | _ => 0

end Operation

namespace Ledger

variable {key : KeyType} {ledger later : Ledger}

section

variable (regular : ledger.header.Regular key) (count : ledger.header.count = ledger.entries.length)

include regular

theorem usage_setCapacity {capacity : Nat}
    (ends : ((setCapacity key capacity).run ledger).granted = (.ok (), later)) :
    ledger.header.usage.Moves capacity 0 later.header.usage := by
  have small := regular.usage.reached
  simp only [setCapacity, Plan.run_bind, Plan.run_get, Script.bind_ok] at ends
  by_cases more : ledger.header.capacity < capacity
  · rw [if_pos more] at ends
    obtain ⟨larger, isGrown, ends⟩ := Plan.granted_check ends
    obtain rfl := granted_grow ends
    exact .requested regular.usage capacity
      (grownCapacity_eq_max regular.reached regular.count_le more isGrown)
  · rw [if_neg more] at ends
    obtain rfl : ledger = later := congrArg Prod.snd ends
    refine .requested regular.usage capacity (Nat.max_eq_left ?_).symm
    exact small.nextPower_le.mpr (Nat.le_of_not_lt more)

theorem usage_reserveData {additional : Nat}
    (ends : ((reserveData key additional).run ledger).granted = (.ok (), later)) :
    ledger.header.usage.Moves 0 (ledger.header.dataAllocated + additional) later.header.usage := by
  rw [reserveData, Plan.run_bind, Plan.run_get, Script.bind_ok] at ends
  obtain ⟨required, isRequired, ends⟩ := Plan.granted_check ends
  obtain ⟨-, rfl⟩ := size?_eq_some_iff.mp (orFail_eq_ok.mp isRequired)
  obtain ⟨rfl, -⟩ := granted_ensureData regular ends
  exact .reserved regular.usage additional

theorem usage_replace {slot : Nat} {payload : Payload}
    (ends : ((replace key slot payload).run ledger).granted = (.ok (), later)) :
    ledger.header.usage.Moves 0 0 later.header.usage := by
  rw [replace, Plan.run_bind, Plan.run_get, Script.bind_ok] at ends
  obtain ⟨old, -, ends⟩ := Plan.granted_check ends
  obtain ⟨_, -, ends⟩ := Plan.granted_check ends
  split at ends
  · obtain rfl := congrArg Prod.snd ends
    exact .refl regular.usage
  · next unsuitable =>
    obtain ⟨place, _, allocated, ends⟩ := granted_bind_eq_ok.mp ends
    rw [not_or, Nat.not_le] at unsuitable
    obtain ⟨-, rfl⟩ := granted_allocate regular (decide_eq_true unsuitable.1) allocated
    obtain rfl := congrArg Prod.snd ends
    exact .taken regular.usage _

include count

theorem usage_insertNew {entryKey : Bytes} {payload : Payload} {slot : Nat}
    (ends : ((insertNew key entryKey payload).run ledger).granted = (.ok slot, later)) :
    ledger.header.usage.Moves 0 0 later.header.usage := by
  obtain ⟨-, place, -, rfl⟩ := granted_insertNew regular ends
  have moves := Usage.Moves.added regular.usage
    (stopBehind ledger.header.dataAllocated payload.bytes.size payload.align)
  simp only [Header.usage, count] at moves
  simp only [Header.usage, push, taking, widened, roomy, Header.withData, Header.resized, count]
  exact moves

theorem usage_insertUnique {entryKey : Bytes} {payload : Payload} {slot : Nat}
    (ends : ((insertUnique key entryKey payload).run ledger).granted = (.ok slot, later)) :
    ledger.header.usage.Moves 0 0 later.header.usage := by
  rw [insertUnique, Plan.run_bind, Plan.run_get, Script.bind_ok] at ends
  obtain ⟨_, -, ends⟩ := Plan.granted_check ends
  exact usage_insertNew regular count ends

theorem usage_store {entryKey : Bytes} {payload : Payload}
    (ends : ((store key entryKey payload).run ledger).granted = (.ok (), later)) :
    ledger.header.usage.Moves 0 0 later.header.usage := by
  simp only [store, Plan.run_bind, Plan.run_get, Script.bind_ok] at ends
  cases found : Entries.find ledger.entries entryKey with
  | some slot =>
    rw [found] at ends
    exact usage_replace regular ends
  | none =>
    rw [found] at ends
    obtain ⟨slot, _, inserted, ends⟩ := granted_bind_eq_ok.mp ends
    obtain rfl := congrArg Prod.snd ends
    exact usage_insertNew regular count inserted

theorem usage_getOrAdd {entryKey : Bytes} {default : Datum} {content : Bytes}
    (ends : ((getOrAdd key entryKey default).run ledger).granted = (.ok content, later)) :
    ledger.header.usage.Moves 0 0 later.header.usage := by
  simp only [getOrAdd, Plan.run_bind, Plan.run_get, Script.bind_ok] at ends
  cases found : Entries.find ledger.entries entryKey with
  | some slot =>
    rw [found] at ends
    obtain rfl := congrArg Prod.snd ends
    exact .refl regular.usage
  | none =>
    rw [found] at ends
    obtain ⟨slot, _, inserted, ends⟩ := granted_bind_eq_ok.mp ends
    obtain rfl := congrArg Prod.snd ends
    exact usage_insertNew regular count inserted

end

theorem header_exchange {wanted : Bytes} {datum : Datum} {old : Option Bytes}
    (ends : ((exchange wanted datum).run ledger).granted = (.ok old, later)) :
    later.header = ledger.header := by
  simp only [exchange, Plan.run_bind, Plan.run_get, Script.bind_ok] at ends
  cases found : Entries.find ledger.entries wanted with
  | none =>
    rw [found] at ends
    obtain rfl := congrArg Prod.snd ends
    rfl
  | some slot =>
    rw [found] at ends
    obtain ⟨content, -, ends⟩ := Plan.granted_check ends
    obtain rfl := congrArg Prod.snd ends
    rfl

theorem header_get? {wanted : Bytes} {type : ElementType} {content : Option Bytes}
    (ends : ((get? wanted type).run ledger).granted = (.ok content, later)) : later = ledger := by
  simp only [get?, Plan.run_bind, Plan.run_get, Script.bind_ok] at ends
  cases found : Entries.find ledger.entries wanted with
  | none =>
    rw [found] at ends
    exact (congrArg Prod.snd ends).symm
  | some slot =>
    rw [found] at ends
    obtain ⟨value, -, ends⟩ := Plan.granted_check ends
    exact (congrArg Prod.snd ends).symm

end Ledger

/-- An operation that succeeds moves the capacities as it asks. -/
theorem usage_of_granted {key : KeyType} {ledger later : Ledger}
    (regular : ledger.header.Regular key) (count : ledger.header.count = ledger.entries.length)
    {operation : Operation} {answer : Answer}
    (ends : ((operation.plan key).run ledger).granted = (.ok answer, later)) :
    ledger.header.usage.Moves operation.requested (operation.reserved ledger.header.usage)
      later.header.usage := by
  cases operation with
  | add | addBytes =>
    obtain ⟨_, ran, -⟩ := Plan.granted_map ends
    obtain ⟨_, -, ran⟩ := Plan.granted_check ran
    exact Ledger.usage_insertUnique regular count ran
  | addOrSet | addOrSetBytes =>
    obtain ⟨_, ran, -⟩ := Plan.granted_map ends
    obtain ⟨_, -, ran⟩ := Plan.granted_check ran
    exact Ledger.usage_store regular count ran
  | getOrAdd =>
    obtain ⟨_, ran, -⟩ := Plan.granted_map ends
    obtain ⟨_, -, ran⟩ := Plan.granted_check ran
    exact Ledger.usage_getOrAdd regular count ran
  | exchange =>
    obtain ⟨_, ran, -⟩ := Plan.granted_map ends
    rw [Ledger.header_exchange ran]
    exact .refl regular.usage
  | setCapacity capacity =>
    obtain ⟨_, ran, -⟩ := Plan.granted_map ends
    exact Ledger.usage_setCapacity regular ran
  | reserveData additional =>
    obtain ⟨_, ran, -⟩ := Plan.granted_map ends
    exact Ledger.usage_reserveData regular ran
  | clear =>
    obtain ⟨_, ran, -⟩ := Plan.granted_map ends
    obtain rfl := congrArg Prod.snd ran
    exact .of_kept regular.usage rfl rfl (Nat.zero_le _) (Nat.zero_le _) rfl
  | get =>
    obtain ⟨_, ran, -⟩ := Plan.granted_map ends
    rw [Ledger.header_get? ran]
    exact .refl regular.usage
  | getBytes | find | contains | keys | count =>
    obtain rfl := congrArg Prod.snd ends
    exact .refl regular.usage

end PackedStore.UntypedMap
