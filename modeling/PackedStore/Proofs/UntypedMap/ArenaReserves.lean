/-
This file says that words of the arena that have been reserved can be used up. Values
that need no alignment above four bytes stand in the arena without padding, so as many
of them as have words reserved are stored in the arena that is there, however often the
map gets more slots in between and whichever operations fail.
-/

import PackedStore.Proofs.UntypedMap.Reserves

namespace PackedStore

/-- The words of the arena that a value of a size takes, padding not included. -/
def arenaWords (size : Nat) : Nat :=
  if isLarge size then wordsFor size else 0

theorem stopBehind_of_narrow {allocated size align : Nat} (narrow : align ≤ 4) :
    stopBehind allocated size align = allocated + arenaWords size := by
  have units : max (align / wordSize) 1 = 1 := by
    unfold wordSize
    omega
  have same : Placement.raise allocated 1 = allocated :=
    Nat.le_antisymm Placement.raise_le (Placement.le_raise Nat.one_pos)
  rw [stopBehind, arenaWords, units, same]
  split <;> rfl

theorem IsAlign.dvd_wordSize {align : Nat} (supported : IsAlign align) (narrow : align ≤ 4) :
    align ∣ wordSize := by
  obtain ⟨exponent, -, rfl⟩ := supported
  have small : exponent ≤ 2 := (Nat.pow_le_pow_iff_right (by decide)).mp narrow
  exact Nat.pow_dvd_pow 2 small

namespace UntypedMap

variable {Buffer : Type} [Host Buffer] {key : KeyType}
  {site : Site Buffer} {operation : Operation} {entryKey : Bytes} {payload : Payload}

namespace Operation

/-- The value that an operation brings to be stored. -/
def brought? : Operation → Option Payload
  | add _ datum | addOrSet _ datum | getOrAdd _ datum => some datum.payload
  | addBytes _ tag content | addOrSetBytes _ tag content => some (.raw tag content)
  | _ => none

/-- The words of the arena for the value that an operation brings. -/
def words (operation : Operation) : Nat :=
  operation.brought?.elim 0 fun payload => arenaWords payload.bytes.size

/-- The operation reserves nothing, and a value that it brings needs no alignment above four. -/
structure Modest (key : KeyType) (operation : Operation) : Prop where
  fits : operation.Fits ElementType.WellFormed key
  unreserving : ∀ additional, operation ≠ .reserveData additional
  narrow : ∀ payload, operation.brought? = some payload → payload.align ≤ 4

end Operation

namespace Ledger

/-- The arena has the same capacity, and at most a number of words more are in use. -/
structure Spends (words : Nat) (base ledger : Ledger) : Prop where
  capacity : ledger.header.dataCapacity = base.header.dataCapacity
  used : ledger.header.dataAllocated ≤ base.header.dataAllocated + words

theorem Spends.none (ledger : Ledger) (words : Nat) : ledger.Spends words ledger :=
  ⟨rfl, Nat.le_add_right _ _⟩

theorem Spends.mono {base ledger : Ledger} {words more : Nat} (spends : base.Spends words ledger)
    (le : words ≤ more) : base.Spends more ledger :=
  ⟨spends.capacity, Nat.le_trans spends.used (Nat.add_le_add_left le _)⟩

/-- There are words left for a value, and the arena is not too large. -/
structure Affords (words : Nat) (ledger : Ledger) : Prop where
  words : ledger.header.dataAllocated + words ≤ ledger.header.dataCapacity
  bound : ledger.header.dataCapacity ≤ maxCapacity

variable {base ledger : Ledger} {words : Nat}

/-! ### More slots -/

theorem spends_grow (capacity : Nat) :
    ((grow key capacity).run ledger).Meets (Spends 0 ledger) fun _ => Spends 0 ledger := by
  simp only [grow, Plan.run_bind, Plan.run_get, Plan.run_lift, Script.bind_ok]
  exact .check (.none ledger 0) fun layout _ => ⟨.none ledger 0, rfl, Nat.le_refl _⟩

theorem spends_makeRoom :
    ((makeRoom key).run ledger).Meets (Spends 0 ledger) fun _ => Spends 0 ledger := by
  simp only [makeRoom, Plan.run_bind, Plan.run_get, Script.bind_ok]
  by_cases full : ledger.header.count = ledger.header.capacity
  · rw [if_pos full]
    exact .check (.none ledger 0) fun capacity _ => spends_grow capacity
  · rw [if_neg full]
    exact .none ledger 0

theorem spends_setCapacity (capacity : Nat) :
    ((setCapacity key capacity).run ledger).Meets (Spends 0 ledger) fun _ => Spends 0 ledger := by
  simp only [setCapacity, Plan.run_bind, Plan.run_get, Script.bind_ok]
  by_cases more : ledger.header.capacity < capacity
  · rw [if_pos more]
    exact .check (.none ledger 0) fun larger _ => spends_grow larger
  · rw [if_neg more]
    exact .none ledger 0

/-! ### Values -/

section

variable (supported : IsAlign payload.align) (narrow : payload.align ≤ 4)
  (affords : ledger.Affords (arenaWords payload.bytes.size))

include supported narrow affords

/-- A new value spends its words, after growth of the slots if need be. -/
theorem spends_insertNew :
    ((insertNew key entryKey payload).run ledger).Meets (Spends (arenaWords payload.bytes.size) ledger)
      fun _ => Spends (arenaWords payload.bytes.size) ledger := by
  simp only [insertNew, Plan.run_bind, Plan.run_lift]
  refine .check (.none ledger _) fun _ demanded => ?_
  have small := demand_eq_ok.mp demanded
  refine (spends_makeRoom.weaken (fun _ spends => spends.mono (Nat.zero_le _))
    fun _ _ spends => spends).bind fun _ spacious spends => ?_
  have enough := affords.words
  have bound := affords.bound
  -- growth of the slots has left the words alone, so there is still room for the value
  obtain ⟨capacity, used⟩ := spends
  have stop : spacious.header.stopFor payload =
      spacious.header.dataAllocated + arenaWords payload.bytes.size := stopBehind_of_narrow narrow
  obtain ⟨place, -, ran⟩ := @run_fillSlot_within key spacious entryKey payload small (by omega)
    supported fun _ => by omega
  show Script.Meets _ _ ((fillSlot key entryKey payload).run spacious)
  rw [ran]
  refine ⟨capacity, ?_⟩
  show spacious.header.stopFor payload ≤ _
  omega

omit affords in
/-- A value for a key that is there stays at its place. -/
theorem spends_replace (slot : Nat) :
    ((replace key slot payload).run ledger).Meets (Spends (arenaWords payload.bytes.size) ledger)
      fun _ => Spends (arenaWords payload.bytes.size) ledger := by
  simp only [replace, Plan.run_bind, Plan.run_get, Plan.run_lift, Script.bind_ok]
  refine .check (.none ledger _) fun old _ => .check (.none ledger _) fun _ _ => ?_
  -- places are counted in words, so every place suits
  rw [if_pos (Or.inr (Nat.dvd_trans (supported.dvd_wordSize narrow) (Nat.dvd_mul_left _ _)))]
  exact ⟨rfl, Nat.le_add_right _ _⟩

theorem spends_store :
    ((store key entryKey payload).run ledger).Meets (Spends (arenaWords payload.bytes.size) ledger)
      fun _ => Spends (arenaWords payload.bytes.size) ledger := by
  simp only [store, Plan.run_bind, Plan.run_get, Script.bind_ok]
  cases found : Entries.find ledger.entries entryKey with
  | some slot => exact spends_replace supported narrow slot
  | none => exact (spends_insertNew supported narrow affords).bind fun _ _ spends => spends

theorem spends_insertUnique :
    ((insertUnique key entryKey payload).run ledger).Meets
      (Spends (arenaWords payload.bytes.size) ledger)
      fun _ => Spends (arenaWords payload.bytes.size) ledger := by
  simp only [insertUnique, Plan.run_bind, Plan.run_get, Plan.run_lift, Script.bind_ok]
  exact .check (.none ledger _) fun _ _ => spends_insertNew supported narrow affords

end

/-- What is read spends nothing. -/
theorem spends_read {α : Type} (checked : Checked α) (spends : base.Spends words ledger) :
    (Script.ends checked ledger).Meets (Spends words base) fun _ => Spends words base := by
  cases checked with
  | ok answer => exact spends
  | error failure => exact spends

theorem spends_getOrAdd {default : Datum} (supported : IsAlign default.type.align)
    (narrow : default.type.align ≤ 4) (affords : ledger.Affords (arenaWords default.bytes.size)) :
    ((getOrAdd key entryKey default).run ledger).Meets (Spends (arenaWords default.bytes.size) ledger)
      fun _ => Spends (arenaWords default.bytes.size) ledger := by
  simp only [getOrAdd, Plan.run_bind, Plan.run_get, Script.bind_ok]
  cases found : Entries.find ledger.entries entryKey with
  | some slot => exact spends_read _ (.none ledger _)
  | none =>
    refine (@spends_insertNew key entryKey default.payload ledger supported narrow affords).bind
      fun slot later spends => ?_
    simp only [Plan.run_bind, Plan.run_get, Script.bind_ok]
    exact spends_read _ spends

theorem spends_exchange (wanted : Bytes) (datum : Datum) :
    ((exchange wanted datum).run ledger).Meets (Spends 0 ledger) fun _ => Spends 0 ledger := by
  simp only [exchange, Plan.run_bind, Plan.run_get, Script.bind_ok]
  cases found : Entries.find ledger.entries wanted with
  | none => exact .none ledger 0
  | some slot => exact .check (.none ledger 0) fun old _ => ⟨rfl, Nat.le_refl _⟩

theorem spends_get? (wanted : Bytes) (type : ElementType) :
    ((get? wanted type).run ledger).Meets (Spends 0 ledger) fun _ => Spends 0 ledger := by
  simp only [get?, Plan.run_bind, Plan.run_get, Script.bind_ok]
  cases found : Entries.find ledger.entries wanted with
  | none => exact .none ledger 0
  | some slot => exact (spends_read _ (.none ledger 0)).bind fun _ _ spends => spends

end Ledger

/-- A modest operation spends no more than the words of its value. -/
theorem Operation.Modest.spends {ledger : Ledger} (modest : operation.Modest key)
    (affords : ledger.Affords operation.words) :
    ((operation.plan key).run ledger).Meets (ledger.Spends operation.words)
      fun _ => ledger.Spends operation.words := by
  have nothing := Ledger.Spends.none ledger operation.words
  obtain ⟨fits, unreserving, narrow⟩ := modest
  cases operation with
  | add entryKey datum =>
    refine Script.Meets.map (.check nothing fun _ storable => ?_)
    exact Ledger.spends_insertUnique (fits_of_storable fits.2 storable).supported
      (narrow _ rfl) affords
  | addBytes entryKey tag content =>
    refine Script.Meets.map (.check nothing fun _ _ => ?_)
    exact Ledger.spends_insertUnique (fits_raw tag content).supported (narrow _ rfl) affords
  | addOrSet entryKey datum =>
    refine Script.Meets.map (.check nothing fun _ storable => ?_)
    exact Ledger.spends_store (fits_of_storable fits.2 storable).supported (narrow _ rfl) affords
  | addOrSetBytes entryKey tag content =>
    refine Script.Meets.map (.check nothing fun _ _ => ?_)
    exact Ledger.spends_store (fits_raw tag content).supported (narrow _ rfl) affords
  | getOrAdd entryKey default =>
    refine Script.Meets.map (.check nothing fun _ storable => ?_)
    exact Ledger.spends_getOrAdd (fits_of_storable fits.2 storable).supported (narrow _ rfl) affords
  | exchange wanted datum => exact Script.Meets.map (Ledger.spends_exchange wanted datum)
  | setCapacity capacity => exact Script.Meets.map (Ledger.spends_setCapacity capacity)
  | reserveData additional => exact absurd rfl (unreserving additional)
  | clear => exact ⟨rfl, Nat.zero_le _⟩
  | get wanted type => exact Script.Meets.map (Ledger.spends_get? wanted type)
  | getBytes | find | contains | keys | count => exact nothing

/-! ### Reserved words -/

/-- The arena of the map has a capacity, and that many words of it are still to be used. -/
def Reserved (key : KeyType) (dataCapacity words : Nat) (site : Site Buffer) : Prop :=
  ∃ ledger, Records key site ledger ∧ ledger.header.dataCapacity = dataCapacity ∧
    ledger.header.dataAllocated + words ≤ dataCapacity

section

variable [LawfulHost Buffer] (wellFormed : key.toElementType.WellFormed) {dataCapacity words : Nat}

include wellFormed

/-- Words that have been reserved are there. -/
theorem Records.reserved {ledger : Ledger} (records : Records key site ledger) {roomy : Site Buffer}
    (run : reserveData key words site = .ok () roomy) :
    ∃ dataCapacity, Reserved key dataCapacity words roomy := by
  have regular := records.regular
  obtain ⟨later, ends, recordsRoomy⟩ := (records.enacts_reserveData wellFormed words).answered run
  simp only [Ledger.reserveData, Plan.run_bind, Plan.run_get, Script.bind_ok] at ends
  obtain ⟨required, sized, ends⟩ := Plan.granted_check ends
  obtain ⟨-, rfl⟩ := size?_eq_some_iff.mp (orFail_eq_ok.mp sized)
  obtain ⟨rfl, room⟩ := Ledger.granted_ensureData regular ends
  exact ⟨_, _, recordsRoomy, rfl, room⟩

/-- An operation uses no more of the reserved words than its value needs. -/
theorem Reserved.step (reserved : Reserved key dataCapacity words site)
    (modest : operation.Modest key) (within : operation.words ≤ words) :
    Reserved key dataCapacity (words - operation.words)
      (Store.outcome (operation.run key) site).2 := by
  obtain ⟨ledger, records, isCapacity, enough⟩ := reserved
  have affords : ledger.Affords operation.words :=
    ⟨by omega, records.regular.dataReached.le_max⟩
  obtain ⟨later, stands, capacity, used⟩ :=
    (records.enacts wellFormed modest.fits).keeps (modest.spends affords)
  exact ⟨later, stands, capacity.trans isCapacity, by omega⟩

theorem Reserved.run (reserved : Reserved key dataCapacity words site)
    {operations : List Operation} (modest : ∀ operation ∈ operations, operation.Modest key)
    (within : (operations.map Operation.words).sum ≤ words) :
    Reserved key dataCapacity (words - (operations.map Operation.words).sum)
      ((Store.machine (Operation.run key)).reached operations site) := by
  induction operations generalizing site words with
  | nil => exact reserved
  | cons operation rest inductionHypothesis =>
    -- the rest of the operations have the words that the first one leaves
    rw [List.map_cons, List.sum_cons] at within ⊢
    rw [← Nat.sub_sub]
    exact inductionHypothesis
      (reserved.step wellFormed (modest operation List.mem_cons_self) (by omega))
      (fun other member => modest other (List.mem_cons_of_mem _ member)) (by omega)

end

/-- Once words have been reserved, the arena keeps its capacity while values that bring no padding
with them use up these words, and the rest of the words stay reserved. -/
theorem Reachable.reserved_lasts [LawfulHost Buffer] (wellFormed : key.toElementType.WellFormed)
    (reachable : Reachable ElementType.WellFormed key site) {words : Nat}
    {roomy : Site Buffer} (reserved : reserveData key words site = .ok () roomy)
    {operations : List Operation} (modest : ∀ operation ∈ operations, operation.Modest key)
    (within : (operations.map Operation.words).sum ≤ words) :
    ∃ before after last, (Store.machine (Operation.run key)).reached operations roomy = last ∧
      header roomy = .ok before roomy ∧ header last = .ok after last ∧
      after.dataCapacity = before.dataCapacity ∧
      after.dataAllocated + (words - (operations.map Operation.words).sum) ≤
        after.dataCapacity := by
  obtain ⟨ledger, records⟩ := reachable.records wellFormed fun _ => id
  obtain ⟨dataCapacity, kept⟩ := records.reserved wellFormed reserved
  obtain ⟨first, recordsFirst, isCapacity, -⟩ := id kept
  obtain ⟨last, recordsLast, isCapacityLast, room⟩ := kept.run wellFormed modest within
  refine ⟨_, _, _, rfl, recordsFirst.run_header, recordsLast.run_header,
    isCapacityLast.trans isCapacity.symm, ?_⟩
  rw [isCapacityLast]
  exact room

end UntypedMap

end PackedStore
