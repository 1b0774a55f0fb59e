/-
This file puts together what can be relied on once room has been reserved. Slots that a
container has are filled without a request to its host, whatever was removed in between,
and so are words of an arena, unless a value needs padding. Only when the slots or the
words run out does an insertion ask for a longer block.
-/

import PackedStore.Proofs.IndexedMap.Reserves
import PackedStore.Proofs.Sparing
import PackedStore.Proofs.UntypedMap.ArenaReserves
import PackedStore.Proofs.UntypedSequence.Reserves

namespace PackedStore

open UntypedMap (datumOf keyOf)
open UntypedSequence (wordDatum)

/-- Reserved room can be used in every reachable container. Insertions ask for more slots exactly if
there are as many values as slots, and otherwise for more arena exactly if a value goes there and ends
behind its capacity; all others succeed in any host and keep the capacities and the length. Only a
value for a sequence that would end behind `2 ^ 32` bytes asks for nothing, whether there is a slot or
not, since no arena holds it. After words of the arena of a map have been reserved, its capacity stays
the same while operations that bring values without padding use up these words. -/
theorem reserved_room_usable {Buffer : Type} [Host Buffer] [LawfulHost Buffer] :
    (∀ (shape : IndexedMap.Shape) (site : Site Buffer) (row : IndexedMap.Row), shape.WellFormed →
      IndexedMap.Reachable shape site → row.Fits shape →
      IndexedMap.contains shape row.key site = .ok false site →
      ∃ before, IndexedMap.InsertsWithinCapacity shape row site before) ∧
    (∀ (key : KeyType) (site : Site Buffer), key.toElementType.WellFormed →
      UntypedMap.Reachable ElementType.WellFormed key site →
      (∀ (operation : UntypedMap.Operation) entryKey payload,
        operation.Introduces entryKey payload → operation.Fits ElementType.WellFormed key →
        payload.bytes.size < 2 ^ 16 → UntypedMap.contains key entryKey site = .ok false site →
        ∃ before, UntypedMap.InsertsWithinCapacity key operation payload site before) ∧
      ∀ words roomy (operations : List UntypedMap.Operation),
        UntypedMap.reserveData key words site = .ok () roomy →
        (∀ operation ∈ operations, operation.Modest key) →
        (operations.map UntypedMap.Operation.words).sum ≤ words →
        ∃ before after last,
          (Store.machine (UntypedMap.Operation.run key)).reached operations roomy = last ∧
          UntypedMap.header roomy = .ok before roomy ∧ UntypedMap.header last = .ok after last ∧
          after.dataCapacity = before.dataCapacity ∧
          after.dataAllocated + (words - (operations.map UntypedMap.Operation.words).sum) ≤
            after.dataCapacity) ∧
    ∀ (site : Site Buffer) (elements : List Datum) (datum : Datum),
      UntypedSequence.Reachable site elements → datum.type.WellFormed →
      demandStorable datum.type = .ok () →
      ∃ before, UntypedSequence.AddsWithinCapacity datum site before := by
  refine ⟨?_, ?_, ?_⟩
  · intro shape site row wellFormed reachable fits isNew
    exact reachable.insertsWithinCapacity wellFormed fits isNew
  · intro key site wellFormed reachable
    refine ⟨?_, ?_⟩
    · intro operation entryKey payload introduces fits small isNew
      exact reachable.insertsWithinCapacity wellFormed introduces fits small isNew
    · intro words roomy operations reserved modest within
      exact reachable.reserved_lasts wellFormed reserved modest within
  · intro site elements datum reachable wellFormed storable
    exact reachable.addsWithinCapacity wellFormed storable

/-- An indexed map with one slot in a buffer that has no room for a second one. -/
def crowdedTable : Site BlockBuffer :=
  (Store.outcome (IndexedMap.init (.words 2) { capacity := 1, minGrowth := 1 })
    ⟨.empty (some 84), []⟩).2

/-- A map with one slot and no arena in a buffer that grants all that is asked for. -/
def narrowMap : Site BlockBuffer :=
  (Store.outcome (UntypedMap.init wordKey { capacity := 1, minGrowth := 1 })
    ⟨.empty none, []⟩).2

/-- Two values of five words each, for the second of which the map needs another slot. -/
def addArrays : List UntypedMap.Operation :=
  [.add (keyOf 7) (datumOf (.array ⟨.unsigned, 4⟩ 5) 1),
    .add (keyOf 8) (datumOf (.array ⟨.unsigned, 4⟩ 5) 2)]

theorem modest_addArrays : ∀ operation ∈ addArrays, operation.Modest wordKey := by
  have each (number value : Nat) : (UntypedMap.Operation.add (keyOf number)
      (datumOf (.array ⟨.unsigned, 4⟩ 5) value)).Modest wordKey :=
    ⟨⟨UntypedMap.fits_keyOf rfl number, UntypedMap.wellFormed_words 5⟩, by simp,
      by rintro payload ⟨⟩; exact Nat.le_refl 4⟩
  simp only [addArrays, List.mem_cons, List.not_mem_nil, or_false, forall_eq_or_imp, forall_eq]
  exact ⟨each 7 1, each 8 2⟩

/-- Small values come into crowded buffers, and ten reserved words are used up. -/
theorem crowded_room_usable :
    (∃ before, IndexedMap.InsertsWithinCapacity (.words 2) (.ofWords 1 [7, 8] 10) crowdedTable
      before) ∧
    (∃ before, UntypedMap.InsertsWithinCapacity wordKey (.add (keyOf 7) (wordDatum 1))
      (wordDatum 1).payload crowdedMap before) ∧
    (∃ roomy before after last, UntypedMap.reserveData wordKey 10 narrowMap = .ok () roomy ∧
      (Store.machine (UntypedMap.Operation.run wordKey)).reached addArrays roomy = last ∧
      UntypedMap.header roomy = .ok before roomy ∧ UntypedMap.header last = .ok after last ∧
      after.dataCapacity = before.dataCapacity) ∧
    ∃ before, UntypedSequence.AddsWithinCapacity (wordDatum 1) crowdedSequence before := by
  obtain ⟨rows, maps, sequences⟩ := @reserved_room_usable BlockBuffer _ _
  have word := ElementType.wellFormed_word32
  refine ⟨?_, ?_, ?_, ?_⟩
  · have created : IndexedMap.init (.words 2) { capacity := 1, minGrowth := 1 }
        (⟨.empty (some 84), []⟩ : Site BlockBuffer) = .ok () crowdedTable :=
      Store.run_of_outcome_ok (by decide +kernel)
    have reads : Store.Reads (@IndexedMap.contains BlockBuffer _ (.words 2)
        (IndexedMap.Row.ofWords 1 [7, 8] 10).key) :=
      (Store.Reads.view _ _).bind fun _ => .pure _
    exact rows _ _ _ (IndexedMap.Shape.wellFormed_words 2) (.init _ created)
      (IndexedMap.Row.fits_ofWords 1 [7, 8] 10) (reads.run_eq (by decide +kernel))
  · have reads : Store.Reads (@UntypedMap.contains BlockBuffer _ wordKey (keyOf 7)) :=
      (Store.Reads.view _ _).bind fun _ => .pure _
    exact (maps wordKey _ word (.init _ init_crowdedMap)).1 _ _ _ (.add _ (by decide))
      ⟨UntypedMap.fits_keyOf rfl 7, word⟩ (by decide)
      (reads.run_eq (by decide +kernel))
  · have created : UntypedMap.init wordKey { capacity := 1, minGrowth := 1 }
        (⟨.empty none, []⟩ : Site BlockBuffer) = .ok () narrowMap :=
      Store.run_of_outcome_ok (by decide +kernel)
    have reserved : UntypedMap.reserveData wordKey 10 narrowMap = .ok () _ :=
      Store.run_of_outcome_ok (by decide +kernel)
    obtain ⟨before, after, last, isLast, isBefore, isAfter, same, -⟩ :=
      (maps wordKey _ word (.init _ created)).2 10 _ addArrays reserved modest_addArrays (by decide)
    exact ⟨_, before, after, last, reserved, isLast, isBefore, isAfter, same⟩
  · exact sequences _ _ _ (.created _ init_crowdedSequence) word (by decide)

open IndexedMap (Row Shape) in
/-- A sequence whose slots are all in use asks for none when it is to take a value of `2 ^ 32` bytes,
and a map with a slot left has no place for a row without a value. -/
theorem full_slots_not_grown :
    (∃ (site : Site BlockBuffer) (before : UntypedSequence.Header) (datum : Datum),
      UntypedSequence.Reachable site [wordDatum 1] ∧
      UntypedSequence.header site = .ok before site ∧ before.count = before.capacity ∧
      datum.type = .named "[u8; 4294967296]" (2 ^ 32) 1 ∧ demandStorable datum.type = .ok () ∧
      Store.Needs (UntypedSequence.add datum) site (some (.error (.overflow .arenaSize)))) ∧
    ∃ (site later : Site BlockBuffer) (before : IndexedMap.Header),
      IndexedMap.Reachable Shape.valueless site ∧ Row.valueless.Typed Shape.valueless ∧
      IndexedMap.header site = .ok before site ∧ before.count < before.capacity ∧
      IndexedMap.add Shape.valueless Row.valueless site = .error (.fault .outOfRange) later := by
  constructor
  · have added : (Store.machine UntypedSequence.Operation.run (.add (wordDatum 1))
        crowdedSequence).1 = .ok (.number 0) := by decide +kernel
    have reachable := UntypedSequence.Reachable.step (.add (wordDatum 1)) ⟨2, rfl⟩
      (.created _ init_crowdedSequence)
    rw [added] at reachable
    obtain ⟨datum, isType⟩ : ∃ datum : Datum,
        datum.type = .named "[u8; 4294967296]" (2 ^ 32) 1 :=
      ⟨⟨_, Array.replicate (2 ^ 32) 0, Array.size_replicate⟩, rfl⟩
    have storable : demandStorable datum.type = .ok () := by
      rw [isType]
      rfl
    obtain ⟨before, adds⟩ := reachable.addsWithinCapacity
      (isType ▸ ⟨⟨0, rfl⟩, Nat.one_dvd _⟩ : datum.type.WellFormed) storable
    have beyond : 2 ^ 32 ≤ before.stopFor datum := by
      rw [UntypedSequence.Header.stopFor, UntypedSequence.stopFrom, datum.size_bytes, isType]
      exact Nat.le_add_left _ _
    have full : (Store.outcome UntypedSequence.header (Store.machine UntypedSequence.Operation.run
        (.add (wordDatum 1)) crowdedSequence).2).1.toOption.map (fun header =>
          (header.count, header.capacity)) = some (1, 1) := by decide +kernel
    rw [Store.outcome_ok adds.read] at full
    have counts : (before.count, before.capacity) = (1, 1) := Option.some.inj full
    refine ⟨_, before, datum, reachable, adds.read, ?_, isType, storable, adds.beyond beyond⟩
    exact (congrArg Prod.fst counts).trans (congrArg Prod.snd counts).symm
  · obtain ⟨site, later, run, fails⟩ := IndexedMap.run_add_valueless
    obtain ⟨image, created, -, -⟩ := IndexedMap.holds_of_init Shape.wellFormed_valueless run
    refine ⟨site, later, image.header, .init _ run, Row.typed_valueless, created.run_header, ?_,
      fails⟩
    rw [created.represents.count]
    exact created.represents.framed.reached.pos

end PackedStore
