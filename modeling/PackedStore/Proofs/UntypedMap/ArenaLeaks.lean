/-
This file bounds what the arena of an untyped map loses to values that move. There
are three grades of places, so a value moves twice at most and leaves two places
behind, whatever is stored over it and in whatever order, and whichever operations
fail. Once a value is stored, storing it again writes the bytes that are there.
-/

import PackedStore.Proofs.UntypedMap.ArenaGrades
import PackedStore.Proofs.UntypedMap.LedgerReplies

namespace PackedStore.UntypedMap

/-! ### Accounts of a ledger -/

namespace Ledger

variable {ledger : Ledger} (even : ledger.Even) {entryKey : Bytes} {slot : Nat} {value : Value}

include even

theorem find_tally (wanted : Bytes) :
    ledger.tally.find wanted = Entries.find ledger.entries wanted := by
  have keys : ledger.accounts.map Account.key = ledger.entries.map Entry.key := by
    refine List.ext_getElem? fun slot => ?_
    rw [List.getElem?_map, getElem?_accounts even, List.getElem?_map, Option.map_map]
    rfl
  rw [Tally.find, tally, keys, List.findIdx?_map]
  rfl

theorem account?_tally (found : Entries.find ledger.entries entryKey = some slot)
    (there : Entries.stored ledger.entries slot = some value) :
    ledger.tally.account? entryKey =
      some ⟨entryKey, value.bytes.size, ledger.places.getD slot 0⟩ := by
  obtain ⟨other, isEntry⟩ := Entries.stored_eq_some.mp there
  obtain ⟨another, isKey⟩ := Entries.cell_eq_some.mp (Entries.cell_of_find found)
  obtain ⟨rfl, -⟩ := Entry.mk.inj (Option.some.inj (isEntry.symm.trans isKey))
  rw [Tally.account?_of_find ((find_tally even other).trans found), tally,
    getElem?_accounts even, isEntry, Option.map_some]

end Ledger

/-! ### Places in a map -/

/-- The word of the arena where the value of a key starts. A small value has none. -/
def arenaOffset {Buffer : Type} [Host Buffer] (key : KeyType) (wanted : Bytes) :
    Store Buffer (Option Nat) :=
  Store.view (format key.toElementType) fun image => do
    match ← image.chains.find key.hash wanted with
    | none => return none
    | some slot =>
      let size ← fetch image.sizes slot
      let word ← fetch image.cells.words slot
      return if isLarge size then some word.toNat else none

variable {Buffer : Type} [Host Buffer] {key : KeyType} {site : Site Buffer} {ledger : Ledger}

namespace Records

variable (records : Records key site ledger)

include records

theorem even : ledger.Even := by
  obtain ⟨image, order, -, -, located⟩ := records
  exact located.length_eq

end Records

/-! ### Runs -/

/-- The operation does not clear the map, and brings keys of the key type and values of any types. -/
structure Operation.Additive (key : KeyType) (operation : Operation) : Prop where
  fits : operation.Fits ElementType.WellFormed key
  unclear : operation ≠ .clear

section

variable [LawfulHost Buffer] (wellFormed : key.toElementType.WellFormed)

include wellFormed

/-- Whether an operation succeeds or fails, it makes a step. -/
theorem Records.step (records : Records key site ledger) {operation : Operation}
    (additive : operation.Additive key) :
    ∃ later, Records key (Store.outcome (operation.run key) site).2 later ∧
      ledger.tally.Step later.tally :=
  (records.enacts wellFormed additive.fits).keeps
    (Operation.meets_step records.even additive.fits additive.unclear)

/-- The accounts of the map at a site have a property. -/
def Accounted (key : KeyType) (property : Tally → Prop) (site : Site Buffer) : Prop :=
  ∃ ledger, Records key site ledger ∧ property ledger.tally

namespace Accounted

variable {property : Tally → Prop} (accounted : Accounted key property site)
  (closed : ∀ before after, property before → before.Step after → property after)

include accounted closed

theorem step {operation : Operation} (additive : operation.Additive key) :
    Accounted key property (Store.outcome (operation.run key) site).2 := by
  obtain ⟨ledger, records, has⟩ := accounted
  obtain ⟨later, recordsLater, step⟩ := records.step wellFormed additive
  exact ⟨later, recordsLater, closed _ _ has step⟩

/-- What every step keeps is kept by every run that does not clear the map. -/
theorem run {operations : List Operation}
    (additive : ∀ operation ∈ operations, operation.Additive key) :
    Accounted key property ((Store.machine (Operation.run key)).reached operations site) := by
  refine Machine.reached_of_step (fun operation site additive accounted => ?_) additive accounted
  exact accounted.step wellFormed closed additive

end Accounted

/-- A key has an account whose place suits an alignment, if its value is large. -/
def Tally.Suits (entryKey : Bytes) (align : Nat) (tally : Tally) : Prop :=
  ∃ account, tally.account? entryKey = some account ∧
    (4 < account.size → align ∣ account.place * wordSize)

omit wellFormed [LawfulHost Buffer] [Host Buffer] in
/-- A value that moves goes to a place that suits all alignments that its old place suits. -/
theorem Tally.Suits.step {entryKey : Bytes} {align : Nat} (wanted : IsAlign align)
    {before after : Tally} (suits : before.Suits entryKey align) (step : before.Step after) :
    after.Suits entryKey align := by
  obtain ⟨account, there, had⟩ := suits
  obtain ⟨shifted, thereLater, shifts⟩ := step.account? there
  refine ⟨shifted, thereLater, ?_⟩
  cases shifts with
  | stays => exact had
  | moves supported large unsuited moved =>
    exact fun _ => supported.dvd_of_unsuited wanted unsuited moved (had large)

end

section

variable [LawfulHost Buffer] (wellFormed : key.toElementType.WellFormed)
  (records : Records key site ledger) {operation : Operation} {entryKey : Bytes} {payload : Payload}
  (isStored : operation.stored? = some (entryKey, payload))
  (fits : operation.Fits ElementType.WellFormed key)

include wellFormed records isStored fits

theorem Records.stores :
    ∃ later, Records key (Store.outcome (operation.run key) site).2 later ∧
      (Script.ends (Store.outcome (operation.run key) site).1 later).Meets ledger.Keeps
        fun _ later => Entries.lookup later.entries entryKey = some payload.value ∧
          ledger.tally.Stores (ledger.tally.find entryKey) entryKey payload later.tally := by
  rw [Ledger.find_tally records.even]
  exact (records.enacts wellFormed fits).meets (Operation.meets_stored records.even isStored fits)

/-- After a value has been stored, it can be read, and its place suits it. -/
theorem Records.stored {answer : Answer} {later : Site Buffer}
    (run : operation.run key site = .ok answer later) :
    Accounted key (Tally.Suits entryKey payload.align) later ∧
      getBytes? key entryKey later = .ok (some (payload.tag, payload.bytes)) later := by
  obtain ⟨ledgerLater, recordsLater, came⟩ := records.stores wellFormed isStored fits
  rw [Store.outcome_ok run] at recordsLater came
  obtain ⟨stored, stores⟩ := came
  have even := recordsLater.even
  obtain ⟨account, isAccount, suits⟩ := stores.account?
  obtain ⟨slot, found, there⟩ := Option.bind_eq_some_iff.mp stored
  refine ⟨⟨ledgerLater, recordsLater, account, isAccount, ?_⟩, ?_⟩
  · obtain rfl := Option.some.inj ((Ledger.account?_tally even found there).symm.trans isAccount)
    exact suits
  · obtain ⟨image, order, holds, -, -⟩ := recordsLater
    rw [holds.run_getBytes?, stored]
    rfl

end

/-- A value of a type, by its bits. -/
def datumOf (type : DataType) (value : Nat) : Datum :=
  ⟨type.element, (Bytes.littleEndian type.element.size value).toArray,
    Bytes.length_littleEndian _ value⟩

theorem wellFormed_words (count : Nat) : (DataType.array ⟨.unsigned, 4⟩ count).element.WellFormed := by
  refine ⟨⟨2, rfl⟩, ⟨count, ?_⟩⟩
  show ((List.replicate count (⟨.unsigned, 4⟩ : Scalar)).map (·.size)).sum = 4 * count
  rw [List.map_replicate, List.sum_replicate_nat, Nat.mul_comm]

end PackedStore.UntypedMap
