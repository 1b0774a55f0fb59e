/-
This file follows a map and its ledger while values give way to others, side by
side. A value of the same size is written over the old one or moves to new words of
the arena. Whether a typed access finds its value in an aligned place is read off the
ledger, whatever the type is.
-/

import PackedStore.Proofs.UntypedMap.LedgerStoring

namespace PackedStore.UntypedMap

open Store (Asks Enacts Quiet)

variable {Buffer : Type} [Host Buffer] {known : ElementType → Prop} {key : KeyType}
  {site : Site Buffer} {image : Image} {entries : List Entry} {places : List Nat}
  {order : Nat → List Nat} {ledger : Ledger} {slot : Nat} {old value : Value}

/-! ### Values over others -/

/-- Where no type is known, every value of the same size can be written over another one. -/
theorem Represents.overwrite_any (represents : Represents (fun _ => False) key image entries order)
    (there : Entries.stored entries slot = some old) (size : value.bytes.size = old.bytes.size) :
    ∃ cells, ValueCells.overwrite slot value.bytes image.cells = .ok () cells ∧
      (4 < old.bytes.size → cells.words = image.cells.words) ∧
      Represents (fun _ => False) key
        { image with cells, types := image.types.setIfInBounds slot value.tag }
        (Entries.put entries slot value) order := by
  obtain ⟨cells, run, size_arena, -, words, values⟩ :=
    @ValueTable.overwrite_spec (fun _ => False) _ _ _ _ slot value represents.values old there size
      fun _ _ _ _ isKnown => isKnown.elim
  exact ⟨cells, run, words, represents.setValue there size size_arena values⟩

namespace Image.Located

variable (located : image.Located entries places) (there : Entries.stored entries slot = some old)

include located there

/-- A value that is written over another one takes over its place. -/
theorem put (size : value.bytes.size = old.bytes.size) {changed : Image}
    (words : ∀ other, other ≠ slot → changed.cells.words[other]? = image.cells.words[other]?)
    (kept : 4 < old.bytes.size → changed.cells.words = image.cells.words) :
    changed.Located (Entries.put entries slot value) places := by
  have inside := Entries.stored_lt there
  refine located.update slot ?_ ?_ (fun other different _ => words other different)
    (fun _ _ _ => rfl) ?_
  · rw [Entries.length_put]
    exact located.length_eq
  · intro other different
    rw [Entries.stored_put inside, Function.update_of_ne different]
  · intro found word large
    have stored := large.stored
    rw [Entries.stored_put inside, Function.update_self] at stored
    obtain rfl := Option.some.inj stored
    have wasLarge : 4 < old.bytes.size := by
      rw [← size]
      exact large.large
    exact located.place slot old word ⟨there, wasLarge, by rw [← kept wasLarge]; exact large.word⟩

/-- A value that has moved is at its new place. -/
theorem move {changed : Image} {place : Nat} (small : place < 2 ^ 32)
    (words : changed.cells.words = image.cells.words.setIfInBounds slot (UInt32.ofNat place))
    (inWords : slot < image.cells.words.size) :
    changed.Located (Entries.put entries slot value) (places.set slot place) := by
  have inside := Entries.stored_lt there
  refine located.update slot ?_ ?_ (fun other different _ => ?_) (fun other different _ => ?_) ?_
  · rw [Entries.length_put, List.length_set]
    exact located.length_eq
  · intro other different
    rw [Entries.stored_put inside, Function.update_of_ne different]
  · rw [words]
    exact Array.getElem?_setIfInBounds_ne fun same => different same.symm
  · exact List.getElem?_set_ne fun same => different same.symm
  · intro found word large
    have isWord := large.word
    rw [words, Array.getElem?_setIfInBounds_self_of_lt inWords] at isWord
    rw [List.getElem?_set_self (by rw [located.length_eq]; exact inside), ← Option.some.inj isWord,
      UInt32.toNat_ofNat', Nat.mod_eq_of_lt small]

/-- The place of a large value is in its word. -/
theorem getD_eq (large : 4 < old.bytes.size) {word : UInt32}
    (isWord : image.cells.words[slot]? = some word) : places.getD slot 0 = word.toNat := by
  rw [List.getD_eq_getElem?_getD, located.place slot old word ⟨there, large, isWord⟩,
    Option.getD_some]

end Image.Located

section

variable [LawfulHost Buffer] (wellFormed : key.toElementType.WellFormed)

include wellFormed

theorem Records.enacts_overwrite (records : Records key site ledger)
    (there : Entries.stored ledger.entries slot = some old) {payload : Payload}
    (size : payload.bytes.size = old.bytes.size) :
    Enacts (Records key) site
      (Store.edit (format key.toElementType) do
        putType slot payload.tag
        onCells (ValueCells.overwrite slot payload.bytes))
      (.ends (.ok ()) (ledger.put slot payload.value)) := by
  obtain ⟨image, order, holds, isHeader, located⟩ := records
  obtain ⟨cells, written, kept, represents⟩ :=
    @Represents.overwrite_any key image _ order slot old payload.value holds.represents there size
  have ran : (do
      putType slot payload.tag
      onCells (ValueCells.overwrite slot payload.bytes) : Edit Image Unit) image =
      .ok () { image with cells, types := image.types.setIfInBounds slot payload.tag } := by
    rw [Edit.run_bind, run_putType (holds.represents.slot_lt there).1]
    exact @run_onCells { image with types := image.types.setIfInBounds slot payload.tag }
      _ _ _ _ written
  obtain ⟨later, run, holdsLater, -⟩ :=
    run_edit wellFormed holds.loaded holds.size_eq ran rfl represents
  exact .of_ok (.edit _ _) run ⟨_, order, holdsLater, isHeader,
    located.put there size (fun other different => ValueCells.words_of_overwrite written different)
      kept⟩

/-! ### Moving -/

/-- What moves a value to words of the arena that are put into use. -/
def moveTo (key : KeyType) (slot offset : Nat) (payload : Payload) : Store Buffer Unit := do
  Store.edit (format key.toElementType) (putType slot payload.tag)
  Store.report (.valueMoved slot offset)
  Store.edit (format key.toElementType)
    (onCells (ValueCells.writeLarge slot offset payload.bytes))

/-- A value moves behind the words in use. -/
theorem Holds.run_moveTo (holds : Holds known key site image entries order)
    (there : Entries.stored entries slot = some old) {payload : Payload}
    (fits : payload.Fits known) (size : payload.bytes.size = old.bytes.size)
    (large : 4 < payload.bytes.size) {offset : Nat} (behind : image.header.dataAllocated ≤ offset)
    (word : offset < 2 ^ 32) (aligned : payload.align ∣ offset * wordSize)
    (inside : offset + wordsFor payload.bytes.size ≤ image.header.dataCapacity) :
    ∃ later changed,
      (do
        raise (offset + wordsFor payload.bytes.size)
        moveTo key slot offset payload : Store Buffer Unit) site = .ok () later ∧
      Holds known key later changed (Entries.put entries slot payload.value) order ∧
      changed.header = { image.header with
        dataAllocated := offset + wordsFor payload.bytes.size } ∧
      changed.cells.words = image.cells.words.setIfInBounds slot (UInt32.ofNat offset) := by
  obtain ⟨raised, wide, runRaise, holdsWide, isHeader, words, values⟩ :=
    holds.run_raise wellFormed (by omega) inside
  have represents := holdsWide.represents
  have framed := represents.framed
  have sound := represents.sound
  have capacity : wide.header.capacity = image.header.capacity := by
    rw [isHeader]
    rfl
  have used : wide.header.dataAllocated = offset + wordsFor payload.bytes.size := by
    rw [isHeader]
    rfl
  let tagged : Image := { wide with types := wide.types.setIfInBounds slot payload.tag }
  have soundTagged : tagged.Sound key :=
    ⟨sound.computed, sound.header, sound.size_words, sound.size_arena, sound.chains,
      Array.size_setIfInBounds.trans sound.size_types, sound.size_sizes, sound.sizes⟩
  obtain ⟨marked, runMark, loadedMarked, sizeMarked, -⟩ :=
    run_edit_of_sound wellFormed holdsWide.loaded holdsWide.size_eq
      (run_putType (represents.slot_lt there).1 payload.tag) (by rfl) soundTagged
  obtain ⟨cells, written, size_arena, stored⟩ :=
    @ValueTable.writeLarge_spec known _ _ _ _ slot payload.value values
      (values.lt_capacity slot old there) large offset behind word
      (by rw [framed.size_arena, isHeader]; exact Nat.mul_le_mul_right _ inside)
      (fits.suits aligned)
  have moved : ValueTable known wide.header.capacity wide.header.dataAllocated
      (Function.update (Entries.stored entries) slot (some payload.value)) cells := by
    rw [capacity, used]
    exact stored
  obtain ⟨later, runWrite, holdsLater, -⟩ :=
    @run_edit _ _ known key { marked with events := marked.events ++ [.valueMoved slot offset] }
      tagged _ order _ wellFormed loadedMarked sizeMarked _ _ _ _
      (@run_onCells tagged _ _ _ _ written) (by rfl)
      (represents.setValue there size size_arena moved)
  refine ⟨later, _, ?_, holdsLater, isHeader, ?_⟩
  · simp only [moveTo, Edit.run_bind, runRaise, runMark, Store.run_report]
    exact runWrite
  · show cells.words = _
    rw [ValueCells.words_of_writeLarge written, words]

theorem Records.enacts_move (records : Records key site ledger)
    (there : Entries.stored ledger.entries slot = some old) {payload : Payload}
    (fits : payload.Fits fun _ => False) (size : payload.bytes.size = old.bytes.size)
    (large : 4 < payload.bytes.size) :
    Enacts (Records key) site (move key slot payload) ((do
      let place ← Ledger.allocate key payload.bytes.size payload.align
      modify fun ledger => (ledger.put slot payload.value).move slot place :
        Plan Ledger Unit).run ledger) := by
  have short : payload.bytes.size < 2 ^ 16 := by
    obtain ⟨image, order, holds, -, -⟩ := records
    rw [size]
    exact holds.represents.old_lt there
  refine records.enacts_allocate wellFormed short fits.supported ?_
  intro offset later changed recordsLater sameEntries _ _ behind word aligned inside
  obtain ⟨image, order, holds, isHeader, located⟩ := recordsLater
  rw [← sameEntries] at there
  rw [← isHeader] at behind inside
  obtain ⟨last, moved, run, holdsLast, headerLast, words⟩ :=
    holds.run_moveTo wellFormed there fits size large behind word aligned inside
  have inWords : slot < image.cells.words.size := by
    rw [holds.represents.values.size_words]
    exact holds.represents.values.lt_capacity slot old there
  refine .of_ok ((quiet_raise _).bind fun _ => (Quiet.edit _ _).bind fun _ =>
    (Quiet.report _).bind fun _ => .edit _ _) run
    ⟨moved, order, holdsLast, ?_, located.move there word words inWords⟩
  rw [headerLast, isHeader]
  rfl

/-- A value gives way to another one of its size. -/
theorem Records.enacts_replace (records : Records key site ledger)
    (there : Entries.stored ledger.entries slot = some old) {payload : Payload}
    (fits : payload.Fits fun _ => False) :
    Enacts (Records key) site (replace key slot payload)
      ((Ledger.replace key slot payload).run ledger) := by
  obtain ⟨image, order, holds, isHeader, located⟩ := id records
  obtain ⟨word, isWord, viewed⟩ := holds.exists_word there
  refine .read viewed ?_
  simp only [Ledger.replace, Plan.run_bind, Plan.run_get, Plan.run_lift, Script.bind_ok, there,
    orFail]
  refine .check records fun _ demanded => ?_
  have size := demand_eq_ok.mp demanded
  by_cases large : 4 < payload.bytes.size
  · have place := located.getD_eq there (by omega) isWord
    have placed : isAligned word.toNat payload.align =
        .ok (decide (payload.align ∣ ledger.places.getD slot 0 * wordSize)) := by
      rw [place]
      exact isAligned_eq fits.supported.pos
    simp only [isLarge_iff.mpr large, if_true]
    rw [placed]
    refine .read (Edit.run_lift_ok _ _) ?_
    by_cases aligned : payload.align ∣ ledger.places.getD slot 0 * wordSize
    · rw [decide_eq_true aligned, if_pos rfl, if_pos (Or.inr aligned)]
      exact records.enacts_overwrite wellFormed there size.symm
    · rw [decide_eq_false aligned, if_neg Bool.false_ne_true, if_neg (by omega)]
      exact records.enacts_move wellFormed there fits size.symm large
  · have small := Nat.le_of_not_lt large
    simp only [not_isLarge_iff.mpr small, Bool.false_eq_true, if_false, pure_bind, if_true]
    rw [if_pos (Or.inl small)]
    exact records.enacts_overwrite wellFormed there size.symm

/-! ### Typed accesses -/

omit [LawfulHost Buffer] wellFormed in
/-- The ledger knows what a typed access finds. -/
theorem Holds.readSlot_eq (holds : Holds (fun _ => False) key site image ledger.entries order)
    (located : image.Located ledger.entries ledger.places)
    (there : Entries.stored ledger.entries slot = some old) (type : ElementType) :
    readSlot slot type image = ledger.read slot type := by
  have described := holds.represents.described
  have values := holds.represents.values
  obtain ⟨word, isWord⟩ := values.exists_word (values.lt_capacity slot old there)
  rw [Ledger.read, Entries.read_of_stored there, readSlot,
    fetch_of (described.tags slot old there), Checked.bind_ok,
    fetch_of (described.sizes slot old there), Checked.bind_ok]
  by_cases same : old.tag = type.tag ∧ old.bytes.size = type.size
  · have read := values.read slot old there
    rw [same.2] at read
    rw [Value.readAs_of same, demandType, demand_of same, Checked.bind_ok, Checked.bind_ok,
      ValueCells.read, read, Checked.bind_ok, ValueCells.checkAligned, fetch_of isWord,
      Checked.bind_ok]
    by_cases large : 4 < type.size
    · rw [isLarge_iff.mpr large, located.getD_eq there (by omega) isWord]
      simp only [if_true, bind_assoc]
    · rw [not_isLarge_iff.mpr (Nat.le_of_not_lt large)]
      rfl
  · rw [Value.readAs_of_not same, demandType, demand_of_not same]
    rfl

/-- A value is found to be of a type before another one is written over it. -/
theorem Records.enacts_exchangeSlot (records : Records key site ledger)
    (there : Entries.stored ledger.entries slot = some old) (datum : Datum) :
    Enacts (Records key) site (Store.edit (format key.toElementType) (exchangeSlot slot datum))
      ((Script.ends (ledger.read slot datum.type) ledger).bind fun content _ =>
        .ends (.ok (some content)) (ledger.put slot datum.payload.value)) := by
  obtain ⟨image, order, holds, isHeader, located⟩ := records
  have read := holds.readSlot_eq located there datum.type
  cases found : ledger.read slot datum.type with
  | error failure =>
    obtain ⟨later, run, same, -⟩ :=
      holds.run_edit_unchanged wellFormed (run_exchangeSlot_error (read.trans found))
    exact .of_error (.edit _ _) run ⟨image, order, holds.of_bytes same, isHeader, located⟩
  | ok content =>
    obtain ⟨_, typed, -⟩ := Checked.bind_eq_ok.mp found
    rw [Entries.read_of_stored there] at typed
    obtain ⟨_, demanded, -⟩ := Checked.bind_eq_ok.mp typed
    obtain ⟨sameTag, sameSize⟩ := demand_eq_ok.mp demanded
    obtain ⟨cells, written, kept, represents⟩ :=
      @Represents.overwrite_any key image _ order slot old datum.payload.value holds.represents
        there (datum.size_bytes.trans sameSize.symm)
    have tag := holds.represents.described.tags slot old there
    rw [sameTag] at tag
    have types : image.types.setIfInBounds slot datum.payload.value.tag = image.types :=
      setIfInBounds_of_there tag
    rw [types] at represents
    obtain ⟨later, run, holdsLater, -⟩ := run_edit wellFormed holds.loaded holds.size_eq
      (run_exchangeSlot (read.trans found) written) rfl represents
    exact .of_ok (.edit _ _) run ⟨_, order, holdsLater, isHeader,
      located.put there (datum.size_bytes.trans sameSize.symm)
        (fun other different => ValueCells.words_of_overwrite written different) kept⟩

end

end PackedStore.UntypedMap
