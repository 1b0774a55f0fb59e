/-
This file follows a map and its ledger while values are stored, side by side. A
large value takes the planned words of the arena, and a value written over another
one stays at its place, whatever its type is.
-/

import PackedStore.Proofs.UntypedMap.LedgerGrowth

namespace PackedStore.UntypedMap

open Store (Asks Enacts Quiet)

variable {Buffer α : Type} [Host Buffer] {known : ElementType → Prop} {key : KeyType}
  {site : Site Buffer} {image : Image} {entries : List Entry} {places : List Nat}
  {order : Nat → List Nat} {ledger : Ledger}

/-! ### Words in use -/

/-- What puts more words of the arena into use. -/
def raise (stop : Nat) : Store Buffer Unit := do
  writeHeader { ← header with dataAllocated := stop }

theorem quiet_raise (stop : Nat) : Quiet (raise stop : Store Buffer Unit) :=
  quiet_header.bind fun _ => quiet_writeHeader _

section

variable [LawfulHost Buffer] (wellFormed : key.toElementType.WellFormed)

include wellFormed

/-- No value stands in the words that have been put into use. -/
theorem Holds.run_raise (holds : Holds known key site image entries order) {stop : Nat}
    (raised : image.header.dataAllocated ≤ stop) (inside : stop ≤ image.header.dataCapacity) :
    ∃ later wide, raise stop site = .ok () later ∧ Holds known key later wide entries order ∧
      wide.header = image.header.withData image.header.dataCapacity stop ∧
      wide.cells.words = image.cells.words ∧
      ValueTable known image.header.capacity image.header.dataAllocated (Entries.stored entries)
        wide.cells := by
  have framed := holds.represents.framed
  obtain ⟨later, wide, run, holdsLater, widens, isHeader, -⟩ := holds.run_withData wellFormed
    (framed.header.withData framed.header.dataReached inside) (Nat.le_refl _) raised framed.computed
    holds.size_eq fun _ _ => rfl
  refine ⟨later, wide, ?_, holdsLater, isHeader, widens.words,
    holds.represents.values_of_widens holdsLater.represents.sound widens isHeader (Nat.le_refl _)⟩
  simp only [raise, Edit.run_bind, holds.run_header]
  exact run

/-- A plan for words of the arena is carried out once there are enough of them. -/
theorem Records.enacts_allocate (records : Records key site ledger) {size align : Nat}
    (small : size < 2 ^ 16) (supported : IsAlign align) {next : Nat → Store Buffer α}
    {rest : Nat → Plan Ledger α}
    (behind : ∀ offset later changed, Records key later changed →
      changed.entries = ledger.entries → changed.places = ledger.places →
      changed.header.capacity = ledger.header.capacity →
      changed.header.dataAllocated ≤ offset → offset < 2 ^ 32 → align ∣ offset * wordSize →
      offset + wordsFor size ≤ changed.header.dataCapacity →
      Enacts (Records key) later (raise (offset + wordsFor size) >>= fun _ => next offset)
        ((rest offset).run (changed.raise (offset + wordsFor size)))) :
    Enacts (Records key) site (allocate key size align >>= next)
      ((Ledger.allocate key size align >>= rest).run ledger) := by
  obtain ⟨image, order, holds, isHeader, located⟩ := id records
  have regular := records.regular
  have bound := regular.dataReached.le_max
  have used := regular.allocated_le
  have words : wordsFor size ≤ 2 ^ 14 := by
    unfold wordsFor wordSize
    omega
  unfold maxCapacity at bound
  obtain ⟨offset, planned, least, near, aligned⟩ :=
    @planAllocation_of ledger.header.dataAllocated size align supported (by unfold sizeLimit; omega)
  have allocated : allocate key size align site = (do
      ensureData key (offset + wordsFor size)
      raise (offset + wordsFor size)
      return offset : Store Buffer Nat) site := by
    simp only [allocate, raise, bind_assoc]
    simp only [Edit.run_bind, holds.run_header, isHeader, planned, orFail, Edit.run_lift_ok,
      toWord32_of (show offset < 2 ^ 32 by omega),
      toWord32_of (show offset + wordsFor size < 2 ^ 32 by omega)]
  have same : (allocate key size align >>= next) site = (do
      ensureData key (offset + wordsFor size)
      raise (offset + wordsFor size)
      next offset) site := by
    rw [Edit.run_bind, allocated, ← Edit.run_bind]
    simp only [bind_assoc, pure_bind]
  refine Enacts.congr ?_ same
  simp only [Ledger.allocate, Plan.run_bind, Plan.run_get, Plan.run_lift, Plan.run_modify,
    Plan.run_pure, planned, orFail, Script.bind_ok, Script.bind_assoc]
  refine (records.enacts_ensureData wellFormed _).bind fun _ changed later ends stands => ?_
  obtain ⟨rfl, room⟩ := Ledger.granted_ensureData regular ends
  exact behind offset later _ stands rfl rfl rfl least (by omega) aligned room

end

/-! ### New entries -/

/-- The place of a new large value is the one that has been written to its word. -/
theorem Image.Located.push (located : image.Located entries places) {changed : Image} {entry : Entry}
    {place : Nat}
    (words : ∀ other, other ≠ entries.length →
      changed.cells.words[other]? = image.cells.words[other]?)
    (own : 4 < entry.value.bytes.size → ∀ word, changed.cells.words[entries.length]? = some word →
      place = word.toNat) : changed.Located (entries ++ [entry]) (places ++ [place]) := by
  refine located.update entries.length ?_ ?_ (fun other different _ => words other different) ?_ ?_
  · simp [located.length_eq]
  · intro other different
    rw [Entries.stored_concat, Function.update_of_ne different]
  · intro other _ inside
    exact List.getElem?_append_left inside
  · intro value word large
    have stored := large.stored
    rw [Entries.stored_concat, Function.update_self] at stored
    obtain rfl := Option.some.inj stored
    rw [← located.length_eq, List.getElem?_concat_length, own large.large word large.word]

section

variable [LawfulHost Buffer] (wellFormed : key.toElementType.WellFormed)

include wellFormed

section

variable (holds : Holds known key site image entries order)
  (below : entries.length < image.header.capacity) {entryKey : Bytes}
  (isKey : key.Fits entryKey) (absent : Entries.find entries entryKey = none)
  {payload : Payload} (size : payload.bytes.size < 2 ^ 16)

include holds below isKey absent size

/-- A large value of a new entry goes behind the words in use. -/
theorem Holds.run_placeLarge (fits : payload.Fits known) (large : 4 < payload.bytes.size)
    {offset : Nat} (behind : image.header.dataAllocated ≤ offset) (word : offset < 2 ^ 32)
    (aligned : payload.align ∣ offset * wordSize)
    (inside : offset + wordsFor payload.bytes.size ≤ image.header.dataCapacity) :
    ∃ later changed relinked,
      (do
        raise (offset + wordsFor payload.bytes.size)
        Store.edit (format key.toElementType) (place key entryKey payload (some offset)) :
          Store Buffer Nat) site = .ok entries.length later ∧
      Holds known key later changed (entries ++ [⟨entryKey, payload.value⟩]) relinked ∧
      changed.header = { image.header with
        count := entries.length + 1
        dataAllocated := offset + wordsFor payload.bytes.size } ∧
      changed.cells.words = image.cells.words.setIfInBounds entries.length (UInt32.ofNat offset) := by
  obtain ⟨raised, wide, runRaise, holdsWide, isHeader, words, values⟩ :=
    holds.run_raise wellFormed (by omega) inside
  have framed := holdsWide.represents.framed
  obtain ⟨cells, written, size_arena, stored⟩ :=
    @ValueTable.writeLarge_spec known _ _ _ _ entries.length payload.value values below large
      offset behind word (by rw [framed.size_arena, isHeader]; exact Nat.mul_le_mul_right _ inside)
      (fits.suits aligned)
  have capacity : wide.header.capacity = image.header.capacity := by
    rw [isHeader]
    rfl
  have used : wide.header.dataAllocated = offset + wordsFor payload.bytes.size := by
    rw [isHeader]
    rfl
  obtain ⟨changed, runPlace, layout, headerChanged, isCells, represents⟩ :=
    @Represents.place_spec known key wide entries order holdsWide.represents
      (by rw [capacity]; exact below) entryKey isKey (holds.represents.distinct.not_cell absent)
      payload size (some offset) cells written size_arena (by rw [capacity, used]; exact stored)
  obtain ⟨later, runEdit, holdsLater, -⟩ :=
    run_edit wellFormed holdsWide.loaded holdsWide.size_eq runPlace layout represents
  refine ⟨later, changed, _, ?_, holdsLater, ?_, ?_⟩
  · simp only [Edit.run_bind, runRaise]
    exact runEdit
  · rw [headerChanged, isHeader]
    rfl
  · rw [isCells, ValueCells.words_of_writeLarge written, words]

/-- A small value of a new entry goes to the word of its slot. -/
theorem Holds.run_placeSmall (small : payload.bytes.size ≤ 4) :
    ∃ later changed relinked,
      Store.edit (format key.toElementType) (place key entryKey payload none) site =
        .ok entries.length later ∧
      Holds known key later changed (entries ++ [⟨entryKey, payload.value⟩]) relinked ∧
      changed.header = { image.header with count := entries.length + 1 } ∧
      ∀ other, other ≠ entries.length →
        changed.cells.words[other]? = image.cells.words[other]? := by
  obtain ⟨cells, written, size_arena, stored⟩ :=
    @ValueTable.writeInline_spec known _ _ _ _ entries.length payload.value
      holds.represents.values below small
  obtain ⟨changed, runPlace, layout, headerChanged, isCells, represents⟩ :=
    @Represents.place_spec known key image entries order holds.represents below entryKey isKey
      (holds.represents.distinct.not_cell absent) payload size none cells written size_arena stored
  obtain ⟨later, runEdit, holdsLater, -⟩ :=
    run_edit wellFormed holds.loaded holds.size_eq runPlace layout represents
  refine ⟨later, changed, _, runEdit, holdsLater, headerChanged, fun other different => ?_⟩
  rw [isCells]
  exact ValueCells.words_of_writeInline written different

end

variable (records : Records key site ledger) {entryKey : Bytes} (isKey : key.Fits entryKey)
  (absent : Entries.find ledger.entries entryKey = none) {payload : Payload}
  (fits : payload.Fits fun _ => False)

include records isKey absent fits

theorem Records.enacts_fillSlot (size : payload.bytes.size < 2 ^ 16)
    (below : ledger.entries.length < ledger.header.capacity) :
    Enacts (Records key) site (fillSlot key entryKey payload)
      ((Ledger.fillSlot key entryKey payload).run ledger) := by
  by_cases large : 4 < payload.bytes.size
  · have isLarge := isLarge_iff.mpr large
    simp only [fillSlot, takeRoom, Ledger.fillSlot, Ledger.takeRoom, isLarge, if_true, bind_map_left]
    refine records.enacts_allocate wellFormed size fits.supported ?_
    intro offset later changed recordsLater sameEntries samePlaces capacity behind word aligned inside
    obtain ⟨image, order, holds, isHeader, located⟩ := recordsLater
    rw [← sameEntries] at absent below
    rw [← capacity, ← isHeader] at below
    rw [← isHeader] at behind inside
    obtain ⟨last, placed, relinked, run, holdsLast, headerLast, words⟩ :=
      holds.run_placeLarge wellFormed below isKey absent size fits large behind word aligned inside
    have inWords : changed.entries.length < image.cells.words.size := by
      rw [holds.represents.values.size_words]
      exact below
    refine .of_ok ((quiet_raise _).bind fun _ => .edit _ _) run ⟨placed, relinked, holdsLast, ?_, ?_⟩
    · rw [headerLast, isHeader]
      rfl
    · refine located.push (fun other different => ?_) fun _ found isWord => ?_
      · rw [words]
        exact Array.getElem?_setIfInBounds_ne fun same => different same.symm
      · rw [words, Array.getElem?_setIfInBounds_self_of_lt inWords] at isWord
        rw [← Option.some.inj isWord, UInt32.toNat_ofNat', Nat.mod_eq_of_lt word]
  · have small := Nat.le_of_not_lt large
    obtain ⟨image, order, holds, isHeader, located⟩ := records
    rw [← isHeader] at below
    simp only [fillSlot, takeRoom, Ledger.fillSlot, Ledger.takeRoom, not_isLarge_iff.mpr small,
      Bool.false_eq_true, if_false, pure_bind]
    obtain ⟨later, placed, relinked, run, holdsLater, headerLater, words⟩ :=
      holds.run_placeSmall wellFormed below isKey absent size small
    refine .of_ok (.edit _ _) run ⟨placed, relinked, holdsLater, ?_, ?_⟩
    · rw [headerLater, isHeader]
      rfl
    · exact located.push words fun isLarge => absurd isLarge large

theorem Records.enacts_insertNew :
    Enacts (Records key) site (insertNew key entryKey payload)
      ((Ledger.insertNew key entryKey payload).run ledger) := by
  have regular := records.regular
  rw [insertNew_eq]
  simp only [Ledger.insertNew, Plan.run_bind, Plan.run_lift]
  refine .check records fun _ small => ?_
  have size := demand_eq_ok.mp small
  obtain ⟨image, order, holds, isHeader, located⟩ := id records
  refine .read holds.run_header ?_
  rw [isHeader]
  refine (records.enacts_makeRoom wellFormed).bind fun _ changed later ends stands => ?_
  obtain ⟨rfl, -, room⟩ := Ledger.granted_makeRoom regular ends
  refine Records.enacts_fillSlot wellFormed stands isKey absent fits size ?_
  rw [records.count_eq] at room
  exact room

end

end PackedStore.UntypedMap
