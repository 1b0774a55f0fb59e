/-
This file gives the words of the slots and the arena their meaning as values, one
per slot. Small values stand in their words, large ones in the arena, in ranges of
words that are apart from each other and below the first word never allocated. An
operation on the value of one slot writes its word and its range only, so the
values of all other slots stay.
-/

import Mathlib.Logic.Function.Basic
import PackedStore.Proofs.Element.Types
import PackedStore.Proofs.Layout.Segments

namespace PackedStore

/-- A value of some type, for which only its tag stands. -/
structure Value where
  tag : TypeTag
  bytes : Bytes
deriving DecidableEq, Repr

/-- What is stored of a payload. -/
def Payload.value (payload : Payload) : Value :=
  ⟨payload.tag, payload.bytes⟩

/-- The place is aligned for all types that the tag and the size of the value can stand for. -/
def Value.Suits (known : ElementType → Prop) (value : Value) (offset : Nat) : Prop :=
  ∀ type, known type → type.tag = value.tag → type.size = value.bytes.size →
    type.align ∣ offset * wordSize

/-- The bytes of a value in a place, which must have been stored as a value of the type. -/
def Value.readAs (value : Value) (place : Place) (type : ElementType) : Checked Bytes := do
  demandType place value.tag value.bytes.size type
  return value.bytes

theorem Value.readAs_of {value : Value} {type : ElementType}
    (same : value.tag = type.tag ∧ value.bytes.size = type.size) (place : Place) :
    value.readAs place type = .ok value.bytes := by
  rw [readAs, demandType, demand_of same]
  rfl

theorem Value.readAs_of_not {value : Value} {type : ElementType}
    (different : ¬ (value.tag = type.tag ∧ value.bytes.size = type.size)) (place : Place) :
    value.readAs place type =
      .error (.misuse (.typeMismatch place value.tag value.bytes.size type)) := by
  rw [readAs, demandType, demand_of_not different]
  rfl

/-- A value can be read as what it was stored as. -/
theorem Datum.readAs_value (datum : Datum) (place : Place) :
    datum.payload.value.readAs place datum.type = .ok datum.bytes :=
  Value.readAs_of (And.intro rfl datum.size_bytes) place

/-- A place that is aligned for a payload suits its value. -/
theorem Payload.Fits.suits {known : ElementType → Prop} {payload : Payload}
    (fits : payload.Fits known) {offset : Nat} (aligned : payload.align ∣ offset * wordSize) :
    payload.value.Suits known offset :=
  fun type isKnown sameTag sameSize =>
    Nat.dvd_trans (fits.covers type isKnown sameTag sameSize) aligned

theorem isLarge_iff {size : Nat} : isLarge size = true ↔ 4 < size :=
  decide_eq_true_iff

theorem not_isLarge_iff {size : Nat} : isLarge size = false ↔ size ≤ 4 :=
  decide_eq_false_iff_not.trans Nat.not_lt

theorem le_wordsFor (size : Nat) : size ≤ wordsFor size * wordSize := by
  unfold wordsFor wordSize
  omega

/-! ### Allocations -/

theorem isAligned_eq {offset align : Nat} (positive : 0 < align) :
    isAligned offset align = .ok (decide (align ∣ offset * wordSize)) := by
  rw [isAligned, require_of positive, Checked.bind_ok]
  congr 1
  rw [Bool.eq_iff_iff, decide_eq_true_iff, beq_iff_eq]
  exact Nat.dvd_iff_mod_eq_zero.symm

/-- The words between two places that suit an alignment. -/
theorem IsAlign.units {align : Nat} (supported : IsAlign align) :
    ∃ units, max (align / wordSize) 1 = units ∧ 0 < units ∧ units ≤ 4 ∧
      align ∣ units * wordSize := by
  rcases isAlign_iff.mp supported with rfl | rfl | rfl | rfl | rfl
  all_goals exact ⟨_, rfl, by decide, by decide, by decide⟩

/-- An allocation that fits into the sizes lies behind the words in use and is aligned. -/
theorem planAllocation_of {allocated size align : Nat} (supported : IsAlign align)
    (fits : allocated + 3 + wordsFor size < sizeLimit) :
    ∃ offset, planAllocation allocated size align = some ⟨offset, offset + wordsFor size⟩ ∧
      allocated ≤ offset ∧ offset ≤ allocated + 3 ∧ align ∣ offset * wordSize := by
  obtain ⟨units, isUnits, positive, small, divides⟩ := supported.units
  have least : allocated ≤ Placement.raise allocated units := Placement.le_raise positive
  have most : Placement.raise allocated units ≤ allocated + (units - 1) := Placement.raise_le
  have raised : alignUp? allocated units = some (Placement.raise allocated units) :=
    Placement.alignUp?_eq_some.mpr ⟨by omega, rfl⟩
  have stopped : size? (Placement.raise allocated units + wordsFor size) =
      some (Placement.raise allocated units + wordsFor size) :=
    size?_eq_some_iff.mpr ⟨by omega, rfl⟩
  refine ⟨Placement.raise allocated units, ?_, least, by omega, ?_⟩
  · rw [planAllocation, isUnits, raised]
    simp only [Option.bind_eq_bind, Option.bind_some, stopped]
    rfl
  · exact Nat.dvd_trans divides (Nat.mul_dvd_mul_right Placement.dvd_raise _)

/-- Whatever is planned for a value is near the words in use and aligned. -/
theorem near_of_planAllocation {allocated size align : Nat} {allocation : Allocation}
    (supported : IsAlign align) (planned : planAllocation allocated size align = some allocation) :
    allocation.stop = allocation.offset + wordsFor size ∧ allocation.offset ≤ allocated + 3 ∧
      align ∣ allocation.offset * wordSize := by
  obtain ⟨units, isUnits, positive, small, divides⟩ := supported.units
  obtain ⟨offset, raised, planned⟩ := Option.bind_eq_some_iff.mp planned
  obtain ⟨stop, stopped, planned⟩ := Option.bind_eq_some_iff.mp planned
  obtain ⟨-, rfl⟩ := size?_eq_some_iff.mp stopped
  obtain ⟨-, rfl⟩ := Placement.alignUp?_eq_some.mp raised
  obtain rfl := Option.some.inj planned
  have most : Placement.raise allocated units ≤ allocated + (units - 1) := Placement.raise_le
  have near : Placement.raise allocated units ≤ allocated + 3 := by omega
  rw [isUnits]
  exact ⟨rfl, near, Nat.dvd_trans divides (Nat.mul_dvd_mul_right Placement.dvd_raise _)⟩

/-- Where a value behind the first `allocated` words ends. A small value takes no words. -/
def stopBehind (allocated size align : Nat) : Nat :=
  if isLarge size then Placement.raise allocated (max (align / wordSize) 1) + wordsFor size
  else allocated

theorem stop_of_planAllocation {allocated size align : Nat} {allocation : Allocation}
    (planned : planAllocation allocated size align = some allocation) (large : isLarge size = true) :
    allocation.stop = stopBehind allocated size align := by
  obtain ⟨offset, raised, planned⟩ := Option.bind_eq_some_iff.mp planned
  obtain ⟨stop, stopped, planned⟩ := Option.bind_eq_some_iff.mp planned
  obtain ⟨-, rfl⟩ := size?_eq_some_iff.mp stopped
  obtain ⟨-, rfl⟩ := Placement.alignUp?_eq_some.mp raised
  rw [stopBehind, if_pos large, ← Option.some.inj planned]

theorem le_stopBehind (allocated size align : Nat) : allocated ≤ stopBehind allocated size align := by
  have above : allocated ≤ Placement.raise allocated (max (align / wordSize) 1) :=
    Placement.le_raise (Nat.lt_of_lt_of_le Nat.one_pos (Nat.le_max_right _ _))
  unfold stopBehind
  split <;> omega

/-! ### Words -/

theorem take_littleEndian {width size : Nat} (bound : size ≤ width) (value : Nat) :
    (Bytes.littleEndian width value).take size = Bytes.littleEndian size value := by
  induction width generalizing size value with
  | zero =>
    obtain rfl : size = 0 := by omega
    rfl
  | succ width inductionHypothesis =>
    cases size with
    | zero => rfl
    | succ size =>
      rw [Bytes.littleEndian, List.take_succ_cons, inductionHypothesis (by omega),
        Bytes.littleEndian]

/-- A word spelled by bytes of which the first ones are a content starts with the content. -/
theorem take_word {content spelled : List UInt8} (front : content <+: spelled)
    (short : spelled.length ≤ 4) :
    (Bytes.littleEndian wordSize (UInt32.ofNat (Bytes.toNat spelled)).toNat).take content.length =
      content := by
  have bound := Bytes.toNat_lt spelled
  have power : 256 ^ spelled.length ≤ 256 ^ 4 := Nat.pow_le_pow_right (by decide) short
  have word : (UInt32.ofNat (Bytes.toNat spelled)).toNat = Bytes.toNat spelled := by
    rw [UInt32.toNat_ofNat', Nat.mod_eq_of_lt (by omega)]
  have lengths := front.length_le
  have whole : (Bytes.littleEndian wordSize (Bytes.toNat spelled)).take spelled.length = spelled := by
    rw [take_littleEndian (show spelled.length ≤ wordSize from short), Bytes.littleEndian_toNat]
  rw [word, ← Nat.min_eq_left lengths, ← List.take_take, whole]
  exact (List.prefix_iff_eq_take.mp front).symm

/-- Setting what is there already changes nothing. -/
theorem setIfInBounds_of_there {α : Type} {array : Array α} {position : Nat} {member : α}
    (there : array[position]? = some member) : array.setIfInBounds position member = array := by
  have inside := (Array.getElem?_eq_some_iff.mp there).1
  refine Array.ext_getElem? fun other => ?_
  by_cases same : other = position
  · rw [same, there]
    exact Array.getElem?_setIfInBounds_self_of_lt inside
  · exact Array.getElem?_setIfInBounds_ne fun equal => same equal.symm

namespace ValueCells

variable {cells changed : ValueCells} {slot : Nat} {content : Bytes} {word : UInt32}

/-! ### Single values -/

/-- The words of the arena that a large value takes. -/
def range (word : UInt32) (size : Nat) : Segment :=
  ⟨word.toNat, wordsFor size⟩

theorem bytes_small (there : cells.words[slot]? = some word) {size : Nat} (small : size ≤ 4) :
    cells.bytes slot size = .ok ((Bytes.littleEndian wordSize word.toNat).take size).toArray := by
  simp only [bytes, fetch_of there, Checked.bind_ok, not_isLarge_iff.mpr small]
  rfl

theorem bytes_large (there : cells.words[slot]? = some word) {size : Nat} (large : 4 < size)
    (inside : word.toNat * wordSize + size ≤ cells.arena.size) :
    cells.bytes slot size =
      .ok (cells.arena.extract (word.toNat * wordSize) (word.toNat * wordSize + size)) := by
  simp only [bytes, fetch_of there, Checked.bind_ok, isLarge_iff.mpr large, if_true, Bytes.slice?,
    if_pos inside]
  rfl

/-- The bytes of a value depend on its word, and on its range if it is large. -/
theorem bytes_congr {size : Nat} (words : changed.words[slot]? = cells.words[slot]?)
    (arena : ∀ word, cells.words[slot]? = some word → 4 < size → ∀ position, position < size →
      changed.arena[word.toNat * wordSize + position]? =
        cells.arena[word.toNat * wordSize + position]?) {result : Bytes}
    (read : cells.bytes slot size = .ok result) : changed.bytes slot size = .ok result := by
  cases there : cells.words[slot]? with
  | none => simp [bytes, fetch, there, orFail] at read
  | some word =>
    have there' : changed.words[slot]? = some word := words.trans there
    by_cases large : 4 < size
    · have inside : word.toNat * wordSize + size ≤ cells.arena.size := by
        by_cases inside : word.toNat * wordSize + size ≤ cells.arena.size
        · exact inside
        · simp [bytes, fetch_of there, isLarge_iff.mpr large, Bytes.slice?, if_neg inside,
            orFail] at read
      have same := arena word there large
      have inside' : word.toNat * wordSize + size ≤ changed.arena.size := by
        have last := same (size - 1) (by omega)
        rw [Array.getElem?_eq_getElem (show _ < cells.arena.size by omega)] at last
        have bound := (Array.getElem?_eq_some_iff.mp last).1
        omega
      rw [bytes_large there large inside] at read
      rw [bytes_large there' large inside', ← read]
      congr 1
      refine Array.ext_getElem? fun position => ?_
      rw [Bytes.getElem?_extract_width, Bytes.getElem?_extract_width]
      by_cases below : position < size
      · rw [if_pos below, if_pos below, same position below]
      · rw [if_neg below, if_neg below]
    · rw [bytes_small there (Nat.le_of_not_lt large)] at read
      rw [bytes_small there' (Nat.le_of_not_lt large), read]

/-! ### Writing -/

theorem run_writeInline (small : content.size ≤ 4) (below : slot < cells.words.size) :
    writeInline slot content cells = .ok () { cells with
      words := cells.words.setIfInBounds slot
        (UInt32.ofNat (Bytes.toNat content.toList)) } := by
  simp only [writeInline, putWord, Edit.run_bind, demand_of (not_isLarge_iff.mpr small),
    Edit.run_lift_ok, Edit.run_get, require_of below, Edit.run_set]

theorem run_writeLarge {offset : Nat} (large : 4 < content.size) (below : slot < cells.words.size)
    (inside : offset * wordSize + content.size ≤ cells.arena.size) :
    writeLarge slot offset content cells = .ok () {
      words := cells.words.setIfInBounds slot (UInt32.ofNat offset)
      arena := cells.arena.patch (offset * wordSize) content.toList } := by
  simp only [writeLarge, putWord, putArena, Edit.run_bind, demand_of (isLarge_iff.mpr large),
    Edit.run_lift_ok, Edit.run_get, require_of below, Edit.run_set, require_of inside]

theorem run_overwrite_small (small : content.size ≤ 4) (there : cells.words[slot]? = some word) :
    overwrite slot content cells = .ok () { cells with
      words := cells.words.setIfInBounds slot (UInt32.ofNat (Bytes.toNat
        (content.toList ++ (Bytes.littleEndian wordSize word.toNat).drop content.size))) } := by
  have below := (Array.getElem?_eq_some_iff.mp there).1
  simp only [overwrite, putWord, Edit.run_bind, Edit.run_get, fetch_of there, Edit.run_lift_ok,
    not_isLarge_iff.mpr small, Bool.false_eq_true, if_false, require_of below, Edit.run_set]

theorem run_overwrite_large (large : 4 < content.size) (there : cells.words[slot]? = some word)
    (inside : word.toNat * wordSize + content.size ≤ cells.arena.size) :
    overwrite slot content cells = .ok () { cells with
      arena := cells.arena.patch (word.toNat * wordSize) content.toList } := by
  simp only [overwrite, putArena, Edit.run_bind, Edit.run_get, fetch_of there, Edit.run_lift_ok,
    isLarge_iff.mpr large, if_true, require_of inside, Edit.run_set]

theorem words_of_putWord (run : putWord slot word cells = .ok () changed) :
    changed.words = cells.words.setIfInBounds slot word := by
  obtain ⟨_, _, got, run⟩ := Edit.bind_eq_ok.mp run
  obtain ⟨rfl, rfl⟩ := EStateM.Result.ok.inj got
  obtain ⟨-, -, run⟩ := Edit.lift_bind_eq_ok.mp run
  obtain rfl := (EStateM.Result.ok.inj run).2
  rfl

theorem words_of_putArena {start : Nat} (run : putArena start content cells = .ok () changed) :
    changed.words = cells.words := by
  obtain ⟨_, _, got, run⟩ := Edit.bind_eq_ok.mp run
  obtain ⟨rfl, rfl⟩ := EStateM.Result.ok.inj got
  obtain ⟨-, -, run⟩ := Edit.lift_bind_eq_ok.mp run
  obtain rfl := (EStateM.Result.ok.inj run).2
  rfl

theorem words_of_writeLarge {offset : Nat}
    (run : writeLarge slot offset content cells = .ok () changed) :
    changed.words = cells.words.setIfInBounds slot (UInt32.ofNat offset) := by
  obtain ⟨-, -, run⟩ := Edit.lift_bind_eq_ok.mp run
  obtain ⟨_, between, runWord, runArena⟩ := Edit.bind_eq_ok.mp run
  rw [words_of_putArena runArena, words_of_putWord runWord]

/-- A small value is written to its own word only. -/
theorem words_of_writeInline (run : writeInline slot content cells = .ok () changed) {other : Nat}
    (different : other ≠ slot) : changed.words[other]? = cells.words[other]? := by
  obtain ⟨-, -, run⟩ := Edit.lift_bind_eq_ok.mp run
  rw [words_of_putWord run]
  exact Array.getElem?_setIfInBounds_ne fun same => different same.symm

/-- A value is written over another one in the same place. -/
theorem words_of_overwrite (run : overwrite slot content cells = .ok () changed) {other : Nat}
    (different : other ≠ slot) : changed.words[other]? = cells.words[other]? := by
  obtain ⟨_, _, got, run⟩ := Edit.bind_eq_ok.mp run
  obtain ⟨rfl, rfl⟩ := EStateM.Result.ok.inj got
  obtain ⟨word, -, run⟩ := Edit.lift_bind_eq_ok.mp run
  split at run
  · rw [words_of_putArena run]
  · rw [words_of_putWord run]
    exact Array.getElem?_setIfInBounds_ne fun same => different same.symm

end ValueCells

end PackedStore
