/-
This file says when records survive being written to a block and read back. What
is read at a place depends on the bytes at that place only, so two blocks that
agree there hold the same records. A record fits its codec when its bytes have
the codec's width and spell the record; whatever is read from a block fits.
-/

import PackedStore.Bytes.Codec
import PackedStore.Layout.Placement
import PackedStore.Slots.FreeSlots

namespace PackedStore

/-! ### Bytes at a place -/

namespace Bytes

/-- A content stands in the block from an offset on. -/
def Stands (bytes : Bytes) (offset : Nat) (content : List UInt8) : Prop :=
  ∀ position, position < content.length → bytes[offset + position]? = content[position]?

theorem Stands.le_size {bytes : Bytes} {offset : Nat} {content : List UInt8}
    (stands : Stands bytes offset content) (nonempty : content ≠ []) :
    offset + content.length ≤ bytes.size := by
  have positive := List.length_pos_iff.mpr nonempty
  have last := stands (content.length - 1) (by omega)
  rw [List.getElem?_eq_getElem (by omega)] at last
  have bound := (Array.getElem?_eq_some_iff.mp last).1
  omega

theorem stands_patch {bytes : Bytes} {offset : Nat} {content : List UInt8}
    (inside : offset + content.length ≤ bytes.size) :
    Stands (bytes.patch offset content) offset content := by
  intro position below
  rw [getElem?_patch, if_pos (by omega), Nat.add_sub_cancel_left]

theorem getElem?_extract_width (bytes : Bytes) (offset width position : Nat) :
    (bytes.extract offset (offset + width))[position]? =
      if position < width then bytes[offset + position]? else none := by
  rw [Array.getElem?_extract]
  by_cases below : position < width
  · by_cases inside : offset + position < bytes.size
    · rw [if_pos below, if_pos (by omega)]
    · rw [if_pos below, if_neg (by omega), Array.getElem?_eq_none (by omega)]
  · rw [if_neg below, if_neg (by omega)]

theorem Stands.extract_eq {bytes content : Bytes} {offset : Nat}
    (stands : Stands bytes offset content.toList) :
    bytes.extract offset (offset + content.size) = content := by
  refine Array.ext_getElem? fun position => ?_
  rw [getElem?_extract_width]
  by_cases below : position < content.size
  · rw [if_pos below, stands position (by rw [Array.length_toList]; exact below),
      Array.getElem?_toList]
  · rw [if_neg below, Array.getElem?_eq_none (Nat.le_of_not_lt below)]

/-- Writing what stands there already changes nothing. -/
theorem patch_of_stands {bytes : Bytes} {offset : Nat} {content : List UInt8}
    (stands : Stands bytes offset content) : bytes.patch offset content = bytes := by
  refine Array.ext_getElem? fun position => ?_
  rw [getElem?_patch]
  split
  · next inside =>
    rw [← stands _ (by omega), Nat.add_sub_cancel' inside.1]
  · rfl

/-- A slice is what stands in its range. -/
theorem slice?_eq_some {bytes content : Bytes} {offset length : Nat} :
    bytes.slice? offset length = some content ↔
      offset + length ≤ bytes.size ∧ bytes.extract offset (offset + length) = content := by
  by_cases inside : offset + length ≤ bytes.size <;> simp [slice?, inside]

theorem slice?_patch {bytes content : Bytes} {offset : Nat}
    (inside : offset + content.size ≤ bytes.size) :
    (bytes.patch offset content.toList).slice? offset content.size = some content := by
  have stands : Stands (bytes.patch offset content.toList) offset content.toList :=
    stands_patch (by rw [Array.length_toList]; exact inside)
  exact slice?_eq_some.mpr ⟨by rw [size_patch]; exact inside, stands.extract_eq⟩

/-- Blocks with the same bytes in a range have the same slice. -/
theorem slice?_of_same {bytes other content : Bytes} {offset length : Nat}
    (sliced : bytes.slice? offset length = some content) (room : offset + length ≤ other.size)
    (same : ∀ position, offset ≤ position → position < offset + length →
      other[position]? = bytes[position]?) : other.slice? offset length = some content := by
  obtain ⟨-, rfl⟩ := slice?_eq_some.mp sliced
  refine slice?_eq_some.mpr ⟨room, Array.ext_getElem? fun position => ?_⟩
  rw [getElem?_extract_width, getElem?_extract_width]
  by_cases below : position < length
  · rw [if_pos below, if_pos below, same _ (by omega) (by omega)]
  · rw [if_neg below, if_neg below]

theorem getElem?_patch_outside {bytes : Bytes} {offset position : Nat} {content : List UInt8}
    (outside : position < offset ∨ offset + content.length ≤ position) :
    (bytes.patch offset content)[position]? = bytes[position]? := by
  rw [getElem?_patch, if_neg (by omega)]

end Bytes

namespace Codec

variable {α : Type} {codec : Codec α}

/-! ### Records that fit -/

/-- The bytes of a record have the width and spell the record. -/
structure Fits (codec : Codec α) (record : α) : Prop where
  length_encode : (codec.encode record).length = codec.width
  decode_encode : codec.decode (codec.encode record) = record

/-- Every string of the width is what its record is written as. -/
def Exact (codec : Codec α) : Prop :=
  ∀ content, content.length = codec.width → codec.encode (codec.decode content) = content

theorem Exact.fits_decode (exact : Exact codec) {content : List UInt8}
    (length : content.length = codec.width) : Fits codec (codec.decode content) :=
  ⟨by rw [exact content length, length], by rw [exact content length]⟩

theorem exact_nat (width : Nat) : Exact (nat width) := by
  rintro content rfl
  exact Bytes.littleEndian_toNat content

theorem fits_nat {width value : Nat} (bound : value < 256 ^ width) : Fits (nat width) value :=
  ⟨Bytes.length_littleEndian width value,
    (Bytes.toNat_littleEndian width value).trans (Nat.mod_eq_of_lt bound)⟩

theorem Fits.nat_lt {width value : Nat} (fits : Fits (nat width) value) : value < 256 ^ width := by
  have spelled : Bytes.toNat (Bytes.littleEndian width value) = value := fits.decode_encode
  rw [← spelled, Bytes.toNat_littleEndian]
  exact Nat.mod_lt _ (Nat.pow_pos (by decide))

theorem word32_bound {content : List UInt8} (length : content.length = 4) :
    Bytes.toNat content < 2 ^ 32 := by
  have bound := Bytes.toNat_lt content
  rw [length] at bound
  exact bound

theorem fits_word32 (word : UInt32) : Fits word32 word := by
  refine ⟨Bytes.length_littleEndian 4 word.toNat, ?_⟩
  simp only [word32, Bytes.toNat_littleEndian]
  rw [Nat.mod_eq_of_lt (by simpa using word.toNat_lt), UInt32.ofNat_toNat]

theorem exact_word32 : Exact word32 := by
  intro content length
  have spelled := Bytes.littleEndian_toNat content
  rw [show content.length = 4 from length] at spelled
  have small := word32_bound length
  show Bytes.littleEndian 4 (UInt32.ofNat (Bytes.toNat content)).toNat = content
  rw [UInt32.toNat_ofNat', Nat.mod_eq_of_lt small, spelled]

theorem exact_typeTag : Exact TypeTag.codec :=
  exact_word32

theorem exact_cell (width : Nat) : Exact (cell width) :=
  fun _ _ => rfl

theorem fits_cell_iff {width : Nat} {content : Bytes} :
    Fits (cell width) content ↔ content.size = width := by
  constructor
  · intro fits
    simpa [cell] using fits.length_encode
  · intro size
    exact ⟨by simpa [cell] using size, by simp [cell]⟩

theorem fits_typeTag (tag : TypeTag) : Fits TypeTag.codec tag :=
  ⟨(fits_word32 tag.word).length_encode, congrArg TypeTag.mk (fits_word32 tag.word).decode_encode⟩

theorem exact_link : Exact Link.codec := by
  intro content length
  have spelled := Bytes.littleEndian_toNat content
  rw [show content.length = 4 from length] at spelled
  show Bytes.littleEndian 4 (Link.ofWord (Bytes.toNat content)).toWord = content
  rw [Link.toWord_ofWord (word32_bound length), spelled]

/-- A link fits when it names what its word stands for. -/
theorem fits_link_iff {link : Link} : Fits Link.codec link ↔ Link.ofWord link.toWord = link := by
  have spelled : Bytes.toNat (Bytes.littleEndian 4 link.toWord) = link.toWord :=
    (Bytes.toNat_littleEndian 4 link.toWord).trans (Nat.mod_eq_of_lt link.toWord_lt)
  constructor
  · intro fits
    have same : Link.ofWord (Bytes.toNat (Bytes.littleEndian 4 link.toWord)) = link :=
      fits.decode_encode
    rwa [spelled] at same
  · intro same
    refine ⟨Bytes.length_littleEndian 4 _, ?_⟩
    show Link.ofWord (Bytes.toNat (Bytes.littleEndian 4 link.toWord)) = link
    rw [spelled, same]

theorem fits_link {link : Link} (below : ∀ slot, link = some slot → slot < Link.slotLimit) :
    Fits Link.codec link := by
  refine fits_link_iff.mpr ?_
  cases link with
  | none => exact if_pos rfl
  | some slot => exact Link.ofSlot_of_lt (below slot rfl)

/-! ### Arrays of records -/

theorem readAt_congr {bytes other : Bytes} {offset place : Nat}
    (same : ∀ position, position < codec.width →
      bytes[offset + position]? = other[place + position]?) :
    codec.readAt bytes offset = codec.readAt other place := by
  have extracts : bytes.extract offset (offset + codec.width) =
      other.extract place (place + codec.width) := by
    apply Array.ext_getElem?
    intro position
    rw [Bytes.getElem?_extract_width, Bytes.getElem?_extract_width]
    by_cases below : position < codec.width
    · rw [if_pos below, if_pos below, same position below]
    · rw [if_neg below, if_neg below]
  rw [readAt, readAt, extracts]

theorem getElem?_readArray (bytes : Bytes) (offset count position : Nat) :
    (codec.readArray bytes offset count)[position]? =
      if position < arraySize codec.width count then
        some (codec.readAt bytes (offset + position * codec.width))
      else none := by
  simp [readArray, Array.getElem?_ofFn]

theorem mul_width_le {position count width : Nat} (below : position < count) :
    position * width + width ≤ count * width := by
  rw [← Nat.succ_mul]
  exact Nat.mul_le_mul_right width below

/-- The records at places with the same bytes are the same. -/
theorem readArray_congr {bytes other : Bytes} {offset place count : Nat}
    (same : ∀ position, position < count * codec.width →
      bytes[offset + position]? = other[place + position]?) {position : Nat}
    (below : position < count) :
    codec.readAt bytes (offset + position * codec.width) =
      codec.readAt other (place + position * codec.width) := by
  have bound := @mul_width_le _ _ codec.width below
  refine readAt_congr fun inner belowWidth => ?_
  rw [Nat.add_assoc, Nat.add_assoc]
  exact same _ (by omega)

/-- An array whose bytes have been copied to the front of a larger one is in front of it. -/
theorem getElem?_readArray_front {bytes other : Bytes} {offset place count larger : Nat}
    (grows : count ≤ larger) (same : ∀ position, position < count * codec.width →
      other[place + position]? = bytes[offset + position]?) {position : Nat}
    (below : position < count) :
    (codec.readArray other place larger)[position]? =
      (codec.readArray bytes offset count)[position]? := by
  rw [getElem?_readArray, getElem?_readArray, readArray_congr same below]
  simp only [lt_arraySize, and_iff_left below, and_iff_left (Nat.lt_of_lt_of_le below grows)]

/-- Arrays of the same bytes are the same. -/
theorem readArray_of_same {bytes other : Bytes} {offset place count : Nat}
    (same : ∀ position, position < count * codec.width →
      other[place + position]? = bytes[offset + position]?) :
    codec.readArray other place count = codec.readArray bytes offset count := by
  refine Array.ext_getElem? fun position => ?_
  by_cases below : position < count
  · exact getElem?_readArray_front (Nat.le_refl _) same below
  · have outside : ¬position < arraySize codec.width count := fun inArray =>
      below (lt_arraySize.mp inArray).2
    rw [getElem?_readArray, getElem?_readArray, if_neg outside, if_neg outside]

theorem fits_readAt (exact : Exact codec) {bytes : Bytes} {offset : Nat}
    (inside : offset + codec.width ≤ bytes.size) : Fits codec (codec.readAt bytes offset) :=
  exact.fits_decode (by simp; omega)

theorem fits_readArray (exact : Exact codec) {bytes : Bytes} {offset count : Nat}
    (inside : offset + count * codec.width ≤ bytes.size) :
    ∀ record ∈ codec.readArray bytes offset count, Fits codec record := by
  intro record member
  obtain ⟨position, there⟩ := Array.getElem?_of_mem member
  rw [getElem?_readArray] at there
  split at there
  · next inArray =>
    have bound := @mul_width_le _ _ codec.width (lt_arraySize.mp inArray).2
    obtain rfl := Option.some.inj there
    exact fits_readAt exact (by omega)
  · exact absurd there (by simp)

theorem length_encodeArray {records : Array α} (fits : ∀ record ∈ records, Fits codec record) :
    (codec.encodeArray records).length = records.size * codec.width := by
  have lengths (list : List α) (each : ∀ record ∈ list, Fits codec record) :
      (list.flatMap codec.encode).length = list.length * codec.width := by
    induction list with
    | nil => simp
    | cons record rest inductionHypothesis =>
      rw [List.flatMap_cons, List.length_append,
        (each record List.mem_cons_self).length_encode,
        inductionHypothesis fun other member => each other (List.mem_cons_of_mem _ member),
        List.length_cons, Nat.succ_mul, Nat.add_comm]
  have total := lengths records.toList fun record member => fits record (by simpa using member)
  simpa [encodeArray] using total

/-- The bytes of a record among the bytes of all records. -/
theorem getElem?_encodeArray {records : Array α} (fits : ∀ record ∈ records, Fits codec record)
    {position inner : Nat} {record : α} (there : records[position]? = some record)
    (below : inner < codec.width) :
    (codec.encodeArray records)[position * codec.width + inner]? =
      (codec.encode record)[inner]? := by
  have places (list : List α) (each : ∀ record ∈ list, Fits codec record) (position : Nat)
      (there : list[position]? = some record) :
      (list.flatMap codec.encode)[position * codec.width + inner]? =
        (codec.encode record)[inner]? := by
    induction list generalizing position with
    | nil => simp at there
    | cons head rest inductionHypothesis =>
      have length := (each head List.mem_cons_self).length_encode
      rw [List.flatMap_cons]
      cases position with
      | zero =>
        obtain rfl : head = record := by simpa using there
        rw [List.getElem?_append_left (by omega)]
        simp
      | succ position =>
        have split : (position + 1) * codec.width + inner =
            codec.width + (position * codec.width + inner) := by
          rw [Nat.succ_mul]
          omega
        rw [split, List.getElem?_append_right (by omega), length, Nat.add_sub_cancel_left]
        exact inductionHypothesis (fun other member => each other (List.mem_cons_of_mem _ member))
          position (by simpa using there)
  exact places records.toList (fun record member => fits record (by simpa using member)) position
    (by simpa using there)

/-- What is read at a place stands there. -/
theorem stands_readArray (exact : Exact codec) {bytes : Bytes} {offset count : Nat}
    (inside : offset + count * codec.width ≤ bytes.size) :
    bytes.Stands offset (codec.encodeArray (codec.readArray bytes offset count)) := by
  have fits := fits_readArray exact inside
  intro place below
  rw [length_encodeArray fits, size_readArray, arraySize_mul] at below
  have positive : 0 < codec.width := Nat.pos_of_ne_zero fun none => by
    rw [none, Nat.mul_zero] at below
    exact absurd below (Nat.not_lt_zero _)
  have split := Nat.div_add_mod' place codec.width
  have inWidth := Nat.mod_lt place positive
  have inArray : place / codec.width < count := Nat.div_lt_of_lt_mul (Nat.mul_comm .. ▸ below)
  have bound := @mul_width_le _ _ codec.width inArray
  have there := @getElem?_readArray _ codec bytes offset count (place / codec.width)
  rw [if_pos (lt_arraySize.mpr ⟨positive, inArray⟩)] at there
  rw [← split, getElem?_encodeArray fits there inWidth, readAt,
    exact _ (by rw [Array.length_toList, Array.size_extract]; omega), Array.getElem?_toList,
    Bytes.getElem?_extract_width, if_pos inWidth, Nat.add_assoc]

/-- Records that fit are read back where their bytes stand. -/
theorem readArray_of_stands {bytes : Bytes} {offset count : Nat} {records : Array α}
    (size : records.size = arraySize codec.width count)
    (fits : ∀ record ∈ records, Fits codec record)
    (stands : bytes.Stands offset (codec.encodeArray records)) :
    codec.readArray bytes offset count = records := by
  apply Array.ext_getElem?
  intro position
  rw [getElem?_readArray, ← size]
  by_cases below : position < records.size
  · have there := Array.getElem?_eq_getElem below
    have fitsHere := fits records[position] (Array.getElem_mem below)
    have bound := @mul_width_le _ _ codec.width below
    have extract : (bytes.extract (offset + position * codec.width)
        (offset + position * codec.width + codec.width)).toList =
          codec.encode records[position] := by
      apply List.ext_getElem?
      intro inner
      rw [Array.getElem?_toList, Bytes.getElem?_extract_width]
      by_cases belowWidth : inner < codec.width
      · rw [if_pos belowWidth, Nat.add_assoc,
          stands _ (by rw [length_encodeArray fits]; omega),
          getElem?_encodeArray fits there belowWidth]
      · rw [if_neg belowWidth, List.getElem?_eq_none (by rw [fitsHere.length_encode]; omega)]
    rw [if_pos below, there, readAt, extract, fitsHere.decode_encode]
  · rw [if_neg below, Array.getElem?_eq_none (by omega)]

end Codec

end PackedStore
