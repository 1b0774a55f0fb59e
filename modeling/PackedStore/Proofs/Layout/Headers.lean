/-
This file says that headers are read back as they were written. The words of a
header are the words of the container's own record, as long as each of them fits
into four bytes; a link in a header fits when it is none or names a slot.
-/

import PackedStore.Layout.Placement
import PackedStore.Proofs.Bytes.Records

namespace PackedStore

variable {bytes other : Bytes} {words : HeaderWords}

theorem Codec.fits_ofWord {word : Nat} (bound : word < 2 ^ 32) :
    Codec.Fits Link.codec (Link.ofWord word) :=
  Codec.fits_link_iff.mpr (congrArg Link.ofWord (Link.toWord_ofWord bound))

namespace HeaderWords

theorem load_eq_ok :
    load bytes = .ok words ↔
      headerLength ≤ bytes.size ∧ words = ((Codec.nat 4).readArray bytes 0 headerWords).toList := by
  simp only [load, Checked.bind_eq_ok, require_eq_ok, pure, Except.pure]
  constructor
  · rintro ⟨-, size, run⟩
    exact ⟨size, (Except.ok.inj run).symm⟩
  · rintro ⟨size, rfl⟩
    exact ⟨(), size, rfl⟩

theorem lt_of_load (loaded : load bytes = .ok words) : ∀ word ∈ words, word < 2 ^ 32 := by
  obtain ⟨size, rfl⟩ := load_eq_ok.mp loaded
  intro word member
  have inside : 0 + headerWords * (Codec.nat 4).width ≤ bytes.size := by
    rw [Nat.zero_add]
    exact size
  have fits := Codec.fits_readArray (Codec.exact_nat 4) inside word
    (Array.mem_toList_iff.mp member)
  rw [← fits.decode_encode]
  exact Codec.word32_bound fits.length_encode

/-- Only the bytes of the header matter. -/
theorem load_congr (size : headerLength ≤ other.size) (loaded : load bytes = .ok words)
    (same : ∀ position, position < headerLength → other[position]? = bytes[position]?) :
    load other = .ok words := by
  obtain ⟨-, rfl⟩ := load_eq_ok.mp loaded
  refine load_eq_ok.mpr ⟨size, ?_⟩
  refine congrArg Array.toList (Codec.readArray_of_same fun position below => ?_).symm
  rw [Nat.zero_add]
  exact same position below

theorem length_encoded (length : words.length = headerWords) :
    (words.flatMap (Bytes.littleEndian 4)).length = headerLength := by
  have lengths (list : List Nat) : (list.flatMap (Bytes.littleEndian 4)).length = 4 * list.length := by
    induction list with
    | nil => rfl
    | cons word rest inductionHypothesis =>
      simp only [List.flatMap_cons, List.length_append, Bytes.length_littleEndian,
        inductionHypothesis, List.length_cons]
      omega
  rw [lengths, length]
  rfl

/-- Words that fit into four bytes are read back where they were written. -/
theorem load_of_stands (length : words.length = headerWords) (bound : ∀ word ∈ words, word < 2 ^ 32)
    (stands : bytes.Stands 0 (words.flatMap (Bytes.littleEndian 4))) : load bytes = .ok words := by
  have fits : ∀ word ∈ words.toArray, Codec.Fits (Codec.nat 4) word := fun word member =>
    Codec.fits_nat (bound word (List.mem_toArray.mp member))
  have standsArray : bytes.Stands 0 ((Codec.nat 4).encodeArray words.toArray) := stands
  have encoded : ((Codec.nat 4).encodeArray words.toArray).length = headerLength :=
    length_encoded length
  have nonempty : (Codec.nat 4).encodeArray words.toArray ≠ [] := fun empty => by
    rw [empty] at encoded
    exact absurd encoded (by decide)
  have size := standsArray.le_size nonempty
  have members : words.toArray.size = headerWords := length
  have read : (Codec.nat 4).readArray bytes 0 headerWords = words.toArray :=
    Codec.readArray_of_stands members fits standsArray
  exact load_eq_ok.mpr ⟨by omega, by rw [read]⟩

/-- Saving words puts them into the header. -/
theorem load_save (length : words.length = headerWords) (bound : ∀ word ∈ words, word < 2 ^ 32)
    (size : headerLength ≤ bytes.size) : load (words.save bytes) = .ok words := by
  refine load_of_stands length bound (Bytes.stands_patch ?_)
  rw [length_encoded length, Nat.zero_add]
  exact size

theorem getElem?_save (length : words.length = headerWords) {position : Nat}
    (behind : headerLength ≤ position) : (words.save bytes)[position]? = bytes[position]? := by
  apply Bytes.getElem?_patch_outside
  rw [length_encoded length, Nat.zero_add]
  exact Or.inr behind

@[simp] theorem size_save : (words.save bytes).size = bytes.size :=
  Bytes.size_patch _ _ _

end HeaderWords

end PackedStore
