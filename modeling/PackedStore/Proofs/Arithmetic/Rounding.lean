/-
This file says that rounding up is exact at every size, also at zero and next to the
bound of the sizes: the result is the least number of its kind, and there is none
exactly where that number is no size. A word of 64 bits comes to the same results
without ever holding a larger number: with the zeros in front of a word, with sums
that may wrap around, and with a mask.
-/

import Mathlib.Order.Basic
import Mathlib.Order.Bounds.Basic
import PackedStore.Proofs.Layout.Growth
import PackedStore.Proofs.Layout.Segments

namespace PackedStore

variable {value larger raised exponent align : Nat}

theorem size?_eq_none_iff : size? value = none ↔ sizeLimit ≤ value := by
  by_cases below : value < sizeLimit
  · rw [size?, if_pos below]
    exact ⟨fun missing => absurd missing (Option.some_ne_none value),
      fun above => absurd below (Nat.not_lt_of_le above)⟩
  · rw [size?, if_neg below]
    exact ⟨fun _ => Nat.le_of_not_lt below, fun _ => rfl⟩

/-! ### Powers of two -/

theorem isLeast_ceilLog2 (value : Nat) :
    IsLeast {exponent | max value 1 ≤ 2 ^ exponent} (ceilLog2 value) :=
  ⟨Nat.max_le.mpr ⟨le_two_pow_ceilLog2 value, Nat.two_pow_pos _⟩,
    fun _ large => ceilLog2_le_iff.mpr (Nat.le_trans (Nat.le_max_left _ _) large)⟩

/-- There is no power of two for a size only if the next one is the bound of the sizes itself. -/
theorem ceilPow2?_eq_none_iff (sized : value < sizeLimit) :
    ceilPow2? value = none ↔ ceilLog2 value = 64 := by
  have most : ceilLog2 value ≤ 64 := ceilLog2_le_iff.mpr (Nat.le_of_lt sized)
  rw [ceilPow2?, size?_eq_none_iff, sizeLimit, Nat.pow_le_pow_iff_right (by decide)]
  exact ⟨Nat.le_antisymm most, fun same => Nat.le_of_eq same.symm⟩

/-! ### Multiples of a power of two -/

theorem Placement.isLeast_raise (positive : 0 < align) (value : Nat) :
    IsLeast {multiple | align ∣ multiple ∧ value ≤ multiple} (raise value align) :=
  ⟨⟨dvd_raise, le_raise positive⟩, fun _ multiple => raise_le_of_dvd positive multiple.2 multiple.1⟩

/-- No multiple is skipped on the way to the bound of the sizes if the bound is one, so the sum that
rounding up starts with is within the sizes whenever its result is. -/
theorem Placement.padded_lt (positive : 0 < align) (divides : align ∣ sizeLimit)
    (fits : raise value align < sizeLimit) : value + (align - 1) < sizeLimit := by
  by_contra exceeds
  have remainder := Nat.mod_lt (value + (align - 1)) positive
  have near : sizeLimit < raise value align + align := by
    unfold raise
    omega
  exact Nat.not_le_of_lt fits (Nat.le_of_lt_add_of_dvd near divides dvd_raise)

theorem Placement.alignUp?_eq_size? (positive : 0 < align) (divides : align ∣ sizeLimit) :
    alignUp? value align = size? (raise value align) := by
  refine Option.ext fun offset => ?_
  rw [alignUp?_eq_some, size?_eq_some_iff]
  exact and_congr_left fun _ => ⟨Nat.lt_of_le_of_lt raise_le, padded_lt positive divides⟩

/-- A size that is rounded up stays a size if a larger one does, and is then no larger. -/
theorem alignUp?_mono (positive : 0 < align) (le : value ≤ larger)
    (rounded : alignUp? larger align = some raised) :
    ∃ lower, alignUp? value align = some lower ∧ lower ≤ raised := by
  obtain ⟨fits, rfl⟩ := Placement.alignUp?_eq_some.mp rounded
  exact ⟨_, Placement.alignUp?_eq_some.mpr ⟨by omega, rfl⟩, Placement.raise_mono positive le⟩

theorem Placement.raise_of_dvd (positive : 0 < align) (divides : align ∣ value) :
    raise value align = value :=
  Nat.le_antisymm (raise_le_of_dvd positive (Nat.le_refl _) divides) (le_raise positive)

/-- A multiple is its own next multiple. -/
theorem alignUp?_idem (positive : 0 < align) (divides : align ∣ sizeLimit)
    (rounded : alignUp? value align = some raised) : alignUp? raised align = some raised := by
  rw [Placement.alignUp?_eq_size? positive divides, size?_eq_some_iff] at rounded
  obtain ⟨sized, rfl⟩ := rounded
  rw [Placement.alignUp?_eq_size? positive divides,
    Placement.raise_of_dvd positive Placement.dvd_raise]
  exact size?_eq_some_iff.mpr ⟨sized, rfl⟩

/-! ### The same results in words -/

namespace Word

/-- The sum of two words, unless it wraps around. -/
def sum? (first second : BitVec 64) : Option (BitVec 64) :=
  if first.uaddOverflow second then none else some (first + second)

/-- The word below a word, and zero for zero. -/
def below (word : BitVec 64) : BitVec 64 :=
  (if word = 0 then 1 else word) - 1

/-- The number of bits of the word below, which is what the zeros in front of it leave. -/
def ceilLog2 (word : BitVec 64) : Nat :=
  64 - (below word).clz.toNat

/-- One more than the word with a one in each of these bits. -/
def ceilPow2? (word : BitVec 64) : Option (BitVec 64) :=
  sum? (BitVec.allOnes 64 >>> (below word).clz.toNat) 1

/-- The mask of an alignment is added, which reaches the next multiple, and its bits are cleared. -/
def alignUp? (word align : BitVec 64) : Option (BitVec 64) :=
  (sum? word (align - 1)).map fun raised => raised &&& ~~~(align - 1)

variable {word mask : BitVec 64}

theorem toNat_sum? (first second : BitVec 64) :
    (sum? first second).map BitVec.toNat = size? (first.toNat + second.toNat) := by
  by_cases wraps : first.uaddOverflow second
  · have large : sizeLimit ≤ first.toNat + second.toNat := of_decide_eq_true wraps
    rw [sum?, if_pos wraps, size?_eq_none_iff.mpr large]
    rfl
  · have fits : first.toNat + second.toNat < sizeLimit :=
      Nat.lt_of_not_le fun large => wraps (decide_eq_true large)
    rw [sum?, if_neg wraps, size?, if_pos fits, Option.map_some,
      BitVec.toNat_add_of_not_uaddOverflow wraps]

theorem toNat_below (word : BitVec 64) : (below word).toNat = word.toNat - 1 := by
  by_cases zero : word = 0
  · subst zero
    rfl
  · have positive : 1 ≤ word.toNat :=
      Nat.one_le_iff_ne_zero.mpr fun same => zero (BitVec.eq_of_toNat_eq same)
    have above : 1 ≤ word := BitVec.le_def.mpr positive
    rw [below, if_neg zero, BitVec.toNat_sub_of_le above]
    rfl

/-- The zeros in front of a word leave as many bits as its number has. -/
theorem bits_le_iff : 64 - word.clz.toNat ≤ exponent ↔ word.toNat < 2 ^ exponent := by
  constructor
  · intro few
    exact Nat.lt_of_lt_of_le BitVec.toNat_lt_two_pow_sub_clz (Nat.pow_le_pow_right (by decide) few)
  · intro small
    by_cases zero : word = 0
    · have all : word.clz = 64 := BitVec.clz_eq_iff_eq_zero.mpr zero
      rw [all]
      exact Nat.zero_le _
    · have top : 2 ^ (64 - 1 - word.clz.toNat) ≤ word.toNat :=
        BitVec.two_pow_sub_clz_le_toNat_of_ne_zero (by decide) zero
      have below : 64 - 1 - word.clz.toNat < exponent :=
        (Nat.pow_lt_pow_iff_right (by decide)).mp (Nat.lt_of_le_of_lt top small)
      omega

theorem ceilLog2_eq (word : BitVec 64) : ceilLog2 word = PackedStore.ceilLog2 word.toNat := by
  -- Both are the least exponent whose power is above the word below.
  refine eq_of_forall_ge_iff fun exponent => ?_
  have positive := Nat.two_pow_pos exponent
  rw [ceilLog2, bits_le_iff, toNat_below, ceilLog2_le_iff]
  omega

/-- Shifting a word of ones leaves a one in each bit that the shift does not drop. -/
theorem toNat_ones {dropped : Nat} (few : dropped ≤ 64) :
    (BitVec.allOnes 64 >>> dropped).toNat = 2 ^ (64 - dropped) - 1 := by
  have product : 2 ^ dropped * 2 ^ (64 - dropped) = 2 ^ 64 := by
    rw [← Nat.pow_add, Nat.add_sub_cancel' few]
  have positive : 0 < 2 ^ dropped * 2 ^ (64 - dropped) := product ▸ Nat.two_pow_pos 64
  rw [BitVec.toNat_ushiftRight, BitVec.toNat_allOnes, Nat.shiftRight_eq_div_pow, ← product,
    Nat.mul_sub_div 0 _ _ positive, Nat.zero_div]

theorem clz_le (word : BitVec 64) : word.clz.toNat ≤ 64 :=
  BitVec.le_def.mp BitVec.clz_le

theorem toNat_ceilPow2? (word : BitVec 64) :
    (ceilPow2? word).map BitVec.toNat = PackedStore.ceilPow2? word.toNat := by
  have positive := Nat.two_pow_pos (ceilLog2 word)
  rw [ceilPow2?, toNat_sum?, toNat_ones (clz_le _), PackedStore.ceilPow2?, ← ceilLog2_eq]
  exact congrArg size? (Nat.sub_add_cancel positive)

/-- Clearing the bits of a mask keeps the bits above it, which are the multiple below. -/
theorem toNat_clear (isMask : mask.toNat = 2 ^ exponent - 1) :
    (word &&& ~~~mask).toNat = word.toNat - word.toNat % 2 ^ exponent := by
  have multiple : word.toNat - word.toNat % 2 ^ exponent =
      2 ^ exponent * (word.toNat / 2 ^ exponent) := by
    have parts := Nat.div_add_mod word.toNat (2 ^ exponent)
    omega
  refine Nat.eq_of_testBit_eq fun position => ?_
  have masked : mask.getLsbD position = decide (position < exponent) := by
    rw [← BitVec.testBit_toNat, isMask, Nat.testBit_two_pow_sub_one]
  rw [multiple, Nat.testBit_two_pow_mul, Nat.testBit_div_two_pow, BitVec.testBit_toNat,
    BitVec.testBit_toNat, BitVec.getLsbD_and, BitVec.getLsbD_not, masked]
  -- A bit of the mask is in neither number; every other bit is the word's own.
  by_cases low : position < exponent
  · simp [low]
  · have high := Nat.le_of_not_lt low
    have inside : word.getLsbD position → position < 64 := BitVec.lt_of_getLsbD
    rw [Nat.sub_add_cancel high, decide_eq_true high, decide_eq_false low]
    cases bit : word.getLsbD position with
    | false => rfl
    | true => simp only [decide_eq_true (inside bit), Bool.not_false, Bool.and_self]

theorem toNat_alignUp? (small : exponent < 64) (word : BitVec 64) :
    (alignUp? word (.twoPow 64 exponent)).map BitVec.toNat =
      PackedStore.alignUp? word.toNat (2 ^ exponent) := by
  have within : 2 ^ exponent < 2 ^ 64 := Nat.pow_lt_pow_right (by decide) small
  have power : (BitVec.twoPow 64 exponent).toNat = 2 ^ exponent := by
    rw [BitVec.toNat_twoPow, Nat.mod_eq_of_lt within]
  have isMask : (BitVec.twoPow 64 exponent - 1).toNat = 2 ^ exponent - 1 := by
    have above : 1 ≤ BitVec.twoPow 64 exponent :=
      BitVec.le_def.mpr (by rw [power]; exact Nat.two_pow_pos exponent)
    rw [BitVec.toNat_sub_of_le above, power]
    rfl
  have cleared : (fun raised : BitVec 64 =>
      (raised &&& ~~~(BitVec.twoPow 64 exponent - 1)).toNat) =
      (fun raised => raised - raised % 2 ^ exponent) ∘ BitVec.toNat :=
    funext fun raised => toNat_clear isMask
  rw [alignUp?, Option.map_map, Function.comp_def, cleared, ← Option.map_map, toNat_sum?, isMask]
  rfl

end Word

/-! ### Rounding in numbers and in words -/

/-- The exponent of a value is the least whose power of two is at least the value, and one at zero
as well. The power is the value rounded up, which fails exactly where it is the bound of the sizes.
Rounding up to a multiple of a power of two gives the least multiple, fails exactly where that is
no size, keeps the order of values, and changes nothing the second time. Words of 64 bits agree. -/
theorem rounding_exact :
    (∀ value, IsLeast {exponent | max value 1 ≤ 2 ^ exponent} (ceilLog2 value)) ∧
    (∀ value, value < sizeLimit →
      (2 ^ ceilLog2 value < sizeLimit → ceilPow2? value = some (2 ^ ceilLog2 value)) ∧
      (ceilPow2? value = none ↔ ceilLog2 value = 64)) ∧
    (∀ exponent, exponent < 64 →
      (∀ value, ∃ multiple,
        IsLeast {multiple | 2 ^ exponent ∣ multiple ∧ value ≤ multiple} multiple ∧
        (multiple < sizeLimit → alignUp? value (2 ^ exponent) = some multiple) ∧
        (alignUp? value (2 ^ exponent) = none ↔ sizeLimit ≤ multiple)) ∧
      (∀ value larger raised, value ≤ larger → alignUp? larger (2 ^ exponent) = some raised →
        ∃ lower, alignUp? value (2 ^ exponent) = some lower ∧ lower ≤ raised) ∧
      ∀ value raised, alignUp? value (2 ^ exponent) = some raised →
        alignUp? raised (2 ^ exponent) = some raised) ∧
    ∀ word : BitVec 64,
      Word.ceilLog2 word = ceilLog2 word.toNat ∧
      (Word.ceilPow2? word).map BitVec.toNat = ceilPow2? word.toNat ∧
      ∀ exponent, exponent < 64 →
        (Word.alignUp? word (.twoPow 64 exponent)).map BitVec.toNat =
          alignUp? word.toNat (2 ^ exponent) := by
  refine ⟨isLeast_ceilLog2, fun value sized => ⟨fun fits => ?_, ceilPow2?_eq_none_iff sized⟩,
    fun exponent small => ?_, fun word => ?_⟩
  · exact size?_eq_some_iff.mpr ⟨fits, rfl⟩
  · have positive := Nat.two_pow_pos exponent
    have divides : 2 ^ exponent ∣ sizeLimit := Nat.pow_dvd_pow 2 (Nat.le_of_lt small)
    refine ⟨fun value => ⟨_, Placement.isLeast_raise positive value, ?_, ?_⟩, ?_, ?_⟩
    · intro fits
      rw [Placement.alignUp?_eq_size? positive divides]
      exact size?_eq_some_iff.mpr ⟨fits, rfl⟩
    · rw [Placement.alignUp?_eq_size? positive divides, size?_eq_none_iff]
    · exact fun value larger raised => alignUp?_mono positive
    · exact fun value raised => alignUp?_idem positive divides
  · exact ⟨Word.ceilLog2_eq word, Word.toNat_ceilPow2? word,
      fun exponent small => Word.toNat_alignUp? small word⟩

/-- The largest size has no power of two above it and the one in the middle is a power. Behind the
last multiple of sixteen there is none, and up to it everything is rounded up, also in words. -/
theorem rounding_exact_at_bounds :
    IsLeast {exponent | max (2 ^ 64 - 1) 1 ≤ 2 ^ exponent} 64 ∧
    ceilPow2? (2 ^ 64 - 1) = none ∧ ceilPow2? (2 ^ 63) = some (2 ^ 63) ∧
    alignUp? (2 ^ 64 - 15) 16 = none ∧ alignUp? (2 ^ 64 - 31) 16 = some (2 ^ 64 - 16) ∧
    alignUp? (2 ^ 64 - 16) 16 = some (2 ^ 64 - 16) ∧
    (∃ lower, alignUp? 0 16 = some lower ∧ lower ≤ 2 ^ 64 - 16) ∧
    (Word.alignUp? (BitVec.allOnes 64) 16).map BitVec.toNat = none := by
  obtain ⟨exponents, powers, multiples, words⟩ := rounding_exact
  obtain ⟨least, rounded, again⟩ := multiples 4 (by decide)
  have last : alignUp? (2 ^ 64 - 31) 16 = some (2 ^ 64 - 16) := by decide
  refine ⟨exponents (2 ^ 64 - 1), (powers (2 ^ 64 - 1) (by decide)).2.mpr (by decide),
    (powers (2 ^ 63) (by decide)).1 (by decide), ?_, last, again _ _ last,
    rounded 0 (2 ^ 64 - 31) _ (by decide) last, ?_⟩
  · obtain ⟨multiple, ⟨⟨divides, above⟩, -⟩, -, none⟩ := least (2 ^ 64 - 15)
    exact none.mpr (by rw [sizeLimit]; omega)
  · exact ((words (BitVec.allOnes 64)).2.2 4 (by decide)).trans (by decide)

end PackedStore
