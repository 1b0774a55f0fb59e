/-
This file holds the arithmetic of sizes: sums and products that must stay within
a 64-bit word, rounding up to a power of two, and rounding up to a multiple of an
alignment. Every result that could leave the word is an `Option`, so a caller
names the quantity that overflowed.
-/

namespace PackedStore

-- Powers and sums of numbers are those of the core library, also where a proof sees the algebraic
-- hierarchy, which has instances of its own for them.
attribute [instance (1100), default_instance 20000] instPowNat
attribute [instance (1100)] Zero.ofOfNat0

/-- Sizes and positions lie below this bound. -/
def sizeLimit : Nat := 2 ^ 64

/-- A number, if it is a possible size. -/
def size? (value : Nat) : Option Nat :=
  if value < sizeLimit then some value else none

theorem size?_eq_some_iff {value result : Nat} :
    size? value = some result ↔ value < sizeLimit ∧ result = value := by
  unfold size?
  grind

/-! ### Powers of two -/

/-- The least exponent whose power of two is at least `value`. -/
def ceilLog2 (value : Nat) : Nat :=
  if value ≤ 1 then 0 else Nat.log2 (value - 1) + 1

/-- The least power of two that is at least `value`, if it is a possible size. -/
def ceilPow2? (value : Nat) : Option Nat :=
  size? (2 ^ ceilLog2 value)

theorem le_two_pow_ceilLog2 (value : Nat) : value ≤ 2 ^ ceilLog2 value := by
  unfold ceilLog2
  split
  · omega
  · have bound := Nat.lt_log2_self (n := value - 1)
    omega

theorem ceilLog2_le_of_le_two_pow {value exponent : Nat} (bound : value ≤ 2 ^ exponent) :
    ceilLog2 value ≤ exponent := by
  unfold ceilLog2
  split
  · omega
  · exact (Nat.log2_lt (by omega)).mpr (by omega)

/-! ### Alignment -/

/-- The least multiple of `align` that is at least `value`, for a positive `align`, if rounding
up stays within the sizes. -/
def alignUp? (value align : Nat) : Option Nat :=
  (size? (value + (align - 1))).map fun raised => raised - raised % align

end PackedStore
