/-
This file says exactly where an allocation is planned. The place is the first word
behind those in use at which the value is aligned, and there is no plan only where
one of the numbers would leave the sizes. Plans made one behind the other never
overlap. A value of which only the size is known gets an alignment that suits every
type of the size.
-/

import Mathlib.Algebra.Order.Floor.Div
import Mathlib.NumberTheory.Padics.PadicVal.Basic
import Mathlib.Order.Bounds.Basic
import PackedStore.Proofs.Arithmetic.Rounding
import PackedStore.Proofs.Slots.ValueCells

namespace PackedStore

variable {cursor size align : Nat} {plan : Allocation}

/-! ### One allocation -/

/-- The words behind those in use at which a value is aligned. -/
def alignedWords (cursor align : Nat) : Set Nat :=
  {word | cursor ≤ word ∧ align ∣ word * wordSize}

theorem wordsFor_eq (size : Nat) : wordsFor size = size ⌈/⌉ wordSize := rfl

theorem alignWords_pos (align : Nat) : 0 < max (align / wordSize) 1 :=
  Nat.lt_of_lt_of_le Nat.one_pos (Nat.le_max_right _ _)

/-- An alignment in bytes is one in words, of a single word where it is smaller than a word. -/
theorem IsAlign.dvd_word_iff (supported : IsAlign align) {word : Nat} :
    align ∣ word * wordSize ↔ max (align / wordSize) 1 ∣ word := by
  rcases isAlign_iff.mp supported with rfl | rfl | rfl | rfl | rfl
  · exact show 1 ∣ word * 4 ↔ 1 ∣ word by omega
  · exact show 2 ∣ word * 4 ↔ 1 ∣ word by omega
  · exact show 4 ∣ word * 4 ↔ 1 ∣ word by omega
  · exact show 8 ∣ word * 4 ↔ 2 ∣ word by omega
  · exact show 16 ∣ word * 4 ↔ 4 ∣ word by omega

theorem IsAlign.isLeast_raise (supported : IsAlign align) (cursor : Nat) :
    IsLeast (alignedWords cursor align) (Placement.raise cursor (max (align / wordSize) 1)) := by
  refine ⟨⟨?_, supported.dvd_word_iff.mpr Placement.dvd_raise⟩, fun word suitable => ?_⟩
  · exact Placement.le_raise (alignWords_pos align)
  · exact Placement.raise_le_of_dvd (alignWords_pos align) suitable.1
      (supported.dvd_word_iff.mp suitable.2)

theorem IsAlign.alignWords_dvd (supported : IsAlign align) :
    max (align / wordSize) 1 ∣ sizeLimit := by
  rcases isAlign_iff.mp supported with rfl | rfl | rfl | rfl | rfl <;> decide

/-- A value is planned at the first aligned word behind those in use, if the word behind it is
within the sizes. -/
theorem IsAlign.planAllocation_eq (supported : IsAlign align) {offset : Nat}
    (least : IsLeast (alignedWords cursor align) offset) (size : Nat) :
    planAllocation cursor size align =
      if offset + size ⌈/⌉ wordSize < sizeLimit then some ⟨offset, offset + size ⌈/⌉ wordSize⟩
      else none := by
  obtain rfl := least.unique (supported.isLeast_raise cursor)
  rw [planAllocation, wordsFor_eq,
    Placement.alignUp?_eq_size? (alignWords_pos align) supported.alignWords_dvd]
  by_cases fits : Placement.raise cursor (max (align / wordSize) 1) + size ⌈/⌉ wordSize < sizeLimit
  · have below := Nat.lt_of_le_of_lt (Nat.le_add_right _ _) fits
    rw [if_pos fits, size?, if_pos below, Option.bind_eq_bind, Option.bind_some, size?, if_pos fits]
    rfl
  · rw [if_neg fits]
    refine Option.eq_none_iff_forall_not_mem.mpr fun plan planned => fits ?_
    obtain ⟨offset, raised, planned⟩ := Option.bind_eq_some_iff.mp planned
    obtain ⟨stop, stopped, -⟩ := Option.bind_eq_some_iff.mp planned
    obtain ⟨-, rfl⟩ := size?_eq_some_iff.mp raised
    exact (size?_eq_some_iff.mp stopped).1

/-! ### One allocation behind the other -/

/-- The plans for values of given sizes and alignments, each behind the one before. A value for
which there is no plan takes nothing. -/
def plansFrom : Nat → List (Nat × Nat) → List Allocation
  | _, [] => []
  | cursor, (size, align) :: rest =>
    match planAllocation cursor size align with
    | some plan => plan :: plansFrom plan.stop rest
    | none => plansFrom cursor rest

/-- A plan lies behind the words in use, whatever the alignment. -/
theorem le_of_planAllocation (planned : planAllocation cursor size align = some plan) :
    cursor ≤ plan.offset ∧ plan.offset ≤ plan.stop := by
  obtain ⟨offset, raised, planned⟩ := Option.bind_eq_some_iff.mp planned
  obtain ⟨stop, stopped, planned⟩ := Option.bind_eq_some_iff.mp planned
  obtain ⟨-, rfl⟩ := size?_eq_some_iff.mp stopped
  obtain ⟨-, rfl⟩ := Placement.alignUp?_eq_some.mp raised
  obtain rfl := Option.some.inj planned
  exact ⟨Placement.le_raise (alignWords_pos align), Nat.le_add_right _ _⟩

theorem le_of_mem_plansFrom {requests : List (Nat × Nat)} (member : plan ∈ plansFrom cursor requests) :
    cursor ≤ plan.offset := by
  induction requests generalizing cursor with
  | nil => simp [plansFrom] at member
  | cons request rest inductionHypothesis =>
    obtain ⟨size, align⟩ := request
    rw [plansFrom] at member
    cases planned : planAllocation cursor size align with
    | none =>
      rw [planned] at member
      exact inductionHypothesis member
    | some first =>
      rw [planned] at member
      have behind := le_of_planAllocation planned
      rcases List.mem_cons.mp member with rfl | later
      · exact behind.1
      · exact Nat.le_trans behind.1 (Nat.le_trans behind.2 (inductionHypothesis later))

/-- No two plans share a word. -/
theorem pairwise_plansFrom (cursor : Nat) (requests : List (Nat × Nat)) :
    (plansFrom cursor requests).Pairwise fun earlier later => earlier.stop ≤ later.offset := by
  induction requests generalizing cursor with
  | nil => exact .nil
  | cons request rest inductionHypothesis =>
    obtain ⟨size, align⟩ := request
    rw [plansFrom]
    cases planAllocation cursor size align with
    | none => exact inductionHypothesis cursor
    | some first =>
      exact .cons (fun later member => le_of_mem_plansFrom member) (inductionHypothesis first.stop)

/-! ### Values of a known size -/

/-- The alignment for raw bytes is the power of two in their number, within the bounds of the
arena. -/
theorem erasedAlign_eq_two_pow (nonempty : size ≠ 0) :
    erasedAlign size = max wordSize (min blockAlign (2 ^ padicValNat 2 size)) := by
  have divides (exponent : Nat) : 2 ^ exponent ∣ size ↔ exponent ≤ padicValNat 2 size :=
    padicValNat_dvd_iff_le_of_ne_one (by decide) nonempty
  have sixteen : size % 16 = 0 ↔ 4 ≤ padicValNat 2 size :=
    Nat.dvd_iff_mod_eq_zero.symm.trans (divides 4)
  have eight : size % 8 = 0 ↔ 3 ≤ padicValNat 2 size :=
    Nat.dvd_iff_mod_eq_zero.symm.trans (divides 3)
  rw [erasedAlign]
  simp only [sixteen, eight]
  generalize padicValNat 2 size = exponent
  by_cases four : 4 ≤ exponent
  · have large : blockAlign ≤ 2 ^ exponent := Nat.pow_le_pow_right Nat.two_pos four
    rw [if_pos four, Nat.min_eq_left large]
    rfl
  · obtain rfl | rfl | rfl | rfl : exponent = 0 ∨ exponent = 1 ∨ exponent = 2 ∨ exponent = 3 := by
      omega
    all_goals rfl

/-- A value of which only the size is known is planned where every type of the size is aligned. -/
theorem isAligned_of_planAllocation {type : ElementType} (wellFormed : type.WellFormed)
    (supported : type.align ≤ blockAlign)
    (planned : planAllocation cursor type.size (erasedAlign type.size) = some plan) :
    isAligned plan.offset type.align = .ok true := by
  have isAlign := wellFormed.isAlign supported
  obtain ⟨-, -, aligned⟩ := near_of_planAllocation (isAlign_erasedAlign type.size) planned
  have divides := Nat.dvd_trans (dvd_erasedAlign isAlign wellFormed.align_dvd) aligned
  rw [isAligned_eq isAlign.pos, decide_eq_true divides]

/-- An allocation is planned at the first word behind those in use at which the value is aligned, it
ends behind as many words as the value needs, and there is none exactly if this end is no possible
size. Successive plans never overlap. The alignment for raw bytes is the power of two in their
number, within the bounds of the arena; a value planned with it is aligned for every type of its
size. -/
theorem allocations_planned :
    (∀ cursor size align, IsAlign align →
      ∃ offset, IsLeast {word | cursor ≤ word ∧ align ∣ word * wordSize} offset ∧
        isAligned offset align = .ok true ∧
        planAllocation cursor size align =
          if offset + size ⌈/⌉ wordSize < sizeLimit then some ⟨offset, offset + size ⌈/⌉ wordSize⟩
          else none) ∧
    (∀ cursor requests,
      (plansFrom cursor requests).Pairwise fun earlier later => earlier.stop ≤ later.offset) ∧
    (∀ size, (erasedAlign size = 4 ∨ erasedAlign size = 8 ∨ erasedAlign size = 16) ∧
      (size ≠ 0 → erasedAlign size = max wordSize (min blockAlign (2 ^ padicValNat 2 size))) ∧
      ∀ align, IsAlign align → align ∣ size → align ∣ erasedAlign size) ∧
    ∀ cursor plan (type : ElementType), type.WellFormed → type.align ≤ blockAlign →
      planAllocation cursor type.size (erasedAlign type.size) = some plan →
      isAligned plan.offset type.align = .ok true := by
  refine ⟨fun cursor size align supported => ?_, pairwise_plansFrom, fun size => ?_, ?_⟩
  · have least := supported.isLeast_raise cursor
    refine ⟨_, least, ?_, supported.planAllocation_eq least size⟩
    rw [isAligned_eq supported.pos, decide_eq_true least.1.2]
  · refine ⟨?_, erasedAlign_eq_two_pow, fun align => dvd_erasedAlign⟩
    unfold erasedAlign
    split_ifs <;> simp
  · exact fun cursor plan type => isAligned_of_planAllocation

/-- Behind five words, 24 bytes that are aligned to 16 stand at word eight; near the end of the sizes
there is no place for them. Three words of eight bytes are aligned where 24 raw bytes are. -/
theorem allocations_planned_behind_five :
    IsLeast {word | 5 ≤ word ∧ 16 ∣ word * wordSize} 8 ∧
      planAllocation 5 24 16 = some ⟨8, 14⟩ ∧ planAllocation (2 ^ 64 - 7) 24 16 = none ∧
      erasedAlign 24 = 8 ∧ planAllocation 5 24 8 = some ⟨6, 12⟩ ∧ isAligned 6 8 = .ok true := by
  have sixteen : IsAlign 16 := ⟨4, by decide, rfl⟩
  have words : (ElementType.named "[u64; 3]" 24 8).WellFormed := ⟨⟨3, rfl⟩, by decide⟩
  obtain ⟨offset, least, -, planned⟩ := allocations_planned.1 5 24 16 sixteen
  have isPlan : planAllocation 5 24 16 = some ⟨8, 14⟩ := by decide
  have fits : offset + 24 ⌈/⌉ wordSize < sizeLimit := by
    by_contra exceeds
    rw [if_neg exceeds, isPlan] at planned
    exact absurd planned (by simp)
  rw [if_pos fits, isPlan, Option.some.injEq, Allocation.mk.injEq] at planned
  obtain ⟨rfl, -⟩ := planned
  have raw : planAllocation 5 24 (erasedAlign 24) = some ⟨6, 12⟩ := by decide
  exact ⟨least, isPlan, by decide, by decide, raw,
    allocations_planned.2.2.2 5 ⟨6, 12⟩ _ words (by decide) raw⟩

end PackedStore
