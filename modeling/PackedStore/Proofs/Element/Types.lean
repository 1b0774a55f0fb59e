/-
This file says what containers rely on in the types of their values. Alignments
are powers of two that divide the sizes, as for every type that can stand in an
array, and a tag stands for one type, or at least tells with the size how it is
aligned. A payload fits such types when its alignment is enough for every type that
its tag and size can stand for, and both typed values and raw bytes do.
-/

import PackedStore.Slots.ValueCells

namespace PackedStore

/-- A type whose alignment is a power of two that divides the size. -/
structure ElementType.WellFormed (type : ElementType) : Prop where
  align_eq : ∃ exponent, type.align = 2 ^ exponent
  align_dvd : type.align ∣ type.size

theorem ElementType.WellFormed.align_pos {type : ElementType} (wellFormed : type.WellFormed) :
    0 < type.align := by
  obtain ⟨exponent, power⟩ := wellFormed.align_eq
  rw [power]
  exact Nat.two_pow_pos exponent

theorem ElementType.wellFormed_word32 : word32.WellFormed :=
  ⟨⟨2, rfl⟩, Nat.dvd_refl 4⟩

/-- Keys of one word, hashed by their value. -/
def wordKey : KeyType :=
  { ElementType.word32 with hash := fun key => UInt64.ofNat (Bytes.toNat key.toList) }

/-- The type of the one value that takes no bytes. -/
def ElementType.unit : ElementType := named "()" 0 1

theorem ElementType.wellFormed_unit : unit.WellFormed :=
  ⟨⟨0, rfl⟩, Nat.dvd_zero 1⟩

/-- Keys that take no bytes. -/
def unitKey : KeyType :=
  { ElementType.unit with hash := fun _ => 0 }

/-- Types that a block can hold aligned and that their tags tell apart. -/
structure TypeFamily (known : ElementType → Prop) : Prop where
  wellFormed : ∀ type, known type → type.WellFormed
  supported : ∀ type, known type → type.align ≤ blockAlign
  distinct : ∀ type other, known type → known other → type.tag = other.tag → type = other

/-- Types that a block can hold aligned. Two of them may have one tag, but then they differ in size
or are aligned alike. -/
structure AlignedTypes (known : ElementType → Prop) : Prop where
  wellFormed : ∀ type, known type → type.WellFormed
  supported : ∀ type, known type → type.align ≤ blockAlign
  alike : ∀ type other, known type → known other → type.tag = other.tag → type.size = other.size →
    type.align = other.align

theorem TypeFamily.aligned {known : ElementType → Prop} (family : TypeFamily known) :
    AlignedTypes known where
  wellFormed := family.wellFormed
  supported := family.supported
  alike type other isKnown otherKnown sameTag _ :=
    congrArg ElementType.align (family.distinct type other isKnown otherKnown sameTag)

/-- The type is one of the known ones, or one that no block can hold aligned. -/
def OrOverAligned (known : ElementType → Prop) (type : ElementType) : Prop :=
  known type ∨ blockAlign < type.align

theorem OrOverAligned.known_of_storable {known : ElementType → Prop} {type : ElementType}
    (either : OrOverAligned known type) {answer : Unit} (storable : demandStorable type = .ok answer) :
    known type := by
  simp only [demandStorable, Checked.bind_eq_ok, demand_eq_ok] at storable
  obtain ⟨_, supported, -⟩ := storable
  exact either.resolve_right (Nat.not_lt_of_le supported)

/-! ### Alignments -/

/-- An alignment that the arena of a block supports. -/
def IsAlign (align : Nat) : Prop :=
  ∃ exponent, exponent ≤ 4 ∧ align = 2 ^ exponent

theorem isAlign_iff {align : Nat} :
    IsAlign align ↔ align = 1 ∨ align = 2 ∨ align = 4 ∨ align = 8 ∨ align = 16 := by
  constructor
  · rintro ⟨exponent, bound, rfl⟩
    obtain rfl | rfl | rfl | rfl | rfl : exponent = 0 ∨ exponent = 1 ∨ exponent = 2 ∨
      exponent = 3 ∨ exponent = 4 := by omega
    all_goals decide
  · rintro (rfl | rfl | rfl | rfl | rfl)
    · exact ⟨0, by decide, rfl⟩
    · exact ⟨1, by decide, rfl⟩
    · exact ⟨2, by decide, rfl⟩
    · exact ⟨3, by decide, rfl⟩
    · exact ⟨4, by decide, rfl⟩

theorem IsAlign.pos {align : Nat} (supported : IsAlign align) : 0 < align := by
  obtain ⟨exponent, -, rfl⟩ := supported
  exact Nat.two_pow_pos exponent

theorem IsAlign.le {align : Nat} (supported : IsAlign align) : align ≤ blockAlign := by
  obtain ⟨exponent, bound, rfl⟩ := supported
  exact Nat.pow_le_pow_right (by decide) bound

theorem isAlign_of_two_pow {align : Nat} (power : ∃ exponent, align = 2 ^ exponent)
    (supported : align ≤ blockAlign) : IsAlign align := by
  obtain ⟨exponent, rfl⟩ := power
  exact ⟨exponent, (Nat.pow_le_pow_iff_right (show 1 < 2 by decide)).mp
    (supported : 2 ^ exponent ≤ 2 ^ 4), rfl⟩

theorem ElementType.WellFormed.isAlign {type : ElementType} (wellFormed : type.WellFormed)
    (supported : type.align ≤ blockAlign) : IsAlign type.align :=
  isAlign_of_two_pow wellFormed.align_eq supported

theorem isAlign_erasedAlign (size : Nat) : IsAlign (erasedAlign size) := by
  unfold erasedAlign
  refine isAlign_iff.mpr ?_
  split
  · simp
  · split <;> simp

/-- The alignment for raw bytes is enough for every type of their size. -/
theorem dvd_erasedAlign {align size : Nat} (supported : IsAlign align) (divides : align ∣ size) :
    align ∣ erasedAlign size := by
  unfold erasedAlign
  rcases isAlign_iff.mp supported with rfl | rfl | rfl | rfl | rfl <;> split <;>
    try split
  all_goals omega

/-! ### Payloads -/

/-- The alignment of the payload is enough for every type that its tag and size can stand for. -/
structure Payload.Fits (known : ElementType → Prop) (payload : Payload) : Prop where
  supported : IsAlign payload.align
  covers : ∀ type, known type → type.tag = payload.tag → type.size = payload.bytes.size →
    type.align ∣ payload.align

namespace AlignedTypes

variable {known : ElementType → Prop} (types : AlignedTypes known)

include types

theorem isAlign {type : ElementType} (isKnown : known type) : IsAlign type.align :=
  (types.wellFormed type isKnown).isAlign (types.supported type isKnown)

theorem fits_payload {datum : Datum} (isKnown : known datum.type) : datum.payload.Fits known where
  supported := types.isAlign isKnown
  covers type typeKnown sameTag sameSize := by
    rw [types.alike type datum.type typeKnown isKnown sameTag (sameSize.trans datum.size_bytes)]
    exact Nat.dvd_refl _

theorem fits_raw (tag : TypeTag) (bytes : Bytes) : (Payload.raw tag bytes).Fits known where
  supported := isAlign_erasedAlign bytes.size
  covers type typeKnown _ sameSize := by
    refine dvd_erasedAlign (types.isAlign typeKnown) ?_
    have divides := (types.wellFormed type typeKnown).align_dvd
    rwa [sameSize] at divides

end AlignedTypes

end PackedStore
