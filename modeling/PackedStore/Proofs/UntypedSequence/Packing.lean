/-
This file says where the values of a sequence belong in its arena: each at the
first place behind the one before that suits its type. The places follow from the
values alone, so they are the same whatever was added and removed on the way, and
a packing that starts earlier has no value at a later place.
-/

import Mathlib.Data.List.InsertIdx
import PackedStore.Proofs.Element.Types
import PackedStore.Proofs.Layout.Segments
import PackedStore.UntypedSequence.Basic

namespace PackedStore.UntypedSequence

/-! ### The place of one value -/

/-- The alignment of a value of a type in the arena. -/
def elementAlign (type : ElementType) : Nat :=
  max type.align minElementAlign

/-- A type whose values a sequence takes. -/
structure Storable (type : ElementType) : Prop where
  supported : IsAlign type.align
  positive : 0 < type.size

theorem Storable.isAlign {type : ElementType} (storable : Storable type) :
    IsAlign (elementAlign type) := by
  refine isAlign_iff.mpr ?_
  unfold elementAlign minElementAlign
  rcases isAlign_iff.mp storable.supported with same | same | same | same | same <;> rw [same] <;>
    decide

theorem elementAlign_pos (type : ElementType) : 0 < elementAlign type :=
  Nat.lt_of_lt_of_le (by decide) (Nat.le_max_right type.align minElementAlign)

/-- A place that suits a value suits its type. -/
theorem Storable.dvd_elementAlign {type : ElementType} (storable : Storable type) :
    type.align ∣ elementAlign type := by
  unfold elementAlign minElementAlign
  rcases isAlign_iff.mp storable.supported with same | same | same | same | same <;> rw [same] <;>
    decide

/-- The first place for a value from a position on. -/
def startFrom (cursor : Nat) (datum : Datum) : Nat :=
  Placement.raise cursor (elementAlign datum.type)

/-- Where a value ends that stands at the first place from a position on. -/
def stopFrom (cursor : Nat) (datum : Datum) : Nat :=
  startFrom cursor datum + datum.bytes.size

section

variable {cursor later : Nat} {datum : Datum}

theorem le_startFrom : cursor ≤ startFrom cursor datum :=
  Placement.le_raise (elementAlign_pos _)

/-- The place of a value suits every type that needs no more than its own. -/
theorem Storable.startFrom_mod (storable : Storable datum.type) {align : Nat}
    (divides : align ∣ datum.type.align) : startFrom cursor datum % align = 0 :=
  Nat.mod_eq_zero_of_dvd
    (Nat.dvd_trans (Nat.dvd_trans divides storable.dvd_elementAlign) Placement.dvd_raise)

theorem startFrom_mono (before : cursor ≤ later) : startFrom cursor datum ≤ startFrom later datum :=
  Placement.raise_mono (elementAlign_pos _) before

theorem le_stopFrom : cursor ≤ stopFrom cursor datum :=
  Nat.le_trans le_startFrom (Nat.le_add_right _ _)

theorem stopFrom_mono (before : cursor ≤ later) : stopFrom cursor datum ≤ stopFrom later datum :=
  Nat.add_le_add_right (startFrom_mono before) _

end

/-! ### The places of all values -/

/-- Where the last of some values ends that stand one behind another from a position on. -/
def packedFrom (cursor : Nat) (elements : List Datum) : Nat :=
  elements.foldl stopFrom cursor

variable {cursor later : Nat} {datum : Datum} {elements front back : List Datum}

@[simp] theorem packedFrom_nil : packedFrom cursor [] = cursor := rfl

@[simp] theorem packedFrom_cons :
    packedFrom cursor (datum :: elements) = packedFrom (stopFrom cursor datum) elements := rfl

theorem packedFrom_append :
    packedFrom cursor (front ++ back) = packedFrom (packedFrom cursor front) back :=
  List.foldl_append

theorem le_packedFrom : cursor ≤ packedFrom cursor elements := by
  induction elements generalizing cursor with
  | nil => exact Nat.le_refl cursor
  | cons datum rest inductionHypothesis => exact Nat.le_trans le_stopFrom inductionHypothesis

theorem packedFrom_mono (before : cursor ≤ later) :
    packedFrom cursor elements ≤ packedFrom later elements := by
  induction elements generalizing cursor later with
  | nil => exact before
  | cons datum rest inductionHypothesis => exact inductionHypothesis (stopFrom_mono before)

/-- Fewer values end no later. -/
theorem packedFrom_sublist (fewer : front.Sublist back) :
    packedFrom cursor front ≤ packedFrom cursor back := by
  induction fewer generalizing cursor with
  | slnil => exact Nat.le_refl cursor
  | cons datum _ inductionHypothesis =>
    exact Nat.le_trans inductionHypothesis (packedFrom_mono le_stopFrom)
  | cons_cons datum _ inductionHypothesis => exact inductionHypothesis

/-- Every value takes a byte at least. -/
theorem length_le_packedFrom (positive : ∀ datum ∈ elements, 0 < datum.type.size) :
    cursor + elements.length ≤ packedFrom cursor elements := by
  induction elements generalizing cursor with
  | nil => exact Nat.le_refl cursor
  | cons datum rest inductionHypothesis =>
    have size : 0 < datum.bytes.size := by
      rw [datum.size_bytes]
      exact positive datum List.mem_cons_self
    have step := @le_startFrom cursor datum
    have rest := @inductionHypothesis (stopFrom cursor datum)
      fun other member => positive other (List.mem_cons_of_mem _ member)
    rw [packedFrom_cons, List.length_cons]
    unfold stopFrom at rest ⊢
    omega

/-- The place of an element of a sequence, if there is one with the index. -/
def placeOf? (elements : List Datum) (index : Nat) : Option Nat :=
  elements[index]?.map (startFrom (packedFrom 0 (elements.take index)))

/-- The index that an element has before another one is removed. -/
def indexBefore (removed index : Nat) : Nat :=
  if index < removed then index else index + 1

theorem getElem?_eraseIdx_eq {removed index : Nat} :
    (elements.eraseIdx removed)[index]? = elements[indexBefore removed index]? := by
  rw [List.getElem?_eraseIdx, indexBefore]
  split <;> rfl

/-- Removing an element moves no other one to a later place. -/
theorem placeOf?_eraseIdx_le {removed index before after : Nat}
    (placed : placeOf? elements (indexBefore removed index) = some before)
    (moved : placeOf? (elements.eraseIdx removed) index = some after) : after ≤ before := by
  have fewer : ((elements.eraseIdx removed).take index).Sublist
      (elements.take (indexBefore removed index)) := by
    unfold indexBefore
    by_cases front : index < removed
    · have taken : (elements.eraseIdx removed).take index = elements.take index :=
        List.take_eraseIdx_eq_take_of_le _ _ _ (Nat.le_of_lt front)
      rw [if_pos front]
      exact taken ▸ List.Sublist.refl _
    · have taken : (elements.eraseIdx removed).take index =
          (elements.take (index + 1)).eraseIdx removed := List.ext_getElem? (by grind)
      rw [if_neg front, taken]
      exact List.eraseIdx_sublist _ _
  rw [placeOf?, getElem?_eraseIdx_eq] at moved
  obtain ⟨datum, there, rfl⟩ := Option.map_eq_some_iff.mp moved
  rw [placeOf?, there] at placed
  rw [← Option.some.inj placed]
  exact startFrom_mono (packedFrom_sublist fewer)

end PackedStore.UntypedSequence
