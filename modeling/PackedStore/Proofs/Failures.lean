/-
This file says how operations may fail. A resource runs out, or the caller broke
a rule that the operation documents; nothing else is ever the caller's business.
What a checked computation can fail with is closed under the ways in which such
computations are built, so it is found out part by part.
-/

import PackedStore.Edit
import PackedStore.Slots.ValueCells

namespace PackedStore

/-- A resource ran out. -/
def Failure.IsStorage (failure : Failure) : Prop :=
  ∃ error, failure = .storage error

theorem Failure.isStorage_overflow (what : Quantity) : (Failure.overflow what).IsStorage :=
  ⟨_, rfl⟩

/-- A rule that a caller of a container can break: values that cannot be stored, accesses as a wrong
type or of a wrong size, keys that are there already, indices and ranges out of bounds, rows moved
among holes, and blocks that are in use when a container is created. -/
def Misuse.Documented : Misuse → Prop
  | overAligned _ | zeroSized _ | emptyValue | typeMismatch .. | sizeMismatch .. | valueTooLarge _
  | duplicateKey | blockInUse .. | indexOutOfRange .. | rowsOutOfRange .. | holes => True
  | arrayAlignment align => blockAlign < align
  | noHeader .. | otherContent _ | otherKeyType _ | otherRowTypes | truncatedBlock
  | overlappingSegments | shorterSegment | wrongPlaceForSize _ => False

/-- The caller broke a rule, or a resource ran out. -/
def Failure.Documented : Failure → Prop
  | storage _ => True
  | misuse rule => rule.Documented
  | fault _ => False

theorem Failure.IsStorage.documented {failure : Failure} (isStorage : failure.IsStorage) :
    failure.Documented := by
  obtain ⟨error, rfl⟩ := isStorage
  trivial

namespace Checked

variable {α β : Type} {allowed : Failure → Prop}

/-- The computation fails in allowed ways only. -/
def FailsOnly (allowed : Failure → Prop) (checked : Checked α) : Prop :=
  ∀ failure, checked = .error failure → allowed failure

/-- The computation fails for want of a resource only. -/
abbrev Bounded (checked : Checked α) : Prop :=
  FailsOnly Failure.IsStorage checked

namespace FailsOnly

theorem ok (answer : α) : FailsOnly allowed (.ok answer : Checked α) :=
  fun _ failed => absurd failed (by simp)

theorem error {failure : Failure} (isAllowed : allowed failure) :
    FailsOnly allowed (.error failure : Checked α) :=
  fun _ failed => Except.error.inj failed ▸ isAllowed

theorem bind {first : Checked α} {next : α → Checked β} (failsOnly : FailsOnly allowed first)
    (failsOnlyNext : ∀ answer, FailsOnly allowed (next answer)) :
    FailsOnly allowed (first >>= next) := by
  cases first with
  | error failure => exact fun other failed => Except.error.inj failed ▸ failsOnly failure rfl
  | ok answer => exact failsOnlyNext answer

theorem map {first : Checked α} (failsOnly : FailsOnly allowed first) (change : α → β) :
    FailsOnly allowed (change <$> first) := by
  cases first with
  | error failure => exact fun other failed => Except.error.inj failed ▸ failsOnly failure rfl
  | ok answer => exact ok (change answer)

theorem orFail (answer : Option α) {failure : Failure} (isAllowed : allowed failure) :
    FailsOnly allowed (PackedStore.orFail answer failure) := by
  cases answer with
  | none => exact error isAllowed
  | some answer => exact ok answer

theorem demand (condition : Prop) [Decidable condition] {rule : Misuse}
    (isAllowed : ¬ condition → allowed (.misuse rule)) :
    FailsOnly allowed (PackedStore.demand condition rule) := by
  by_cases holds : condition
  · rw [demand_of holds]
    exact ok ()
  · rw [demand_of_not holds]
    exact error (isAllowed holds)

theorem weaken {wide : Failure → Prop} {checked : Checked α} (failsOnly : FailsOnly allowed checked)
    (more : ∀ failure, allowed failure → wide failure) : FailsOnly wide checked :=
  fun failure failed => more failure (failsOnly failure failed)

end FailsOnly

theorem bounded_overflow (what : Quantity) : Bounded (.error (.overflow what) : Checked α) :=
  .error (Failure.isStorage_overflow what)

theorem bounded_orFail (answer : Option α) (what : Quantity) :
    Bounded (orFail answer (.overflow what)) :=
  .orFail answer (Failure.isStorage_overflow what)

end Checked

/-- Types that cannot be stored break a documented rule. -/
theorem documented_demandStorable (type : ElementType) :
    (demandStorable type).FailsOnly Failure.Documented :=
  (Checked.FailsOnly.demand _ fun _ => trivial).bind fun _ =>
    Checked.FailsOnly.demand _ fun _ => trivial

end PackedStore
