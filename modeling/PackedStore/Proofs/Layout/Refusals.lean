/-
This file says that sizes are refused for one reason only: a quantity has left its
range. Growth, header words and the placing of segments all fail with a storage
error or not at all, as long as the types of arrays are aligned as a block is.
-/

import PackedStore.Layout.Placement
import PackedStore.Proofs.Failures
import PackedStore.Proofs.Layout.Growth

namespace PackedStore

/-! ### Checked numbers -/

section

variable {count capacity log2MinGrowth : Nat}

theorem bounded_toWord32 (value : Nat) (what : Quantity) : (toWord32 value what).Bounded := by
  unfold toWord32
  split
  · exact .ok _
  · exact Checked.bounded_overflow what

theorem bounded_growthStep : (growthStep log2MinGrowth).Bounded := by
  unfold growthStep
  split
  · exact .ok _
  · exact Checked.bounded_overflow _

theorem bounded_grownCapacity : (grownCapacity count capacity log2MinGrowth).Bounded := by
  refine bounded_growthStep.bind fun step => (Checked.bounded_orFail _ _).bind fun grown => ?_
  split
  · exact .ok _
  · exact Checked.bounded_overflow _

theorem bounded_bucketCapacityFor : (bucketCapacityFor capacity).Bounded :=
  Checked.bounded_orFail _ _

theorem bounded_initialData (sizing : Sizing) : (initialData sizing).Bounded := by
  unfold initialData
  split
  · exact .ok 0
  · exact bounded_grownCapacity

end

/-! ### Placed segments -/

/-- The quantity is the length of a layout or of a part of it. -/
def Quantity.IsExtent : Quantity → Prop
  | layoutSize | arraySize | arenaSize => True
  | _ => False

namespace Placement

variable {α β : Type} {allowed : Failure → Prop}

/-- The placing fails in allowed ways only. -/
def FailsOnly (allowed : Failure → Prop) (placing : Edit Placement α) : Prop :=
  ∀ before failure after, placing before = .error failure after → allowed failure

namespace FailsOnly

theorem pure (answer : α) : FailsOnly allowed (Pure.pure answer : Edit Placement α) :=
  fun _ _ _ failed => absurd failed (by simp)

theorem lift {checked : Checked α} (failsOnly : checked.FailsOnly allowed) :
    FailsOnly allowed (liftM checked : Edit Placement α) := by
  intro before failure after failed
  cases checked with
  | ok answer => exact absurd failed (by simp)
  | error other =>
    obtain ⟨rfl, -⟩ := EStateM.Result.error.inj failed
    exact failsOnly _ rfl

theorem bind {first : Edit Placement α} {next : α → Edit Placement β}
    (failsOnly : FailsOnly allowed first) (failsOnlyNext : ∀ answer, FailsOnly allowed (next answer)) :
    FailsOnly allowed (first >>= next) := by
  intro before failure after failed
  rw [Edit.run_bind] at failed
  cases run : first before with
  | ok answer between =>
    rw [run] at failed
    exact failsOnlyNext answer between failure after failed
  | error other between =>
    rw [run] at failed
    obtain ⟨rfl, -⟩ := EStateM.Result.error.inj failed
    exact failsOnly before _ between run

theorem total {placing : Edit Placement (Nat → α)} (failsOnly : FailsOnly allowed placing) :
    (Placement.total placing).FailsOnly allowed := by
  intro failure failed
  unfold Placement.total at failed
  split at failed
  · exact absurd failed (by simp)
  · next run => exact Except.error.inj failed ▸ failsOnly _ _ _ run

end FailsOnly

variable (extent : ∀ what : Quantity, what.IsExtent → allowed (.overflow what))

include extent

theorem failsOnly_orFail (answer : Option α) (what : Quantity) (isExtent : what.IsExtent) :
    FailsOnly allowed (liftM (orFail answer (.overflow what)) : Edit Placement α) :=
  .lift (.orFail answer (extent what isExtent))

theorem failsOnly_place (length align : Nat) : FailsOnly allowed (place length align) := by
  refine FailsOnly.bind (fun _ _ _ failed => absurd failed (by simp)) fun placement =>
    (failsOnly_orFail extent _ .layoutSize trivial).bind fun offset =>
      (failsOnly_orFail extent _ .layoutSize trivial).bind fun stop => ?_
  exact FailsOnly.bind (fun _ _ _ failed => absurd failed (by simp)) fun _ => .pure _

/-- Arrays are refused for their size, or for the alignment of a type that no block suits. -/
theorem failsOnly_arrayOf (count : Nat) {type : ElementType}
    (alignment : blockAlign < type.align → allowed (.misuse (.arrayAlignment type.align))) :
    FailsOnly allowed (arrayOf count type) := by
  refine FailsOnly.bind (.lift ?_) fun _ =>
    (failsOnly_orFail extent _ .arraySize trivial).bind fun length =>
      failsOnly_place extent length type.align
  by_cases supported : type.align ≤ blockAlign
  · rw [demand_of supported]
    exact .ok ()
  · rw [demand_of_not supported]
    exact .error (alignment (Nat.lt_of_not_le supported))

theorem failsOnly_word32 (count : Nat) : FailsOnly allowed (arrayOf count .word32) :=
  failsOnly_arrayOf extent count fun large => absurd large (by decide)

end Placement

end PackedStore
