/-
This file compares placements of arrays of different lengths. What is shorter and
placed from an earlier position on can be placed wherever the longer one can, and ends
no later, although both are padded to the next multiple of an alignment. Placements
that are put together from such parts compare in the same way.
-/

import PackedStore.Proofs.Layout.Segments

namespace PackedStore.Placement

variable {α β : Type} {length more align count : Nat} {segment : Segment}
  {before after : Placement}

/-- A placement succeeds exactly if the padded position and the end are sizes. -/
theorem place_eq_ok :
    place length align before = .ok segment after ↔
      before.cursor + (align - 1) < sizeLimit ∧ raise before.cursor align + length < sizeLimit ∧
        segment = ⟨raise before.cursor align, length⟩ ∧
        after = ⟨raise before.cursor align + length⟩ := by
  simp only [place, Edit.bind_eq_ok, Edit.lift_eq_ok, orFail_eq_ok, Edit.run_get, Edit.run_set,
    Edit.run_pure]
  constructor
  · rintro ⟨_, _, ⟨⟩, offset, _, ⟨raised, rfl⟩, stop, _, ⟨stopped, rfl⟩, _, _, ⟨⟩, ⟨⟩⟩
    obtain ⟨padded, rfl⟩ := alignUp?_eq_some.mp raised
    obtain ⟨ends, rfl⟩ := size?_eq_some_iff.mp stopped
    exact ⟨padded, ends, rfl, rfl⟩
  · rintro ⟨padded, ends, rfl, rfl⟩
    exact ⟨_, _, rfl, _, _, ⟨alignUp?_eq_some.mpr ⟨padded, rfl⟩, rfl⟩, _, _,
      ⟨size?_eq_some_iff.mpr ⟨ends, rfl⟩, rfl⟩, _, _, rfl, rfl⟩

/-- Wherever the larger placement succeeds, the smaller one does so from all earlier positions, and it
ends no later. -/
def Within (small large : Edit Placement α) : Prop :=
  ∀ before early found after, large before = .ok found after → early.cursor ≤ before.cursor →
    ∃ answer stop, small early = .ok answer stop ∧ stop.cursor ≤ after.cursor

namespace Within

theorem pure (answer found : α) : Within (pure answer) (pure found) := by
  intro before early _ _ run earlier
  obtain ⟨rfl, rfl⟩ := EStateM.Result.ok.inj run
  exact ⟨answer, early, rfl, earlier⟩

theorem bind {small large : Edit Placement α} {next nextLarge : α → Edit Placement β}
    (within : Within small large) (rest : ∀ answer found, Within (next answer) (nextLarge found)) :
    Within (small >>= next) (large >>= nextLarge) := by
  intro before early _ _ run earlier
  obtain ⟨found, middle, runLarge, runRest⟩ := Edit.bind_eq_ok.mp run
  obtain ⟨answer, stop, runSmall, below⟩ := within before early found middle runLarge earlier
  obtain ⟨last, ended, runNext, belowLast⟩ := rest answer found middle stop _ _ runRest below
  exact ⟨last, ended, Edit.bind_eq_ok.mpr ⟨answer, stop, runSmall, runNext⟩, belowLast⟩

theorem mapM {small large : α → Edit Placement β} (items : List α)
    (each : ∀ item ∈ items, Within (small item) (large item)) :
    Within (items.mapM small) (items.mapM large) := by
  induction items with
  | nil => exact .pure [] []
  | cons item rest inductionHypothesis =>
    rw [List.mapM_cons, List.mapM_cons]
    exact (each item List.mem_cons_self).bind fun _ _ =>
      (inductionHypothesis fun other member => each other (List.mem_cons_of_mem _ member)).bind
        fun _ _ => .pure _ _

/-- The next multiple behind an earlier position is no later. -/
theorem place (positive : 0 < align) (le : length ≤ more) :
    Within (place length align) (place more align) := by
  intro before early _ _ run earlier
  obtain ⟨padded, ends, rfl, rfl⟩ := place_eq_ok.mp run
  have raised : raise early.cursor align ≤ raise before.cursor align := raise_mono positive earlier
  refine ⟨_, _, place_eq_ok.mpr ⟨by omega, by omega, rfl, rfl⟩, ?_⟩
  exact Nat.add_le_add raised le

theorem arrayOf {type : ElementType} (positive : 0 < type.align) (le : count ≤ more) :
    Within (arrayOf count type) (arrayOf more type) := by
  intro before early found after run earlier
  simp only [Placement.arrayOf, array, Edit.bind_eq_ok, Edit.lift_eq_ok, orFail_eq_ok,
    demand_eq_ok] at run
  obtain ⟨_, _, ⟨supported, rfl⟩, bytes, _, ⟨sized, rfl⟩, run⟩ := run
  obtain ⟨bound, rfl⟩ := size?_eq_some_iff.mp sized
  have fewer : count * type.size ≤ more * type.size := Nat.mul_le_mul_right _ le
  obtain ⟨answer, stop, placed, below⟩ := Within.place positive fewer before early _ _ run earlier
  have sizedFewer : size? (count * type.size) = some (count * type.size) :=
    size?_eq_some_iff.mpr ⟨Nat.lt_of_le_of_lt fewer bound, rfl⟩
  refine ⟨answer, stop, ?_, below⟩
  simp only [Placement.arrayOf, array, Edit.run_bind, demand_of supported, Edit.run_lift_ok,
    sizedFewer, orFail]
  exact placed

end Within

end PackedStore.Placement
