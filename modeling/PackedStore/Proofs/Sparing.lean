/-
This file states what failures leave of the untyped containers. An operation that
cannot get the room it needs, or is refused for any other reason, spares what is
stored: all keys, values and elements are still there, where they were. A failed
insertion may have made room for more slots, if it found them all in use, before
the arena could not grow; no other failure leaves a trace.
-/

import PackedStore.Proofs.Host.BlockBuffer
import PackedStore.Proofs.UntypedMap.Failing
import PackedStore.Proofs.UntypedSequence.Failing

namespace PackedStore

/-- A failed operation on an untyped map or sequence, however that one came about, spares its
contents. -/
theorem failures_spare_contents {Buffer : Type} [Host Buffer] [LawfulHost Buffer]
    {known : ElementType → Prop} (types : ∀ type, known type → type.WellFormed)
    {site later : Site Buffer} {failure : Failure} :
    (∀ (key : KeyType) (operation : UntypedMap.Operation), key.toElementType.WellFormed →
        UntypedMap.Reachable known key site → operation.Fits (OrOverAligned known) key →
        operation.run key site = .error failure later →
        UntypedMap.Spared known key operation site failure later) ∧
      ∀ (elements : List Datum) (operation : UntypedSequence.Operation),
        UntypedSequence.Reachable site elements → operation.Aligned ∨ operation.OverAligned →
        operation.run site = .error failure later →
        UntypedSequence.Spared operation elements site failure later := by
  constructor
  · intro key operation wellFormed reachable fits failed
    exact reachable.spared wellFormed types fits failed
  · intro elements operation reachable aligned failed
    obtain ⟨image, holds⟩ := reachable.carries
    exact holds.spared aligned failed

/-! ### Crowded buffers -/

section

open UntypedMap (keyOf wideDatum)
open UntypedSequence (wordDatum)

/-- A map with one slot in a buffer that has no room for a second one. -/
def crowdedMap : Site BlockBuffer :=
  (Store.outcome (UntypedMap.init wordKey { capacity := 1, minGrowth := 1 })
    ⟨.empty (some 64), []⟩).2

/-- A sequence with one slot and an arena for one word, in a buffer that has room for a second slot
but not for the bytes of a wide value. -/
def crowdedSequence : Site BlockBuffer :=
  (Store.outcome (UntypedSequence.init { capacity := 1, dataCapacity := 4, minGrowth := 1 })
    ⟨.empty (some 80), []⟩).2

theorem init_crowdedMap :
    UntypedMap.init wordKey { capacity := 1, minGrowth := 1 }
      (⟨.empty (some 64), []⟩ : Site BlockBuffer) = .ok () crowdedMap :=
  Store.run_of_outcome_ok (by decide +kernel)

theorem init_crowdedSequence :
    UntypedSequence.init { capacity := 1, dataCapacity := 4, minGrowth := 1 }
      (⟨.empty (some 80), []⟩ : Site BlockBuffer) = .ok () crowdedSequence :=
  Store.run_of_outcome_ok (by decide +kernel)

/-- A second key is refused and leaves the map as it was. A wide value is refused and leaves the
sequence with a slot more. -/
theorem crowded_spared :
    (∃ site later : Site BlockBuffer, UntypedMap.Reachable UntypedMap.WordOrWide wordKey site ∧
      (UntypedMap.Operation.add (keyOf 7) (wordDatum 1)).run wordKey crowdedMap =
        .ok (.number 0) site ∧
      (UntypedMap.Operation.add (keyOf 8) (wordDatum 2)).run wordKey site =
        .error (.storage (.allocationFailed 96)) later ∧
      UntypedMap.SameEntries wordKey site later) ∧
    ∃ site later : Site BlockBuffer, UntypedSequence.Reachable site [wordDatum 1] ∧
      site.bytes.size = 52 ∧
      (UntypedSequence.Operation.add (wideDatum 2)).run site =
        .error (.storage (.allocationFailed 96)) later ∧
      later.bytes.size = 68 ∧ UntypedSequence.SameElements site later := by
  constructor
  · have added : (UntypedMap.Operation.add (keyOf 7) (wordDatum 1)).run wordKey crowdedMap =
        .ok (.number 0) _ := Store.run_of_outcome_ok (by decide +kernel)
    have refused : (UntypedMap.Operation.add (keyOf 8) (wordDatum 2)).run wordKey
        (Store.outcome ((UntypedMap.Operation.add (keyOf 7) (wordDatum 1)).run wordKey)
          crowdedMap).2 = .error (.storage (.allocationFailed 96)) _ :=
      Store.run_of_outcome_error (by decide +kernel)
    have reachable := UntypedMap.Reachable.operation (.add (keyOf 7) (wordDatum 1))
      ⟨UntypedMap.fits_keyOf rfl 7, Or.inl rfl⟩
      (@UntypedMap.Reachable.init _ _ UntypedMap.WordOrWide _ _ _ _ init_crowdedMap)
    have spared := (failures_spare_contents UntypedMap.family_wordOrWide.wellFormed).1 wordKey
      (.add (keyOf 8) (wordDatum 2)) ElementType.wellFormed_word32 reachable
      ⟨UntypedMap.fits_keyOf rfl 8, Or.inl (Or.inl rfl)⟩ refused
    exact ⟨_, _, reachable, added, refused, spared.sameEntries⟩
  · have added : (Store.machine UntypedSequence.Operation.run (.add (wordDatum 1))
        crowdedSequence).1 = .ok (.number 0) := by decide +kernel
    obtain ⟨refused, longer⟩ : (Store.outcome (UntypedSequence.Operation.add (wideDatum 2)).run
          (Store.machine UntypedSequence.Operation.run (.add (wordDatum 1)) crowdedSequence).2).1 =
            .error (.storage (.allocationFailed 96)) ∧
        (Store.outcome (UntypedSequence.Operation.add (wideDatum 2)).run
          (Store.machine UntypedSequence.Operation.run (.add (wordDatum 1))
            crowdedSequence).2).2.bytes.size = 68 := by decide +kernel
    have reachable := UntypedSequence.Reachable.step (.add (wordDatum 1)) ⟨2, rfl⟩
      (.created _ init_crowdedSequence)
    rw [added] at reachable
    have failed := Store.run_of_outcome_error refused
    have spared := (failures_spare_contents UntypedMap.family_wordOrWide.wellFormed).2 [wordDatum 1]
      (.add (wideDatum 2)) reachable (Or.inl ⟨4, rfl⟩) failed
    exact ⟨_, _, reachable, by decide +kernel, failed, longer, spared.sameElements⟩

end

end PackedStore
