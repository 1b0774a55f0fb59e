/-
This file says what moving segments does on any host. The old contents are saved
before the block is resized, so it does not matter how the old segments overlap
each other or the new ones, or whether the resize cuts them off; and as the new
ones are disjoint, no content is written over another one. A refused resize
changes nothing.
-/

import PackedStore.Proofs.Host.BlockBuffer

namespace PackedStore.Store

variable {Buffer : Type} [Host Buffer] {site : Site Buffer}
  {moves : List (Segment × Segment)} {length : Nat}

/-- Moving segments to disjoint places, whether the block grows or shrinks: each new segment
starts with the bytes that the old one held before, or the resize is refused and nothing
changes. -/
theorem relocates_intact [LawfulHost Buffer] (movable : Movable site.bytes.size length moves)
    (disjoint : (moves.map Prod.snd).Pairwise Segment.Disjoint) :
    (∀ buffer, Host.resize site.buffer length = .ok buffer →
      ∃ later, relocate moves length site = .ok () later ∧ later.bytes.size = length ∧
        ∀ move ∈ moves,
          later.bytes.extract move.2.offset (move.2.offset + move.1.length) =
            site.bytes.extract move.1.offset move.1.stop) ∧
    ∀ error, Host.resize site.buffer length = .error error →
      relocate moves length site = .error (.storage error) site := by
  refine ⟨fun buffer resized => ?_, fun error refused => run_relocate_error movable.source refused⟩
  obtain ⟨later, run, size, copied, -⟩ := run_relocate_disjoint movable disjoint resized
  refine ⟨later, run, size, fun move member => Array.ext_getElem? fun position => ?_⟩
  simp only [Segment.stop, Bytes.getElem?_extract_width]
  by_cases below : position < move.1.length
  · rw [if_pos below, if_pos below, copied move member position below]
  · rw [if_neg below, if_neg below]

/-- Six bytes in a buffer that grows to twelve at most. -/
def sixBytes : Site BlockBuffer where
  buffer :=
    { storage := #[1, 2, 3, 4, 5, 6] ++ Bytes.zeros 10
      length := 6
      limit := some 12
      reserve := 1
      size_storage := by decide }
  events := []

/-- Overlapping segments slide over each other when the block grows, and one is saved from the end
of a block that shrinks. More than twelve bytes are refused. -/
theorem six_bytes_relocate :
    (∃ later, relocate [(⟨0, 4⟩, ⟨2, 4⟩), (⟨2, 4⟩, ⟨6, 5⟩)] 11 sixBytes = .ok () later ∧
      later.bytes.extract 2 6 = #[1, 2, 3, 4] ∧ later.bytes.extract 6 10 = #[3, 4, 5, 6]) ∧
    (∃ later, relocate [(⟨4, 2⟩, ⟨0, 2⟩), (⟨0, 1⟩, ⟨2, 1⟩)] 3 sixBytes = .ok () later ∧
      later.bytes.size = 3 ∧ later.bytes.extract 0 2 = #[5, 6] ∧
      later.bytes.extract 2 3 = #[1]) ∧
    relocate [(⟨0, 6⟩, ⟨0, 6⟩)] 13 sixBytes =
      .error (.storage (.allocationFailed 13)) sixBytes := by
  refine ⟨?_, ?_, ?_⟩
  · obtain ⟨later, run, -, copied⟩ := (@relocates_intact _ _ sixBytes
      [(⟨0, 4⟩, ⟨2, 4⟩), (⟨2, 4⟩, ⟨6, 5⟩)] 11 _ ⟨by decide, by decide, by decide⟩
      (by simp [Segment.Disjoint, Segment.stop]; omega)).1 _ rfl
    exact ⟨later, run, copied (⟨0, 4⟩, ⟨2, 4⟩) (by simp), copied (⟨2, 4⟩, ⟨6, 5⟩) (by simp)⟩
  · obtain ⟨later, run, size, copied⟩ := (@relocates_intact _ _ sixBytes
      [(⟨4, 2⟩, ⟨0, 2⟩), (⟨0, 1⟩, ⟨2, 1⟩)] 3 _ ⟨by decide, by decide, by decide⟩
      (by simp [Segment.Disjoint, Segment.stop]; omega)).1 _ rfl
    exact ⟨later, run, size, copied (⟨4, 2⟩, ⟨0, 2⟩) (by simp),
      copied (⟨0, 1⟩, ⟨2, 1⟩) (by simp)⟩
  · exact (@relocates_intact _ _ sixBytes [(⟨0, 6⟩, ⟨0, 6⟩)] 13 _
      ⟨by decide, by decide, by decide⟩ (by simp)).2 _ rfl

end PackedStore.Store
