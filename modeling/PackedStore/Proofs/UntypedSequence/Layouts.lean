/-
This file says what a computed layout of an untyped sequence looks like. Behind
the header stand four arrays of words, one record per element, and the arena comes
last, so layouts that differ in the arena only agree on all other segments. For
the capacities that growth can reach, a layout exists.
-/

import PackedStore.Proofs.Host.Stores
import PackedStore.Proofs.Layout.Growth
import PackedStore.Proofs.Layout.Refusals
import PackedStore.UntypedSequence.Layout

namespace PackedStore.UntypedSequence

variable {capacity dataCapacity : Nat} {layout : Layout}

/-- The segments of a sequence, in order. -/
def Layout.segments (layout : Layout) : List Segment :=
  [layout.header, layout.offsets, layout.sizes, layout.types, layout.aligns, layout.data]

/-- The segments of a sequence with what they hold. -/
def Layout.parts (capacity dataCapacity : Nat) (layout : Layout) :
    List (Segment × Segment.Content) :=
  [(layout.header, .array headerWords .word32), (layout.offsets, .array capacity .word32),
    (layout.sizes, .array capacity .word32), (layout.types, .array capacity .word32),
    (layout.aligns, .array capacity .word32), (layout.data, .arena dataCapacity)]

/-- The segments of a sequence follow each other and are as long as its records. -/
structure Layout.Placed (capacity dataCapacity : Nat) (layout : Layout) : Prop where
  spans : Segment.Spans 0 layout.total layout.segments
  suits : ∀ part ∈ layout.parts capacity dataCapacity, part.1.Suits part.2
  header : layout.header = ⟨0, headerLength⟩
  offsets : layout.offsets.length = capacity * 4
  sizes : layout.sizes.length = capacity * 4
  types : layout.types.length = capacity * 4
  aligns : layout.aligns.length = capacity * 4
  data : layout.data.length = dataCapacity
  start : blockAlign ∣ layout.data.offset

namespace Layout.Placed

variable (placed : layout.Placed capacity dataCapacity)

include placed

theorem stop_le {segment : Segment} (member : segment ∈ layout.segments) :
    segment.stop ≤ layout.total :=
  (placed.spans.mem member).2

theorem header_le : headerLength ≤ layout.total := by
  have stop := placed.stop_le List.mem_cons_self
  rw [placed.header] at stop
  exact Nat.le_trans (Nat.le_of_eq (Nat.zero_add _).symm) stop

/-- All segments but the header lie behind the header. -/
theorem header_before {segment : Segment} (member : segment ∈ layout.segments.tail) :
    headerLength ≤ segment.offset := by
  have start := (placed.spans.2.mem member).1
  rw [placed.header] at start
  exact Nat.le_trans (Nat.le_of_eq (Nat.zero_add _).symm) start

end Layout.Placed

/-! ### Computed layouts -/

/-- A computed layout is placed. -/
theorem Layout.placed_of_compute (computed : compute capacity dataCapacity = .ok layout) :
    layout.Placed capacity dataCapacity := by
  unfold compute Placement.total at computed
  split at computed
  · next result placed run =>
    obtain rfl : result placed.cursor = layout := Except.ok.inj computed
    simp only [Edit.bind_eq_ok, Edit.run_pure] at run
    obtain ⟨header, _, runHeader, offsets, _, runOffsets, sizes, _, runSizes, types, _, runTypes,
      aligns, _, runAligns, data, _, runData, ⟨⟩⟩ := run
    have word : 0 < ElementType.word32.align := by decide
    have suitsData := Placement.suits_arena runData
    obtain ⟨rfl, stop⟩ := Placement.run_place runData
    have front := (Placement.spans_arrayOf word runHeader).append
      ((Placement.spans_arrayOf word runOffsets).append (Placement.spans_arrayOf word runSizes))
    have back := (Placement.spans_arrayOf word runTypes).append
      (Placement.spans_arrayOf word runAligns)
    have last : Segment.Spans _ placed.cursor [_] :=
      ⟨Placement.le_raise (show 0 < blockAlign by decide), Nat.le_of_eq stop.symm⟩
    refine ⟨front.append (back.append last), ?_, (Placement.run_arrayOf runHeader).2.1, ?_, ?_, ?_,
      ?_, rfl, Placement.dvd_raise⟩
    · simp only [parts, List.forall_mem_cons]
      exact ⟨Placement.suits_arrayOf runHeader, Placement.suits_arrayOf runOffsets,
        Placement.suits_arrayOf runSizes, Placement.suits_arrayOf runTypes,
        Placement.suits_arrayOf runAligns, suitsData, by simp⟩
    · exact congrArg Segment.length (Placement.run_arrayOf runOffsets).2.1
    · exact congrArg Segment.length (Placement.run_arrayOf runSizes).2.1
    · exact congrArg Segment.length (Placement.run_arrayOf runTypes).2.1
    · exact congrArg Segment.length (Placement.run_arrayOf runAligns).2.1
  · exact absurd computed (by simp)

/-- The layout with another arena. -/
def Layout.withData (layout : Layout) (dataCapacity : Nat) : Layout :=
  { layout with
    data := ⟨layout.data.offset, dataCapacity⟩
    total := layout.data.offset + dataCapacity }

/-- Layouts that differ in the arena only agree on all other segments. -/
theorem Layout.compute_withData {more : Nat} {other : Layout}
    (computed : compute capacity dataCapacity = .ok layout)
    (computedOther : compute capacity more = .ok other) : other = layout.withData more := by
  unfold compute Placement.total at computed computedOther
  split at computed
  · next result placed run =>
    obtain rfl : result placed.cursor = layout := Except.ok.inj computed
    split at computedOther
    · next resultOther placedOther runOther =>
      obtain rfl : resultOther placedOther.cursor = other := Except.ok.inj computedOther
      simp only [Edit.bind_eq_ok, Edit.run_pure] at run runOther
      obtain ⟨header, _, runHeader, offsets, _, runOffsets, sizes, _, runSizes, types, _, runTypes,
        aligns, _, runAligns, data, _, runData, ⟨⟩⟩ := run
      obtain ⟨header', _, runHeader', offsets', _, runOffsets', sizes', _, runSizes', types', _,
        runTypes', aligns', _, runAligns', data', _, runData', ⟨⟩⟩ := runOther
      cases runHeader.symm.trans runHeader'
      cases runOffsets.symm.trans runOffsets'
      cases runSizes.symm.trans runSizes'
      cases runTypes.symm.trans runTypes'
      cases runAligns.symm.trans runAligns'
      obtain ⟨rfl, -⟩ := Placement.run_place runData
      obtain ⟨rfl, stop⟩ := Placement.run_place runData'
      rw [stop]
      rfl
    · exact absurd computedOther (by simp)
  · exact absurd computed (by simp)

/-! ### Layouts that exist -/

/-- Layouts are refused for their size only. -/
theorem Layout.bounded_compute : (compute capacity dataCapacity).Bounded := by
  have extent (what : Quantity) (_ : what.IsExtent) := Failure.isStorage_overflow what
  have words (count : Nat) := Placement.failsOnly_word32 extent count
  refine Placement.FailsOnly.total ((words _).bind fun header => (words _).bind fun offsets =>
    (words _).bind fun sizes => (words _).bind fun types => (words _).bind fun aligns => ?_)
  exact (Placement.failsOnly_place extent _ _).bind fun data => .pure _

/-- There is a layout for every capacity that growth can reach. -/
theorem Layout.compute_of (bound : capacity ≤ maxCapacity) (dataBound : dataCapacity ≤ maxCapacity) :
    ∃ layout, compute capacity dataCapacity = .ok layout ∧ layout.total < lengthLimit := by
  have limits : sizeLimit = 2 ^ 64 ∧ lengthLimit = 2 ^ 62 ∧ blockAlign = 16 ∧ headerWords = 8 ∧
    Placement.start.cursor = 0 := ⟨rfl, rfl, rfl, rfl, rfl⟩
  unfold maxCapacity at bound dataBound
  obtain ⟨header, first, runHeader, stopHeader⟩ :=
    @Placement.arrayOf_word32 headerWords Placement.start (by omega)
  obtain ⟨offsets, second, runOffsets, stopOffsets⟩ :=
    @Placement.arrayOf_word32 capacity first (by omega)
  obtain ⟨sizes, third, runSizes, stopSizes⟩ := @Placement.arrayOf_word32 capacity second (by omega)
  obtain ⟨types, fourth, runTypes, stopTypes⟩ := @Placement.arrayOf_word32 capacity third (by omega)
  obtain ⟨aligns, fifth, runAligns, stopAligns⟩ :=
    @Placement.arrayOf_word32 capacity fourth (by omega)
  have padding : Placement.raise fifth.cursor blockAlign ≤ fifth.cursor + (blockAlign - 1) :=
    Placement.raise_le
  have runData := @Placement.place_of blockAlign dataCapacity fifth (by omega)
  refine ⟨⟨header, offsets, sizes, types, aligns,
    ⟨Placement.raise fifth.cursor blockAlign, dataCapacity⟩,
    Placement.raise fifth.cursor blockAlign + dataCapacity⟩, ?_, by simp only; omega⟩
  simp only [compute, Placement.total, Placement.arena, Edit.run_bind, runHeader, runOffsets, runSizes,
    runTypes, runAligns, runData, Edit.run_pure]

end PackedStore.UntypedSequence
