/-
This file says what a computed layout of an untyped map looks like. Its segments
follow each other from the header on, each as long as its records are, and the
arena comes last, so layouts that differ in the arena only agree on all other
segments. For the capacities that growth can reach, a layout exists.
-/

import PackedStore.Proofs.Element.Types
import PackedStore.Proofs.Host.Stores
import PackedStore.Proofs.Layout.Refusals
import PackedStore.UntypedMap.Layout

namespace PackedStore.UntypedMap

variable {key : ElementType} {capacity buckets dataCapacity : Nat} {layout : Layout}

/-- The segments of a map, in order. -/
def Layout.segments (layout : Layout) : List Segment :=
  [layout.header, layout.values, layout.keys, layout.next, layout.buckets, layout.types,
    layout.sizes, layout.data]

/-- The segments of a map with what they hold. -/
def Layout.parts (key : ElementType) (capacity buckets dataCapacity : Nat) (layout : Layout) :
    List (Segment × Segment.Content) :=
  [(layout.header, .array headerWords .word32), (layout.values, .array capacity .word32),
    (layout.keys, .array capacity key), (layout.next, .array capacity .word32),
    (layout.buckets, .array buckets .word32), (layout.types, .array capacity .word32),
    (layout.sizes, .array capacity .word16), (layout.data, .arena (dataCapacity * 4))]

/-- The segments of a map follow each other and are as long as its records. -/
structure Layout.Placed (key : ElementType) (capacity buckets dataCapacity : Nat)
    (layout : Layout) : Prop where
  supported : key.align ≤ blockAlign
  spans : Segment.Spans 0 layout.total layout.segments
  suits : ∀ part ∈ layout.parts key capacity buckets dataCapacity, part.1.Suits part.2
  header : layout.header = ⟨0, headerLength⟩
  values : layout.values.length = capacity * 4
  keys : layout.keys.length = capacity * key.size
  next : layout.next.length = capacity * 4
  buckets : layout.buckets.length = buckets * 4
  types : layout.types.length = capacity * 4
  sizes : layout.sizes.length = capacity * 2
  data : layout.data.length = dataCapacity * 4
  start : blockAlign ∣ layout.data.offset

/-! ### Computed layouts -/

/-- A computed layout is placed. -/
theorem Layout.placed_of_compute (wellFormed : key.WellFormed)
    (computed : compute key capacity buckets dataCapacity = .ok layout) :
    layout.Placed key capacity buckets dataCapacity := by
  unfold compute Placement.total at computed
  split at computed
  · next result placed run =>
    obtain rfl : result placed.cursor = layout := Except.ok.inj computed
    simp only [Edit.bind_eq_ok, Edit.lift_eq_ok, orFail_eq_ok, Edit.run_pure] at run
    obtain ⟨header, _, runHeader, values, _, runValues, keys, _, runKeys, next, _, runNext, heads, _,
      runHeads, types, _, runTypes, sizes, _, runSizes, length, _, ⟨sized, rfl⟩, data, _, runData,
      ⟨⟩⟩ := run
    have word : 0 < ElementType.word32.align := by decide
    have half : 0 < ElementType.word16.align := by decide
    obtain ⟨-, rfl⟩ := size?_eq_some_iff.mp sized
    have suitsData := Placement.suits_arena runData
    obtain ⟨rfl, stop⟩ := Placement.run_place runData
    have front := (Placement.spans_arrayOf word runHeader).append
      ((Placement.spans_arrayOf word runValues).append
        ((Placement.spans_arrayOf wellFormed.align_pos runKeys).append
          (Placement.spans_arrayOf word runNext)))
    have back := (Placement.spans_arrayOf word runHeads).append
      ((Placement.spans_arrayOf word runTypes).append (Placement.spans_arrayOf half runSizes))
    have last : Segment.Spans _ placed.cursor [_] :=
      ⟨Placement.le_raise (show 0 < blockAlign by decide), Nat.le_of_eq stop.symm⟩
    have spans := front.append (back.append last)
    refine ⟨(Placement.run_arrayOf runKeys).1, spans, ?_, (Placement.run_arrayOf runHeader).2.1, ?_,
      ?_, ?_, ?_, ?_, ?_, rfl, Placement.dvd_raise⟩
    · simp only [parts, List.forall_mem_cons]
      exact ⟨Placement.suits_arrayOf runHeader, Placement.suits_arrayOf runValues,
        Placement.suits_arrayOf runKeys, Placement.suits_arrayOf runNext,
        Placement.suits_arrayOf runHeads, Placement.suits_arrayOf runTypes,
        Placement.suits_arrayOf runSizes, suitsData, by simp⟩
    · exact congrArg Segment.length (Placement.run_arrayOf runValues).2.1
    · exact congrArg Segment.length (Placement.run_arrayOf runKeys).2.1
    · exact congrArg Segment.length (Placement.run_arrayOf runNext).2.1
    · exact congrArg Segment.length (Placement.run_arrayOf runHeads).2.1
    · exact congrArg Segment.length (Placement.run_arrayOf runTypes).2.1
    · exact congrArg Segment.length (Placement.run_arrayOf runSizes).2.1
  · exact absurd computed (by simp)

/-- The layout with another arena. -/
def Layout.withData (layout : Layout) (dataCapacity : Nat) : Layout :=
  { layout with
    data := ⟨layout.data.offset, dataCapacity * 4⟩
    total := layout.data.offset + dataCapacity * 4 }

/-- Layouts that differ in the arena only agree on all other segments. -/
theorem Layout.compute_withData {more : Nat} {other : Layout}
    (computed : compute key capacity buckets dataCapacity = .ok layout)
    (computedOther : compute key capacity buckets more = .ok other) :
    other = layout.withData more := by
  unfold compute Placement.total at computed computedOther
  split at computed
  · next result placed run =>
    obtain rfl : result placed.cursor = layout := Except.ok.inj computed
    split at computedOther
    · next resultOther placedOther runOther =>
      obtain rfl : resultOther placedOther.cursor = other := Except.ok.inj computedOther
      simp only [Edit.bind_eq_ok, Edit.lift_eq_ok, orFail_eq_ok, Edit.run_pure] at run runOther
      obtain ⟨header, _, runHeader, values, _, runValues, keys, _, runKeys, next, _, runNext, heads,
        _, runHeads, types, _, runTypes, sizes, _, runSizes, length, _, ⟨sized, rfl⟩, data, _,
        runData, ⟨⟩⟩ := run
      obtain ⟨header', _, runHeader', values', _, runValues', keys', _, runKeys', next', _, runNext',
        heads', _, runHeads', types', _, runTypes', sizes', _, runSizes', length', _,
        ⟨sized', rfl⟩, data', _, runData', ⟨⟩⟩ := runOther
      cases runHeader.symm.trans runHeader'
      cases runValues.symm.trans runValues'
      cases runKeys.symm.trans runKeys'
      cases runNext.symm.trans runNext'
      cases runHeads.symm.trans runHeads'
      cases runTypes.symm.trans runTypes'
      cases runSizes.symm.trans runSizes'
      obtain ⟨-, rfl⟩ := size?_eq_some_iff.mp sized
      obtain ⟨-, rfl⟩ := size?_eq_some_iff.mp sized'
      obtain ⟨rfl, -⟩ := Placement.run_place runData
      obtain ⟨rfl, stop⟩ := Placement.run_place runData'
      rw [stop]
      rfl
    · exact absurd computedOther (by simp)
  · exact absurd computed (by simp)

/-! ### Layouts that exist -/

/-- Layouts are refused for their size, or for the alignment of a key type that no block suits. -/
theorem Layout.failsOnly_compute {allowed : Failure → Prop}
    (extent : ∀ what : Quantity, what.IsExtent → allowed (.overflow what))
    (alignment : blockAlign < key.align → allowed (.misuse (.arrayAlignment key.align))) :
    (compute key capacity buckets dataCapacity).FailsOnly allowed := by
  have words (count : Nat) := Placement.failsOnly_word32 extent count
  have halves := Placement.failsOnly_arrayOf extent capacity
    (fun large => absurd large (show ¬ blockAlign < ElementType.word16.align by decide))
  refine Placement.FailsOnly.total ((words _).bind fun header => (words _).bind fun values =>
    (Placement.failsOnly_arrayOf extent _ alignment).bind fun keys => (words _).bind fun next =>
    (words _).bind fun heads => (words _).bind fun types => halves.bind fun sizes =>
    (Placement.failsOnly_orFail extent _ .arenaSize trivial).bind fun length => ?_)
  exact (Placement.failsOnly_place extent _ _).bind fun data => .pure _

/-- There is a layout for every capacity that growth can reach. -/
theorem Layout.compute_of (supported : key.align ≤ blockAlign) (small : key.size < 2 ^ 32)
    (bound : capacity ≤ maxCapacity) (dataBound : dataCapacity ≤ maxCapacity) :
    ∃ layout, compute key capacity (2 * capacity) dataCapacity = .ok layout ∧
      layout.total < lengthLimit := by
  have limits : sizeLimit = 2 ^ 64 ∧ lengthLimit = 2 ^ 62 ∧ blockAlign = 16 ∧ headerWords = 8 ∧
    Placement.start.cursor = 0 := ⟨rfl, rfl, rfl, rfl, rfl⟩
  have keyRoom : capacity * key.size ≤ 2 ^ 29 * 2 ^ 32 := Nat.mul_le_mul bound (by omega)
  unfold maxCapacity at bound dataBound
  obtain ⟨header, first, runHeader, stopHeader⟩ :=
    @Placement.arrayOf_word32 headerWords Placement.start (by omega)
  obtain ⟨values, second, runValues, stopValues⟩ :=
    @Placement.arrayOf_word32 capacity first (by omega)
  obtain ⟨keys, third, runKeys, stopKeys⟩ :=
    @Placement.arrayOf_of capacity second key supported (by omega)
  obtain ⟨next, fourth, runNext, stopNext⟩ := @Placement.arrayOf_word32 capacity third (by omega)
  obtain ⟨heads, fifth, runHeads, stopHeads⟩ :=
    @Placement.arrayOf_word32 (2 * capacity) fourth (by omega)
  obtain ⟨types, sixth, runTypes, stopTypes⟩ := @Placement.arrayOf_word32 capacity fifth (by omega)
  have halves : capacity * ElementType.word16.size = capacity * 2 := rfl
  obtain ⟨sizes, seventh, runSizes, stopSizes⟩ :=
    @Placement.arrayOf_of capacity sixth ElementType.word16 (by decide) (by omega)
  have sized : size? (dataCapacity * 4) = some (dataCapacity * 4) :=
    size?_eq_some_iff.mpr ⟨by omega, rfl⟩
  have padding : Placement.raise seventh.cursor blockAlign ≤ seventh.cursor + (blockAlign - 1) :=
    Placement.raise_le
  have runData := @Placement.place_of blockAlign (dataCapacity * 4) seventh (by omega)
  refine ⟨⟨header, values, keys, next, heads, types, sizes,
    ⟨Placement.raise seventh.cursor blockAlign, dataCapacity * 4⟩,
    Placement.raise seventh.cursor blockAlign + dataCapacity * 4⟩, ?_, by simp only; omega⟩
  simp only [compute, Placement.total, Placement.arena, Edit.run_bind, runHeader, runValues, runKeys,
    runNext, runHeads, runTypes, runSizes, sized, orFail, Edit.run_lift_ok, runData, Edit.run_pure]

end PackedStore.UntypedMap
