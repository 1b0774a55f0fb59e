/-
This file says what a computed layout of an indexed map looks like. Its segments
follow each other from the header on up to the total length, and each is as long
as its records are. For the capacities that growth can reach, a layout exists and
is far below what a host can be asked for.
-/

import PackedStore.IndexedMap.Layout
import PackedStore.Proofs.Element.Types
import PackedStore.Proofs.Host.Stores
import PackedStore.Proofs.Layout.Refusals

namespace PackedStore

namespace IndexedMap

/-! ### The parts of a shape and of a layout -/

/-- The types of the dimensions, the key in front. -/
def Shape.kinds (shape : Shape) : List KeyType :=
  shape.key :: shape.indices

/-- A shape of well-formed types. -/
structure Shape.WellFormed (shape : Shape) : Prop where
  value : shape.value.WellFormed
  kinds : ∀ kind ∈ shape.kinds, kind.toElementType.WellFormed

/-- A shape of types that a block can hold aligned. -/
structure Shape.Supported (shape : Shape) : Prop where
  value : shape.value.align ≤ blockAlign
  kinds : ∀ kind ∈ shape.kinds, kind.align ≤ blockAlign

/-- The segments of a hash table, in order. -/
def DimensionLayout.segments (layout : DimensionLayout) : List Segment :=
  [layout.keys, layout.next, layout.buckets]

/-- The layouts of the dimensions, the key in front. -/
def Layout.dimensions (layout : Layout) : List DimensionLayout :=
  layout.key :: layout.indices

/-- The segments of a map, in order. -/
def Layout.segments (layout : Layout) : List Segment :=
  layout.header :: layout.values :: layout.dimensions.flatMap DimensionLayout.segments

/-- The segments of a hash table with what they hold. -/
def DimensionLayout.parts (kind : KeyType) (capacity buckets : Nat) (layout : DimensionLayout) :
    List (Segment × Segment.Content) :=
  [(layout.keys, .array capacity kind.toElementType), (layout.next, .array capacity .word32),
    (layout.buckets, .array buckets .word32)]

/-- The segments of a map with what they hold. -/
def Layout.parts (shape : Shape) (capacity buckets : Nat) (layout : Layout) :
    List (Segment × Segment.Content) :=
  (layout.header, .array headerWords .word32) :: (layout.values, .array capacity shape.value) ::
    (shape.kinds.zip layout.dimensions).flatMap fun part => part.2.parts part.1 capacity buckets

/-- The segments of a hash table are as long as its records. -/
structure DimensionLayout.Sized (kind : KeyType) (capacity buckets : Nat)
    (layout : DimensionLayout) : Prop where
  suits : ∀ part ∈ layout.parts kind capacity buckets, part.1.Suits part.2
  keys : layout.keys.length = capacity * kind.size
  next : layout.next.length = capacity * 4
  buckets : layout.buckets.length = buckets * 4

/-- The segments of a map follow each other and are as long as its records. -/
structure Layout.Placed (shape : Shape) (capacity buckets : Nat) (layout : Layout) : Prop where
  supported : shape.Supported
  spans : Segment.Spans 0 layout.total layout.segments
  header : layout.header = ⟨0, headerLength⟩
  values : layout.values.length = capacity * shape.value.size
  length_dimensions : layout.dimensions.length = shape.kinds.length
  sized : ∀ (position : Nat) (kind : KeyType) (dimension : DimensionLayout),
    shape.kinds[position]? = some kind →
    layout.dimensions[position]? = some dimension → dimension.Sized kind capacity buckets
  suits : ∀ part ∈ layout.parts shape capacity buckets, part.1.Suits part.2

variable {capacity buckets : Nat} {before after : Placement}

/-! ### Computed layouts -/

theorem DimensionLayout.run_place {kind : KeyType} (wellFormed : kind.toElementType.WellFormed)
    {layout : DimensionLayout} (run : place capacity buckets kind before = .ok layout after) :
    kind.align ≤ blockAlign ∧ layout.Sized kind capacity buckets ∧
      Segment.Spans before.cursor after.cursor layout.segments := by
  simp only [place, Edit.bind_eq_ok, Edit.run_pure] at run
  obtain ⟨keys, _, runKeys, next, _, runNext, heads, _, runHeads, ⟨⟩⟩ := run
  have word : 0 < ElementType.word32.align := by decide
  have spans := (Placement.spans_arrayOf wellFormed.align_pos runKeys).append
    ((Placement.spans_arrayOf word runNext).append (Placement.spans_arrayOf word runHeads))
  refine ⟨(Placement.run_arrayOf runKeys).1, ⟨?_, ?_, ?_, ?_⟩, spans⟩
  · simp only [parts, List.forall_mem_cons]
    exact ⟨Placement.suits_arrayOf runKeys, Placement.suits_arrayOf runNext,
      Placement.suits_arrayOf runHeads, by simp⟩
  · exact congrArg Segment.length (Placement.run_arrayOf runKeys).2.1
  · exact congrArg Segment.length (Placement.run_arrayOf runNext).2.1
  · exact congrArg Segment.length (Placement.run_arrayOf runHeads).2.1

theorem run_placeAll {kinds : List KeyType}
    (wellFormed : ∀ kind ∈ kinds, kind.toElementType.WellFormed) {layouts : List DimensionLayout}
    (run : kinds.mapM (DimensionLayout.place capacity buckets) before = .ok layouts after) :
    (∀ kind ∈ kinds, kind.align ≤ blockAlign) ∧ layouts.length = kinds.length ∧
      (∀ (position : Nat) (kind : KeyType) (layout : DimensionLayout),
        kinds[position]? = some kind → layouts[position]? = some layout →
        layout.Sized kind capacity buckets) ∧
      Segment.Spans before.cursor after.cursor (layouts.flatMap DimensionLayout.segments) := by
  induction kinds generalizing before layouts with
  | nil =>
    simp only [List.mapM_nil, Edit.run_pure] at run
    cases run
    exact ⟨by simp, rfl, by simp, Nat.le_refl _⟩
  | cons kind kinds inductionHypothesis =>
    simp only [List.mapM_cons, Edit.bind_eq_ok, Edit.run_pure] at run
    obtain ⟨first, _, runFirst, rest, _, runRest, ⟨⟩⟩ := run
    obtain ⟨supported, sized, spans⟩ :=
      DimensionLayout.run_place (wellFormed kind List.mem_cons_self) runFirst
    obtain ⟨supportedRest, length, sizedRest, spansRest⟩ := inductionHypothesis
      (fun other member => wellFormed other (List.mem_cons_of_mem _ member)) runRest
    refine ⟨List.forall_mem_cons.mpr ⟨supported, supportedRest⟩, by simp [length], ?_, ?_⟩
    case refine_2 =>
      rw [List.flatMap_cons]
      exact spans.append spansRest
    intro position other layout thereKind thereLayout
    cases position with
    | zero =>
      obtain rfl : kind = other := by simpa using thereKind
      obtain rfl : first = layout := by simpa using thereLayout
      exact sized
    | succ position =>
      exact sizedRest position other layout (by simpa using thereKind) (by simpa using thereLayout)

/-- A computed layout is placed. -/
theorem Layout.placed_of_compute {shape : Shape} (wellFormed : shape.WellFormed) {layout : Layout}
    (computed : compute shape capacity buckets = .ok layout) :
    layout.Placed shape capacity buckets := by
  unfold compute Placement.total at computed
  split at computed
  · next result placed run =>
    obtain rfl : result placed.cursor = layout := Except.ok.inj computed
    simp only [Edit.bind_eq_ok, Edit.run_pure] at run
    obtain ⟨header, _, runHeader, values, _, runValues, key, _, runKey, indices, _, runIndices,
      ⟨⟩⟩ := run
    have word : 0 < ElementType.word32.align := by decide
    obtain ⟨supportedKey, sizedKey, spansKey⟩ :=
      DimensionLayout.run_place (wellFormed.kinds _ List.mem_cons_self) runKey
    obtain ⟨supportedIndices, length, sizedIndices, spansIndices⟩ := run_placeAll
      (fun kind member => wellFormed.kinds kind (List.mem_cons_of_mem _ member)) runIndices
    have spans := (Placement.spans_arrayOf word runHeader).append
      ((Placement.spans_arrayOf wellFormed.value.align_pos runValues).append
        (spansKey.append spansIndices))
    obtain ⟨supportedValue, placedValues, -⟩ := Placement.run_arrayOf runValues
    have sized (position : Nat) (kind : KeyType) (dimension : DimensionLayout)
        (thereKind : shape.kinds[position]? = some kind)
        (thereDimension : (key :: indices)[position]? = some dimension) :
        dimension.Sized kind capacity buckets := by
      cases position with
      | zero =>
        obtain rfl : shape.key = kind := by simpa [Shape.kinds] using thereKind
        obtain rfl : key = dimension := by simpa using thereDimension
        exact sizedKey
      | succ position =>
        exact sizedIndices position kind dimension (by simpa [Shape.kinds] using thereKind)
          (by simpa using thereDimension)
    refine ⟨⟨supportedValue, List.forall_mem_cons.mpr ⟨supportedKey, supportedIndices⟩⟩, spans,
      (Placement.run_arrayOf runHeader).2.1, congrArg Segment.length placedValues, ?_, sized, ?_⟩
    · simp [Layout.dimensions, Shape.kinds, length]
    · simp only [parts, List.forall_mem_cons, List.mem_flatMap]
      refine ⟨Placement.suits_arrayOf runHeader, Placement.suits_arrayOf runValues, ?_⟩
      rintro part ⟨⟨kind, dimension⟩, inZip, member⟩
      obtain ⟨position, there⟩ := List.getElem?_of_mem inZip
      obtain ⟨thereKind, thereDimension⟩ := List.getElem?_zip_eq_some.mp there
      exact (sized position kind dimension thereKind thereDimension).suits part member
  · exact absurd computed (by simp)

/-- The parts of a placed layout are its segments. -/
theorem Layout.Placed.map_parts {shape : Shape} {layout : Layout}
    (placed : layout.Placed shape capacity buckets) :
    (layout.parts shape capacity buckets).map Prod.fst = layout.segments := by
  have each (kinds : List KeyType) (dimensions : List DimensionLayout)
      (lengths : dimensions.length = kinds.length) :
      ((kinds.zip dimensions).flatMap fun part => part.2.parts part.1 capacity buckets).map
        Prod.fst = dimensions.flatMap DimensionLayout.segments := by
    induction kinds generalizing dimensions with
    | nil => rw [List.length_eq_zero_iff.mp lengths]; rfl
    | cons kind rest inductionHypothesis =>
      cases dimensions with
      | nil => simp at lengths
      | cons dimension others =>
        rw [List.zip_cons_cons, List.flatMap_cons, List.map_append,
          inductionHypothesis others (Nat.succ.inj lengths)]
        rfl
  rw [parts, List.map_cons, List.map_cons, each _ _ placed.length_dimensions]
  rfl

/-! ### Refused layouts -/

section

variable {allowed : Failure → Prop}
  (extent : ∀ what : Quantity, what.IsExtent → allowed (.overflow what))

include extent

theorem DimensionLayout.failsOnly_place {kind : KeyType}
    (alignment : blockAlign < kind.align → allowed (.misuse (.arrayAlignment kind.align))) :
    Placement.FailsOnly allowed (place capacity buckets kind) :=
  (Placement.failsOnly_arrayOf extent _ alignment).bind fun _ =>
    (Placement.failsOnly_word32 extent _).bind fun _ =>
      (Placement.failsOnly_word32 extent _).bind fun _ => .pure _

theorem failsOnly_placeAll {kinds : List KeyType}
    (alignment : ∀ kind ∈ kinds, blockAlign < kind.align →
      allowed (.misuse (.arrayAlignment kind.align))) :
    Placement.FailsOnly allowed (kinds.mapM (DimensionLayout.place capacity buckets)) := by
  induction kinds with
  | nil => exact .pure []
  | cons kind rest inductionHypothesis =>
    rw [List.mapM_cons]
    refine (DimensionLayout.failsOnly_place extent (alignment kind List.mem_cons_self)).bind
      fun first => (inductionHypothesis fun other member => ?_).bind fun rest => .pure _
    exact alignment other (List.mem_cons_of_mem _ member)

/-- Layouts are refused for their size, or for the alignment of a type that no block suits. -/
theorem Layout.failsOnly_compute {shape : Shape}
    (value : blockAlign < shape.value.align → allowed (.misuse (.arrayAlignment shape.value.align)))
    (kinds : ∀ kind ∈ shape.kinds, blockAlign < kind.align →
      allowed (.misuse (.arrayAlignment kind.align))) :
    (compute shape capacity buckets).FailsOnly allowed := by
  obtain ⟨key, indices⟩ := List.forall_mem_cons.mp kinds
  exact Placement.FailsOnly.total ((Placement.failsOnly_word32 extent _).bind fun _ =>
    (Placement.failsOnly_arrayOf extent _ value).bind fun _ =>
      (DimensionLayout.failsOnly_place extent key).bind fun _ =>
        (failsOnly_placeAll extent indices).bind fun _ => .pure _)

end

theorem Layout.documented_compute (shape : Shape) :
    (compute shape capacity buckets).FailsOnly Failure.Documented :=
  failsOnly_compute (fun _ _ => trivial) id fun _ _ => id

/-! ### Layouts that exist -/

/-- The bytes that the links and buckets of a hash table take, with all padding. -/
def linkRoom (capacity buckets : Nat) : Nat :=
  3 * blockAlign + capacity * 4 + buckets * 4

theorem DimensionLayout.place_of {kind : KeyType} (supported : kind.align ≤ blockAlign)
    (fits : before.cursor + linkRoom capacity buckets + capacity * kind.size < sizeLimit) :
    ∃ layout after, place capacity buckets kind before = .ok layout after ∧
      after.cursor ≤ before.cursor + linkRoom capacity buckets + capacity * kind.size := by
  unfold linkRoom at fits ⊢
  obtain ⟨keys, first, runKeys, stopKeys⟩ :=
    @Placement.arrayOf_of capacity before kind.toElementType supported (by omega)
  obtain ⟨next, second, runNext, stopNext⟩ := @Placement.arrayOf_word32 capacity first (by omega)
  obtain ⟨heads, third, runHeads, stopHeads⟩ := @Placement.arrayOf_word32 buckets second (by omega)
  refine ⟨⟨keys, next, heads⟩, third, ?_, by omega⟩
  simp only [place, Edit.run_bind, runKeys, runNext, runHeads, Edit.run_pure]

theorem placeAll_of {kinds : List KeyType} (supported : ∀ kind ∈ kinds, kind.align ≤ blockAlign)
    (fits : before.cursor + kinds.length * linkRoom capacity buckets +
      capacity * (kinds.map fun kind => kind.size).sum < sizeLimit) :
    ∃ layouts after, kinds.mapM (DimensionLayout.place capacity buckets) before =
        .ok layouts after ∧
      after.cursor ≤ before.cursor + kinds.length * linkRoom capacity buckets +
        capacity * (kinds.map fun kind => kind.size).sum := by
  induction kinds generalizing before with
  | nil => exact ⟨[], before, rfl, by simp⟩
  | cons kind kinds inductionHypothesis =>
    rw [List.length_cons, List.map_cons, List.sum_cons, Nat.succ_mul, Nat.mul_add] at fits ⊢
    obtain ⟨first, between, runFirst, stopFirst⟩ :=
      @DimensionLayout.place_of capacity buckets before kind (supported kind List.mem_cons_self)
        (by omega)
    obtain ⟨rest, after, runRest, stopRest⟩ := @inductionHypothesis between
      (fun other member => supported other (List.mem_cons_of_mem _ member)) (by omega)
    refine ⟨first :: rest, after, ?_, by omega⟩
    simp only [List.mapM_cons, Edit.run_bind, runFirst, runRest, Edit.run_pure]

/-- Shapes of a few dimensions and with rows of ordinary size have a layout for every capacity
that growth can reach. -/
theorem Layout.compute_of {shape : Shape} (supported : shape.Supported)
    (few : shape.indices.length ≤ 2) (rowSize : shape.rowSize < 2 ^ 32)
    (bound : capacity ≤ maxCapacity) :
    ∃ layout, compute shape capacity (2 * capacity) = .ok layout ∧ layout.total < lengthLimit := by
  have limits : sizeLimit = 2 ^ 64 ∧ lengthLimit = 2 ^ 62 ∧ blockAlign = 16 ∧ headerWords = 8 ∧
    Placement.start.cursor = 0 := ⟨rfl, rfl, rfl, rfl, rfl⟩
  have rows : capacity * shape.rowSize ≤ 2 ^ 29 * 2 ^ 32 := Nat.mul_le_mul bound (by omega)
  have links : linkRoom capacity (2 * capacity) ≤ 2 ^ 33 := by
    unfold linkRoom
    unfold maxCapacity at bound
    omega
  have manyLinks : shape.indices.length * linkRoom capacity (2 * capacity) ≤ 2 * 2 ^ 33 :=
    Nat.mul_le_mul few links
  rw [Shape.rowSize, Nat.mul_add, Nat.mul_add] at rows
  obtain ⟨header, first, runHeader, stopHeader⟩ :=
    @Placement.arrayOf_word32 headerWords Placement.start (by omega)
  obtain ⟨values, second, runValues, stopValues⟩ :=
    @Placement.arrayOf_of capacity first shape.value supported.value (by omega)
  obtain ⟨key, third, runKey, stopKey⟩ := @DimensionLayout.place_of capacity (2 * capacity) second
    shape.key (supported.kinds _ List.mem_cons_self) (by omega)
  obtain ⟨indices, fourth, runIndices, stopIndices⟩ := @placeAll_of capacity (2 * capacity) third
    shape.indices (fun kind member => supported.kinds kind (List.mem_cons_of_mem _ member))
    (by omega)
  refine ⟨⟨header, values, key, indices, fourth.cursor⟩, ?_, by simp only; omega⟩
  simp only [compute, Placement.total, Edit.run_bind, runHeader, runValues, runKey, runIndices,
    Edit.run_pure]

end IndexedMap

end PackedStore
