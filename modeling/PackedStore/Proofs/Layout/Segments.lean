/-
This file holds the laws of segments that follow each other in a block. Contents
written through such segments all stand in the block afterwards, and every byte
outside of them is what it was. Placing arrays one behind another gives segments
that follow each other up to the final position.
-/

import PackedStore.Layout.Placement
import PackedStore.Proofs.Bytes.Records

namespace PackedStore

namespace Segment

/-- The segments follow each other from a position on and end by another one. -/
def Spans : Nat → Nat → List Segment → Prop
  | position, stop, [] => position ≤ stop
  | position, stop, segment :: rest => position ≤ segment.offset ∧ Spans segment.stop stop rest

theorem Spans.le {position stop : Nat} {segments : List Segment}
    (spans : Spans position stop segments) : position ≤ stop := by
  induction segments generalizing position with
  | nil => exact spans
  | cons segment rest inductionHypothesis =>
    have following := inductionHypothesis spans.2
    have start := spans.1
    simp only [Segment.stop] at following
    omega

theorem Spans.append {position between stop : Nat} {first second : List Segment}
    (left : Spans position between first) (right : Spans between stop second) :
    Spans position stop (first ++ second) := by
  induction first generalizing position with
  | nil =>
    cases second with
    | nil => exact Nat.le_trans left right
    | cons segment rest => exact ⟨Nat.le_trans left right.1, right.2⟩
  | cons segment rest inductionHypothesis => exact ⟨left.1, inductionHypothesis left.2⟩

theorem Spans.mem {position stop : Nat} {segments : List Segment}
    (spans : Spans position stop segments) {segment : Segment} (member : segment ∈ segments) :
    position ≤ segment.offset ∧ segment.stop ≤ stop := by
  induction segments generalizing position with
  | nil => simp at member
  | cons head rest inductionHypothesis =>
    rcases List.mem_cons.mp member with rfl | inRest
    · exact ⟨spans.1, spans.2.le⟩
    · have bounds := inductionHypothesis spans.2 inRest
      have start := spans.1
      refine ⟨?_, bounds.2⟩
      simp only [Segment.stop] at bounds
      omega

theorem Spans.weaken {position lower stop : Nat} {segments : List Segment}
    (spans : Spans position stop segments) (below : lower ≤ position) :
    Spans lower stop segments := by
  cases segments with
  | nil => exact Nat.le_trans below spans
  | cons segment rest => exact ⟨Nat.le_trans below spans.1, spans.2⟩

theorem Spans.sublist {position stop : Nat} {segments some : List Segment}
    (spans : Spans position stop segments) (sublist : some.Sublist segments) :
    Spans position stop some := by
  induction sublist generalizing position with
  | slnil => exact spans
  | cons segment _ inductionHypothesis =>
    have start := spans.1
    exact inductionHypothesis (spans.2.weaken (by simp only [Segment.stop]; omega))
  | cons_cons segment _ inductionHypothesis => exact ⟨spans.1, inductionHypothesis spans.2⟩

/-- One of the segments ends before the other one starts. -/
def Apart (first second : Segment) : Prop :=
  first.stop ≤ second.offset ∨ second.stop ≤ first.offset

theorem Apart.symm {first second : Segment} (apart : first.Apart second) : second.Apart first :=
  Or.symm apart

/-- No position lies in both segments. Segments without bytes have no position, so they may lie
inside another one. -/
def Disjoint (first second : Segment) : Prop :=
  ∀ position, first.offset ≤ position → position < first.stop →
    position < second.offset ∨ second.stop ≤ position

theorem Spans.ordered {position stop : Nat} {segments : List Segment}
    (spans : Spans position stop segments) :
    segments.Pairwise fun first second => first.stop ≤ second.offset := by
  induction segments generalizing position with
  | nil => exact List.Pairwise.nil
  | cons segment rest inductionHypothesis =>
    exact List.Pairwise.cons (fun other member => (spans.2.mem member).1)
      (inductionHypothesis spans.2)

theorem Spans.disjoint {position stop : Nat} {segments : List Segment}
    (spans : Spans position stop segments) : segments.Pairwise Disjoint :=
  spans.ordered.imp fun before _ _ below => Or.inl (Nat.lt_of_lt_of_le below before)

/-! ### Writing through segments -/

/-- Contents no longer than their segments. -/
def Fitted (contents : List (Segment × List UInt8)) : Prop :=
  ∀ entry ∈ contents, entry.2.length ≤ entry.1.length

variable {bytes : Bytes} {contents : List (Segment × List UInt8)}

@[simp] theorem size_writeAll (bytes : Bytes) (contents : List (Segment × List UInt8)) :
    (writeAll bytes contents).size = bytes.size := by
  induction contents generalizing bytes with
  | nil => rfl
  | cons entry rest inductionHypothesis =>
    rw [writeAll, List.foldl_cons, ← writeAll, inductionHypothesis, Bytes.size_patch]

/-- Bytes outside of all segments stay as they were. -/
theorem getElem?_writeAll_outside (fitted : Fitted contents) {place : Nat}
    (outside : ∀ entry ∈ contents, place < entry.1.offset ∨ entry.1.stop ≤ place) :
    (writeAll bytes contents)[place]? = bytes[place]? := by
  induction contents generalizing bytes with
  | nil => rfl
  | cons entry rest inductionHypothesis =>
    have length := fitted entry List.mem_cons_self
    have outsideEntry := outside entry List.mem_cons_self
    simp only [Segment.stop] at outsideEntry
    rw [writeAll, List.foldl_cons, ← writeAll,
      inductionHypothesis (fun other member => fitted other (List.mem_cons_of_mem _ member))
        (fun other member => outside other (List.mem_cons_of_mem _ member)),
      Bytes.getElem?_patch_outside (by omega)]

/-- What is written through disjoint segments stands in the block afterwards. -/
theorem stands_writeAll (disjoint : (contents.map Prod.fst).Pairwise Disjoint)
    (fitted : Fitted contents) (inside : ∀ entry ∈ contents, entry.1.stop ≤ bytes.size)
    {segment : Segment} {content : List UInt8} (member : (segment, content) ∈ contents) :
    Bytes.Stands (writeAll bytes contents) segment.offset content := by
  induction contents generalizing bytes with
  | nil => simp at member
  | cons entry rest inductionHypothesis =>
    have fittedRest : Fitted rest := fun other inRest => fitted other (List.mem_cons_of_mem _ inRest)
    rw [List.map_cons, List.pairwise_cons] at disjoint
    rw [writeAll, List.foldl_cons, ← writeAll]
    rcases List.mem_cons.mp member with rfl | inRest
    · have length : content.length ≤ segment.length := fitted _ List.mem_cons_self
      have bound : segment.offset + segment.length ≤ bytes.size := inside _ List.mem_cons_self
      intro place below
      rw [getElem?_writeAll_outside fittedRest fun other inRest => ?_]
      · have inBlock : segment.offset + content.length ≤ bytes.size := by omega
        exact Bytes.stands_patch inBlock place below
      · refine disjoint.1 other.1 (List.mem_map_of_mem inRest) _ (Nat.le_add_right _ _) ?_
        simp only [Segment.stop]
        omega
    · exact inductionHypothesis disjoint.2 fittedRest
        (fun other inOthers => by
          rw [Bytes.size_patch]
          exact inside other (List.mem_cons_of_mem _ inOthers))
        inRest

/-- Writing what stands in the segments already changes nothing. -/
theorem writeAll_of_stands
    (stands : ∀ entry ∈ contents, Bytes.Stands bytes entry.1.offset entry.2) :
    writeAll bytes contents = bytes := by
  induction contents with
  | nil => rfl
  | cons entry rest inductionHypothesis =>
    rw [writeAll, List.foldl_cons, Bytes.patch_of_stands (stands entry List.mem_cons_self)]
    exact inductionHypothesis fun other member => stands other (List.mem_cons_of_mem _ member)

/-- What a segment inside a block is taken out as stands in it. -/
theorem stands_extract {segment : Segment} :
    Bytes.Stands bytes segment.offset (bytes.extract segment.offset segment.stop).toList := by
  intro position below
  rw [Array.length_toList, Array.size_extract] at below
  simp only [Segment.stop] at below ⊢
  rw [Array.getElem?_toList, Bytes.getElem?_extract_width, if_pos (by omega)]

/-! ### Taking a segment -/

/-- The content of a segment inside a block. -/
theorem slice_of {segment : Segment} (inside : segment.stop ≤ bytes.size) :
    segment.slice bytes = .ok (bytes.extract segment.offset segment.stop) := by
  rw [slice, Bytes.slice?]
  simp only [Segment.stop] at inside ⊢
  rw [if_pos inside]
  rfl

/-- Segments that follow each other inside a block can be taken in order. -/
theorem carveFrom_of_spans {position stop : Nat} {segments : List Segment}
    (spans : Spans position stop segments) (inside : stop ≤ bytes.size) :
    carveFrom bytes position segments =
      .ok (segments.map fun segment => bytes.extract segment.offset segment.stop) := by
  induction segments generalizing position with
  | nil => rfl
  | cons segment rest inductionHypothesis =>
    have within := Nat.le_trans (spans.mem List.mem_cons_self).2 inside
    simp only [carveFrom, demand_of spans.1, slice_of within, inductionHypothesis spans.2,
      Checked.bind_ok]
    rfl

/-! ### What segments hold -/

/-- What a segment is read as: an array of values, or an arena for values of all kinds. -/
inductive Content where
  | array (count : Nat) (type : ElementType)
  | arena (length : Nat)

/-- The segment starts where a block is aligned for its content, and is exactly as long. -/
def Suits (segment : Segment) : Content → Prop
  | .array count type =>
    type.align ≤ blockAlign ∧ type.align ∣ segment.offset ∧ segment.length = count * type.size
  | .arena length => blockAlign ∣ segment.offset ∧ segment.length = length

/-- The parts can be taken out of the block in order, and each suits what it holds. -/
structure Carved (bytes : Bytes) (parts : List (Segment × Content)) : Prop where
  carve : ∃ slices, carve bytes (parts.map Prod.fst) = .ok slices
  suits : ∀ part ∈ parts, part.1.Suits part.2

theorem carved_of_spans {parts : List (Segment × Content)} {stop : Nat}
    (spans : Spans 0 stop (parts.map Prod.fst)) (inside : stop ≤ bytes.size)
    (suits : ∀ part ∈ parts, part.1.Suits part.2) : Carved bytes parts :=
  ⟨⟨_, carveFrom_of_spans spans inside⟩, suits⟩

end Segment

namespace Placement

/-! ### Placing segments -/

/-- The next multiple of an alignment. -/
def raise (value align : Nat) : Nat :=
  value + (align - 1) - (value + (align - 1)) % align

variable {value align length count : Nat} {segment : Segment} {before after : Placement}

theorem le_raise (positive : 0 < align) : value ≤ raise value align := by
  have remainder := Nat.mod_lt (value + (align - 1)) positive
  unfold raise
  omega

theorem raise_le : raise value align ≤ value + (align - 1) :=
  Nat.sub_le _ _

theorem dvd_raise : align ∣ raise value align :=
  Nat.dvd_sub_mod _

/-- No multiple of the alignment lies between. -/
theorem raise_le_of_dvd {multiple : Nat} (positive : 0 < align) (above : value ≤ multiple)
    (divides : align ∣ multiple) : raise value align ≤ multiple := by
  obtain ⟨factor, rfl⟩ := divides
  have below : value + (align - 1) < align * (factor + 1) := by
    rw [Nat.mul_succ]
    omega
  have quotient : (value + (align - 1)) / align ≤ factor :=
    Nat.lt_succ_iff.mp (Nat.div_lt_of_lt_mul below)
  have remainder := Nat.div_add_mod (value + (align - 1)) align
  have product := Nat.mul_le_mul_left align quotient
  unfold raise
  omega

theorem raise_mono {larger : Nat} (positive : 0 < align) (grows : value ≤ larger) :
    raise value align ≤ raise larger align :=
  raise_le_of_dvd positive (Nat.le_trans grows (le_raise positive)) dvd_raise

theorem alignUp?_eq_some {offset : Nat} :
    alignUp? value align = some offset ↔
      value + (align - 1) < sizeLimit ∧ offset = raise value align := by
  rw [alignUp?, Option.map_eq_some_iff]
  constructor
  · rintro ⟨raised, sized, rfl⟩
    obtain ⟨bound, rfl⟩ := size?_eq_some_iff.mp sized
    exact ⟨bound, rfl⟩
  · rintro ⟨bound, rfl⟩
    exact ⟨_, size?_eq_some_iff.mpr ⟨bound, rfl⟩, rfl⟩

/-- A placement that succeeds puts the segment at the next multiple of its alignment and moves
the cursor behind it. -/
theorem run_place (run : place length align before = .ok segment after) :
    segment = ⟨raise before.cursor align, length⟩ ∧ after.cursor = segment.stop := by
  simp only [place, Edit.bind_eq_ok, Edit.lift_eq_ok, orFail_eq_ok, Edit.run_get, Edit.run_set,
    Edit.run_pure] at run
  obtain ⟨_, _, ⟨⟩, offset, _, ⟨raised, rfl⟩, stop, _, ⟨stopped, rfl⟩, _, _, ⟨⟩, ⟨⟩⟩ := run
  obtain ⟨-, rfl⟩ := alignUp?_eq_some.mp raised
  obtain ⟨-, rfl⟩ := size?_eq_some_iff.mp stopped
  exact ⟨rfl, rfl⟩

/-- A placement succeeds if the segment fits into the sizes with any padding. -/
theorem place_of (fits : before.cursor + (align - 1) + length < sizeLimit) :
    place length align before =
      .ok ⟨raise before.cursor align, length⟩ ⟨raise before.cursor align + length⟩ := by
  have padding : raise before.cursor align ≤ before.cursor + (align - 1) := raise_le
  have raised : alignUp? before.cursor align = some (raise before.cursor align) :=
    alignUp?_eq_some.mpr ⟨by omega, rfl⟩
  have stopped : size? (raise before.cursor align + length) =
      some (raise before.cursor align + length) :=
    size?_eq_some_iff.mpr ⟨by omega, rfl⟩
  simp only [place, Edit.run_bind, Edit.run_get, raised, stopped, orFail, Edit.run_lift_ok,
    Edit.run_set, Edit.run_pure]

/-- An array that was placed has a supported alignment and starts at its next multiple. -/
theorem run_arrayOf {type : ElementType} (run : arrayOf count type before = .ok segment after) :
    type.align ≤ blockAlign ∧ segment = ⟨raise before.cursor type.align, count * type.size⟩ ∧
      after.cursor = segment.stop := by
  simp only [arrayOf, array, Edit.bind_eq_ok, Edit.lift_eq_ok, orFail_eq_ok, demand_eq_ok] at run
  obtain ⟨_, _, ⟨supported, rfl⟩, length, _, ⟨sized, rfl⟩, run⟩ := run
  obtain ⟨-, rfl⟩ := size?_eq_some_iff.mp sized
  exact ⟨supported, run_place run⟩

/-- A placed array can be read as what it was placed for. -/
theorem suits_arrayOf {type : ElementType} (run : arrayOf count type before = .ok segment after) :
    segment.Suits (.array count type) := by
  obtain ⟨supported, rfl, -⟩ := run_arrayOf run
  exact ⟨supported, dvd_raise, rfl⟩

theorem suits_arena (run : arena length before = .ok segment after) :
    segment.Suits (.arena length) := by
  obtain ⟨rfl, -⟩ := run_place run
  exact ⟨dvd_raise, rfl⟩

/-- Placed arrays follow each other. -/
theorem spans_arrayOf {type : ElementType} (positive : 0 < type.align)
    (run : arrayOf count type before = .ok segment after) :
    Segment.Spans before.cursor after.cursor [segment] := by
  obtain ⟨-, rfl, stop⟩ := run_arrayOf run
  exact ⟨le_raise positive, by rw [stop]; exact Nat.le_refl _⟩

/-- An array that fits into the sizes with the largest padding can be placed. -/
theorem arrayOf_of {type : ElementType} (supported : type.align ≤ blockAlign)
    (fits : before.cursor + blockAlign + count * type.size < sizeLimit) :
    ∃ segment after, arrayOf count type before = .ok segment after ∧
      after.cursor ≤ before.cursor + blockAlign + count * type.size := by
  have padding : raise before.cursor type.align ≤ before.cursor + (type.align - 1) := raise_le
  have sized : size? (count * type.size) = some (count * type.size) :=
    size?_eq_some_iff.mpr ⟨by omega, rfl⟩
  have run : arrayOf count type before =
      .ok ⟨raise before.cursor type.align, count * type.size⟩
        ⟨raise before.cursor type.align + count * type.size⟩ := by
    simp only [arrayOf, array, Edit.run_bind, demand_of supported, Edit.run_lift_ok, sized, orFail]
    exact place_of (by omega)
  refine ⟨_, _, run, ?_⟩
  simp only
  omega

theorem arrayOf_word32 (fits : before.cursor + blockAlign + count * 4 < sizeLimit) :
    ∃ segment after, arrayOf count .word32 before = .ok segment after ∧
      after.cursor ≤ before.cursor + blockAlign + count * 4 :=
  arrayOf_of (by decide) fits

end Placement

theorem recorded_eq_ok {α : Type} {layout : Checked α} {result : α} :
    recorded layout = .ok result ↔ layout = .ok result := by
  cases layout <;> simp [recorded]

end PackedStore
