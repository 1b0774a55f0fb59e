/-
This file says that taking segments in order is exact. A carver keeps what is left of
the block behind the segment taken last. Taking the next one splits the bytes in front
of it and its own bytes off the rest, so nothing is handed out twice, and the pieces
one behind another are the block. Putting them together again with new contents in
place of the taken ones is therefore the same as writing these contents into the block
where the segments lie.
-/

import Mathlib.Data.List.Chain
import Mathlib.Data.List.Forall2
import PackedStore.Proofs.Layout.Segments

namespace PackedStore

/-! ### Splitting a block -/

namespace Bytes

variable {bytes front content back : Bytes} {length : Nat}

/-- The first bytes of a block and those behind them, if there are as many. -/
def splitAt? (bytes : Bytes) (length : Nat) : Option (Bytes × Bytes) :=
  if length ≤ bytes.size then
    some (bytes.extract 0 length, bytes.extract length bytes.size)
  else none

theorem splitAt?_eq_some :
    bytes.splitAt? length = some (front, back) ↔ front.size = length ∧ bytes = front ++ back := by
  constructor
  · intro split
    by_cases inside : length ≤ bytes.size
    · rw [splitAt?, if_pos inside, Option.some.injEq, Prod.mk.injEq] at split
      obtain ⟨rfl, rfl⟩ := split
      exact ⟨by simp [inside], by simp [inside]⟩
    · rw [splitAt?, if_neg inside] at split
      exact nomatch split
  · rintro ⟨rfl, rfl⟩
    rw [splitAt?, if_pos (by simp)]
    simp [Array.extract_append]

theorem splitAt?_eq_none : bytes.splitAt? length = none ↔ bytes.size < length := by
  rw [splitAt?, ite_eq_right_iff]
  simp

/-- The bytes between two others are a slice of the block. -/
theorem extract_between :
    (front ++ content ++ back).extract front.size (front.size + content.size) = content := by
  refine Array.ext_getElem? fun position => ?_
  rw [getElem?_extract_width]
  grind

/-- Writing over the bytes between two others replaces them. -/
theorem patch_between {replacement : List UInt8} (same : replacement.length = content.size) :
    (front ++ content ++ back).patch front.size replacement =
      front ++ replacement.toArray ++ back := by
  refine Array.ext_getElem? fun position => ?_
  rw [getElem?_patch]
  grind

end Bytes

namespace Segment

variable {bytes : Bytes} {segments : List Segment} {contents : List (List UInt8)}
  {position stop : Nat}

/-! ### Segments in order -/

/-- Segments each of which starts behind the one before it and ends by a position follow each other
up to that position. -/
theorem spans_of_isChain
    (chain : segments.IsChain fun earlier later => earlier.stop ≤ later.offset)
    (inside : ∀ segment ∈ segments, segment.stop ≤ stop)
    (first : ∀ segment ∈ segments.head?, position ≤ segment.offset) (le : position ≤ stop) :
    Spans position stop segments := by
  induction segments generalizing position with
  | nil => exact le
  | cons segment rest inductionHypothesis =>
    obtain ⟨next, chain⟩ := List.isChain_cons.mp chain
    exact ⟨first segment rfl, inductionHypothesis chain
      (fun other member => inside other (List.mem_cons_of_mem _ member)) next
      (inside segment List.mem_cons_self)⟩

theorem spans_iff : Spans 0 stop segments ↔
    segments.IsChain (fun earlier later => earlier.stop ≤ later.offset) ∧
      ∀ segment ∈ segments, segment.stop ≤ stop :=
  ⟨fun spans => ⟨spans.ordered.isChain, fun _ member => (spans.mem member).2⟩,
    fun both => spans_of_isChain both.1 both.2 (fun _ _ => Nat.zero_le _) (Nat.zero_le _)⟩

/-- One content for each segment, as long as the segment. -/
def Fitting (segments : List Segment) (contents : List (List UInt8)) : Prop :=
  List.Forall₂ (fun segment content => content.length = segment.length) segments contents

/-- A block in which contents stand in segments, and everything else is what it was before. -/
structure Overwrites (bytes : Bytes) (segments : List Segment) (contents : List (List UInt8))
    (later : Bytes) : Prop where
  size : later.size = bytes.size
  inside : ∀ entry ∈ segments.zip contents,
    later.extract entry.1.offset entry.1.stop = entry.2.toArray
  outside : ∀ place, (∀ segment ∈ segments, place < segment.offset ∨ segment.stop ≤ place) →
    later[place]? = bytes[place]?

theorem Fitting.length_eq (fitting : Fitting segments contents) {entry : Segment × List UInt8}
    (member : entry ∈ segments.zip contents) : entry.2.length = entry.1.length :=
  (List.forall₂_iff_zip.mp fitting).2 member

/-- Contents written through segments that follow each other stand in the block, with its old bytes
around them. -/
theorem overwrites_writeAll (spans : Spans 0 bytes.size segments)
    (fitting : Fitting segments contents) :
    Overwrites bytes segments contents (writeAll bytes (segments.zip contents)) := by
  have fitted : Fitted (segments.zip contents) := fun entry member =>
    Nat.le_of_eq (fitting.length_eq member)
  have segmentOf (entry) (member : entry ∈ segments.zip contents) : entry.1 ∈ segments :=
    (List.of_mem_zip member).1
  have disjoint : ((segments.zip contents).map Prod.fst).Pairwise Disjoint := by
    rw [List.map_fst_zip (Nat.le_of_eq (List.Forall₂.length_eq fitting))]
    exact spans.disjoint
  refine ⟨size_writeAll .., fun entry member => ?_, fun place outside => ?_⟩
  · have stands := stands_writeAll disjoint fitted
      (fun other inBlock => (spans.mem (segmentOf other inBlock)).2) member
    have sized : entry.2.toArray.size = entry.1.length := fitting.length_eq member
    rw [Segment.stop, ← sized]
    exact stands.extract_eq
  · exact getElem?_writeAll_outside fitted fun entry member => outside entry.1 (segmentOf entry member)

end Segment

/-! ### Taking one segment -/

/-- What is left of a block behind the segment taken last. -/
structure Carver where
  rest : Bytes
  /-- Where the rest starts in the block. -/
  position : Nat

/-- Nothing is taken yet. -/
def Carver.start (bytes : Bytes) : Carver := ⟨bytes, 0⟩

/-- What taking a segment splits off the rest. -/
structure Cut where
  /-- The bytes in front of the segment. -/
  gap : Bytes
  content : Bytes

/-- The piece with another content in place of its own. -/
def Cut.fill (cut : Cut) (content : List UInt8) : Cut :=
  { cut with content := content.toArray }

namespace Carver

variable {front : Bytes} {carver between later : Carver} {segment : Segment}
  {segments : List Segment} {cut : Cut} {cuts : List Cut} {contents : List (List UInt8)}

/-- Takes a segment, which must not start before the rest. The rest is given up to be split, so
nothing is left of it where it is too short. -/
def take (segment : Segment) : Edit Carver Cut := do
  let carver ← get
  demand (carver.position ≤ segment.offset) .overlappingSegments
  set { carver with rest := #[] }
  let skipped ←
    orFail (carver.rest.splitAt? (segment.offset - carver.position)) (.fault .outOfRange)
  let taken ← orFail (skipped.2.splitAt? segment.length) (.fault .outOfRange)
  set (Carver.mk taken.2 segment.stop)
  return { gap := skipped.1, content := taken.1 }

/-- The segment lies in the rest, and the pieces are the rest in their order. -/
structure Takes (carver : Carver) (segment : Segment) (cut : Cut) (later : Carver) : Prop where
  gap : carver.position + cut.gap.size = segment.offset
  content : cut.content.size = segment.length
  rest : carver.rest = cut.gap ++ cut.content ++ later.rest
  position : later.position = segment.stop

/-- Taking a segment that does not start before the rest is splitting the rest twice. -/
theorem take_of_le (ordered : carver.position ≤ segment.offset) :
    take segment carver =
      match carver.rest.splitAt? (segment.offset - carver.position) with
      | none => .error (.fault .outOfRange) { carver with rest := #[] }
      | some skipped =>
        match skipped.2.splitAt? segment.length with
        | none => .error (.fault .outOfRange) { carver with rest := #[] }
        | some taken => .ok ⟨skipped.1, taken.1⟩ ⟨taken.2, segment.stop⟩ := by
  simp only [take, Edit.run_bind, Edit.run_get, Edit.run_set, demand_of ordered, Edit.run_lift_ok]
  cases carver.rest.splitAt? (segment.offset - carver.position) with
  | none => rfl
  | some skipped =>
    simp only [orFail, Edit.run_lift_ok]
    cases skipped.2.splitAt? segment.length <;> rfl

/-- A segment is taken, or it starts before the rest, or it ends behind it. -/
theorem take_cases (segment : Segment) (carver : Carver) :
    (∃ cut later, take segment carver = .ok cut later ∧ Takes carver segment cut later) ∨
    (segment.offset < carver.position ∧
      take segment carver = .error (.misuse .overlappingSegments) carver) ∨
    (carver.position ≤ segment.offset ∧ carver.position + carver.rest.size < segment.stop ∧
      take segment carver = .error (.fault .outOfRange) { carver with rest := #[] }) := by
  by_cases ordered : carver.position ≤ segment.offset
  · rw [take_of_le ordered]
    cases skips : carver.rest.splitAt? (segment.offset - carver.position) with
    | none =>
      have short := Bytes.splitAt?_eq_none.mp skips
      exact Or.inr (Or.inr ⟨ordered, by simp only [Segment.stop]; omega, rfl⟩)
    | some skipped =>
      obtain ⟨gapSize, rest⟩ := Bytes.splitAt?_eq_some.mp skips
      have size := congrArg Array.size rest
      rw [Array.size_append] at size
      cases takes : skipped.2.splitAt? segment.length with
      | none =>
        have short := Bytes.splitAt?_eq_none.mp takes
        exact Or.inr (Or.inr ⟨ordered, by simp only [Segment.stop]; omega, by simp only [takes]⟩)
      | some taken =>
        obtain ⟨contentSize, behind⟩ := Bytes.splitAt?_eq_some.mp takes
        refine Or.inl ⟨⟨skipped.1, taken.1⟩, ⟨taken.2, segment.stop⟩, by simp only [takes], ?_⟩
        have gap : carver.position + skipped.1.size = segment.offset := by omega
        exact ⟨gap, contentSize, by rw [rest, behind, Array.append_assoc], rfl⟩
  · refine Or.inr (Or.inl ⟨Nat.lt_of_not_le ordered, ?_⟩)
    simp only [take, Edit.run_bind, Edit.run_get, demand_of_not ordered, Edit.run_lift_error]

theorem takes_of_take (run : take segment carver = .ok cut later) :
    Takes carver segment cut later := by
  rcases take_cases segment carver with ⟨_, _, taken, takes⟩ | ⟨-, refused⟩ | ⟨-, -, refused⟩
  · rw [taken, EStateM.Result.ok.injEq] at run
    obtain ⟨rfl, rfl⟩ := run
    exact takes
  · exact nomatch refused.symm.trans run
  · exact nomatch refused.symm.trans run

namespace Takes

variable (takes : Takes carver segment cut later)

include takes

/-- The block that ends with the rest, as it is cut. -/
theorem block_eq (front : Bytes) :
    front ++ carver.rest = front ++ cut.gap ++ cut.content ++ later.rest := by
  rw [takes.rest]
  simp only [Array.append_assoc]

theorem size_front (start : front.size = carver.position) :
    (front ++ cut.gap).size = segment.offset := by
  rw [Array.size_append, start, takes.gap]

/-- What is in front of the rest now ends where the segment ends, whatever stands in it. -/
theorem size_behind (start : front.size = carver.position) {content : Bytes}
    (length : content.size = segment.length) :
    (front ++ cut.gap ++ content).size = later.position := by
  rw [Array.size_append, takes.size_front start, length, takes.position, Segment.stop]

theorem stop_le (start : front.size = carver.position) :
    segment.stop ≤ (front ++ carver.rest).size := by
  rw [takes.block_eq front, Array.size_append, takes.size_behind start takes.content,
    takes.position]
  exact Nat.le_add_right _ _

theorem extract_eq (start : front.size = carver.position) :
    (front ++ carver.rest).extract segment.offset segment.stop = cut.content := by
  rw [takes.block_eq front, Segment.stop, ← takes.size_front start, ← takes.content,
    Bytes.extract_between]

theorem patch_eq (start : front.size = carver.position) {content : List UInt8}
    (length : content.length = segment.length) :
    (front ++ carver.rest).patch segment.offset content =
      front ++ cut.gap ++ content.toArray ++ later.rest := by
  rw [takes.block_eq front, ← takes.size_front start]
  exact Bytes.patch_between (length.trans takes.content.symm)

end Takes

/-! ### Taking segments in order -/

/-- Takes segments one after another. -/
def takeAll (segments : List Segment) : Edit Carver (List Cut) :=
  segments.mapM take

/-- The contents of segments taken one after another. -/
def slices (segments : List Segment) (carver : Carver) : Checked (List Bytes) :=
  match takeAll segments carver with
  | .ok cuts _ => .ok (cuts.map Cut.content)
  | .error failure _ => .error failure

/-- The pieces one behind another, with what is left behind them. -/
def joined (carver : Carver) : List Cut → Bytes
  | [] => carver.rest
  | cut :: cuts => cut.gap ++ cut.content ++ joined carver cuts

/-- Taking several segments starts with the first one. -/
theorem takes_of_takeAll (run : takeAll (segment :: segments) carver = .ok cuts later) :
    ∃ cut between others, Takes carver segment cut between ∧
      takeAll segments between = .ok others later ∧ cuts = cut :: others := by
  simp only [takeAll, List.mapM_cons, Edit.bind_eq_ok, Edit.run_pure, EStateM.Result.ok.injEq] at run
  obtain ⟨cut, between, taken, others, _, runRest, rfl, rfl⟩ := run
  exact ⟨cut, between, others, takes_of_take taken, runRest, rfl⟩

theorem slices_cons (segment : Segment) (segments : List Segment) (carver : Carver) :
    slices (segment :: segments) carver =
      match take segment carver with
      | .ok cut between => do return cut.content :: (← slices segments between)
      | .error failure _ => .error failure := by
  simp only [slices, takeAll, List.mapM_cons, Edit.run_bind, Edit.run_pure]
  cases take segment carver with
  | error failure => rfl
  | ok cut between =>
    dsimp only
    cases segments.mapM take between <;> rfl

theorem slices_eq_ok {contents : List Bytes} :
    slices segments carver = .ok contents ↔
      ∃ cuts later, takeAll segments carver = .ok cuts later ∧ cuts.map Cut.content = contents := by
  rw [slices]
  cases takeAll segments carver <;> simp

/-- Segments taken one after another follow each other, up to the end of the block at most. -/
theorem spans_of_takeAll (run : takeAll segments carver = .ok cuts later)
    (start : front.size = carver.position) :
    Segment.Spans carver.position (front ++ carver.rest).size segments := by
  induction segments generalizing front carver cuts with
  | nil =>
    rw [← start, Array.size_append]
    exact Nat.le_add_right _ _
  | cons segment segments inductionHypothesis =>
    obtain ⟨cut, between, others, takes, runRest, rfl⟩ := takes_of_takeAll run
    have behind := takes.size_behind start takes.content
    have following := inductionHypothesis runRest behind
    rw [← takes.block_eq, takes.position] at following
    exact ⟨takes.gap ▸ Nat.le_add_right _ _, following⟩

/-- Taking segments from the rest of a block is taking them from the block. -/
theorem slices_eq (segments : List Segment) (start : front.size = carver.position) :
    slices segments carver =
      Segment.carveFrom (front ++ carver.rest) carver.position segments := by
  -- What was taken moves into the front of the block, which always ends where the rest starts.
  induction segments generalizing front carver with
  | nil => rfl
  | cons segment segments inductionHypothesis =>
    rw [slices_cons, Segment.carveFrom]
    rcases take_cases segment carver with
      ⟨cut, between, taken, takes⟩ | ⟨early, refused⟩ | ⟨ordered, short, refused⟩
    · have following := inductionHypothesis (takes.size_behind start takes.content)
      rw [← takes.block_eq, takes.position] at following
      have ordered : carver.position ≤ segment.offset := takes.gap ▸ Nat.le_add_right _ _
      rw [taken, demand_of ordered, Segment.slice_of (takes.stop_le start), takes.extract_eq start,
        ← following]
      rfl
    · rw [refused, demand_of_not (Nat.not_le_of_lt early)]
      rfl
    · have beyond : (front ++ carver.rest).slice? segment.offset segment.length = none := by
        rw [Bytes.slice?, if_neg]
        rw [Array.size_append, start]
        exact Nat.not_le_of_lt short
      rw [refused, demand_of ordered, Segment.slice, beyond]
      rfl

/-- The pieces put together with new contents are the block with these contents written where the
segments lie. -/
theorem joined_fill (run : takeAll segments carver = .ok cuts later)
    (start : front.size = carver.position) (fitting : Segment.Fitting segments contents) :
    front ++ later.joined (List.zipWith Cut.fill cuts contents) =
      Segment.writeAll (front ++ carver.rest) (segments.zip contents) := by
  -- Here the front takes up the new content of each segment, so it holds what is written so far.
  induction fitting generalizing front carver cuts with
  | nil =>
    obtain ⟨rfl, rfl⟩ := EStateM.Result.ok.inj run
    rfl
  | @cons segment content segments contents length fitting inductionHypothesis =>
    obtain ⟨cut, between, others, takes, runRest, rfl⟩ := takes_of_takeAll run
    have sized : content.toArray.size = segment.length := length
    have behind := takes.size_behind start sized
    have following := inductionHypothesis runRest behind
    rw [List.zip_cons_cons, Segment.writeAll, List.foldl_cons, ← Segment.writeAll,
      takes.patch_eq start length, ← following]
    simp only [List.zipWith_cons_cons, joined, Cut.fill, Array.append_assoc]

theorem joined_eq (run : takeAll segments carver = .ok cuts later) :
    later.joined cuts = carver.rest := by
  induction segments generalizing carver cuts with
  | nil =>
    obtain ⟨rfl, rfl⟩ := EStateM.Result.ok.inj run
    rfl
  | cons segment segments inductionHypothesis =>
    obtain ⟨cut, between, others, takes, runRest, rfl⟩ := takes_of_takeAll run
    rw [joined, inductionHypothesis runRest, takes.rest]

end Carver

/-! ### Carving a block -/

/-- Carving succeeds exactly if each segment starts behind the one taken before it and ends within
the block. What is taken out for a segment are the bytes of the block at its place, no byte belongs
to two of them, and with the bytes between them they are the block. Whatever is written to them in
the end stands at these places, and the block holds its old bytes everywhere else. -/
theorem carving_exact (bytes : Bytes) (segments : List Segment) :
    Carver.slices segments (.start bytes) = Segment.carve bytes segments ∧
    ((∃ slices, Segment.carve bytes segments = .ok slices) ↔
      segments.IsChain (fun earlier later => earlier.stop ≤ later.offset) ∧
        ∀ segment ∈ segments, segment.stop ≤ bytes.size) ∧
    ∀ cuts later, Carver.takeAll segments (.start bytes) = .ok cuts later →
      cuts.map Cut.content =
        segments.map (fun segment => bytes.extract segment.offset segment.stop) ∧
      segments.Pairwise Segment.Disjoint ∧ later.joined cuts = bytes ∧
      ∀ contents, Segment.Fitting segments contents →
        later.joined (List.zipWith Cut.fill cuts contents) =
          Segment.writeAll bytes (segments.zip contents) ∧
        Segment.Overwrites bytes segments contents
          (Segment.writeAll bytes (segments.zip contents)) := by
  have nothing : (#[] : Bytes).size = (Carver.start bytes).position := rfl
  have same : Carver.slices segments (.start bytes) = Segment.carve bytes segments := by
    have same := Carver.slices_eq segments nothing
    rwa [Array.empty_append] at same
  have spans {cuts later} (run : Carver.takeAll segments (.start bytes) = .ok cuts later) :
      Segment.Spans 0 bytes.size segments := by
    have spans := Carver.spans_of_takeAll run nothing
    rwa [Array.empty_append] at spans
  refine ⟨same, ⟨fun ⟨slices, carved⟩ => ?_, fun ordered => ?_⟩, fun cuts later run => ?_⟩
  · obtain ⟨cuts, later, run, -⟩ := Carver.slices_eq_ok.mp (same.trans carved)
    exact Segment.spans_iff.mp (spans run)
  · exact ⟨_, Segment.carveFrom_of_spans (Segment.spans_iff.mpr ordered) (Nat.le_refl _)⟩
  · have taken := Carver.slices_eq_ok.mpr ⟨cuts, later, run, rfl⟩
    have carved := Segment.carveFrom_of_spans (spans run) (Nat.le_refl _)
    refine ⟨Except.ok.inj (taken.symm.trans (same.trans carved)), (spans run).disjoint,
      Carver.joined_eq run, fun contents fitting => ⟨?_, ?_⟩⟩
    · have joined := Carver.joined_fill run nothing fitting
      rwa [Array.empty_append, Array.empty_append] at joined
    · exact Segment.overwrites_writeAll (spans run) fitting

/-- Eight bytes, counted. -/
def eightBytes : Bytes := #[1, 2, 3, 4, 5, 6, 7, 8]

/-- Three segments are taken out of eight bytes, an empty one among them, and written to; the bytes
in front of the last one and behind it stay. A segment that starts inside the one before it is
refused, and so is one that ends behind the block. -/
theorem eight_bytes_carved :
    (∃ slices, Segment.carve eightBytes [⟨0, 2⟩, ⟨2, 0⟩, ⟨4, 3⟩] = .ok slices) ∧
    (∃ cuts later,
      Carver.takeAll [⟨0, 2⟩, ⟨2, 0⟩, ⟨4, 3⟩] (.start eightBytes) = .ok cuts later ∧
      cuts.map Cut.content = [#[1, 2], #[], #[5, 6, 7]] ∧
      later.joined (List.zipWith Cut.fill cuts [[9, 9], [], [0, 0, 0]]) =
        #[9, 9, 3, 4, 0, 0, 0, 8]) ∧
    (¬ ∃ slices, Segment.carve eightBytes [⟨0, 5⟩, ⟨4, 4⟩] = .ok slices) ∧
    ¬ ∃ slices, Segment.carve eightBytes [⟨0, 5⟩, ⟨5, 4⟩] = .ok slices := by
  have run : Carver.takeAll [⟨0, 2⟩, ⟨2, 0⟩, ⟨4, 3⟩] (.start eightBytes) =
      .ok [⟨#[], #[1, 2]⟩, ⟨#[], #[]⟩, ⟨#[3, 4], #[5, 6, 7]⟩] ⟨#[8], 7⟩ := rfl
  have fitting : Segment.Fitting [⟨0, 2⟩, ⟨2, 0⟩, ⟨4, 3⟩] [[9, 9], [], [0, 0, 0]] :=
    .cons rfl (.cons rfl (.cons rfl .nil))
  obtain ⟨-, succeeds, taken⟩ := carving_exact eightBytes [⟨0, 2⟩, ⟨2, 0⟩, ⟨4, 3⟩]
  obtain ⟨contents, -, -, written⟩ := taken _ _ run
  refine ⟨succeeds.mpr (by decide), ⟨_, _, run, contents, (written _ fitting).1⟩, ?_, ?_⟩
  · intro carved
    exact absurd ((carving_exact eightBytes _).2.1.mp carved) (by decide)
  · intro carved
    exact absurd ((carving_exact eightBytes _).2.1.mp carved) (by decide)

end PackedStore
