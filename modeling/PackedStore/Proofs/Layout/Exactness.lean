/-
This file says exactly which layouts are computed. Contents laid out without any
bound stand one behind another, each at the least multiple of its alignment that is
free. Because alignments divide the bound of all sizes, the checks of a placement
refuse exactly what ends at the bound or behind it, wherever they strike on the way.
A blueprint says for a kind of container which contents its counts lead to; that its
layouts are exact then follows from the contents alone.
-/

import Mathlib.Data.List.Forall2
import Mathlib.Order.Bounds.Basic
import PackedStore.Proofs.Arithmetic.Rounding
import PackedStore.Proofs.Element.Types
import PackedStore.Proofs.Layout.Refusals
import PackedStore.Proofs.Layout.Shrinking

namespace PackedStore

open Segment (Content)

theorem IsAlign.dvd_sizeLimit {align : Nat} (aligned : IsAlign align) : align ∣ sizeLimit := by
  obtain ⟨exponent, small, rfl⟩ := aligned
  exact Nat.pow_dvd_pow 2 (by omega)

/-! ### Laying out without a bound -/

namespace Segment.Content

/-- The alignment that a content needs. -/
def align : Content → Nat
  | .array _ type => type.align
  | .arena _ => blockAlign

/-- The bytes that a content takes. -/
def bytes : Content → Nat
  | .array count type => count * type.size
  | .arena length => length

/-- What has the same alignment and takes no more bytes. -/
def AtMost (content more : Content) : Prop :=
  content.align = more.align ∧ content.bytes ≤ more.bytes

end Segment.Content

namespace Placement

/-- The segments of contents that are placed one behind another from a position on. -/
def laidOut : Nat → List Content → List Segment
  | _, [] => []
  | position, content :: rest =>
    ⟨raise position content.align, content.bytes⟩ ::
      laidOut (raise position content.align + content.bytes) rest

/-- The position behind contents that are placed one behind another. -/
def endBehind : Nat → List Content → Nat
  | position, [] => position
  | position, content :: rest => endBehind (raise position content.align + content.bytes) rest

variable {position stop align length : Nat} {content : Content} {contents others : List Content}

/-- Each segment starts at the least multiple of its alignment at or behind the end of the one
before it and is as long as its content, and the last one ends at the given position. -/
def LaidOut : Nat → Nat → List Segment → List Content → Prop
  | position, stop, [], [] => stop = position
  | position, stop, segment :: segments, content :: contents =>
    IsLeast {place | content.align ∣ place ∧ position ≤ place} segment.offset ∧
      segment.length = content.bytes ∧ LaidOut segment.stop stop segments contents
  | _, _, _, _ => False

/-- There is one way to lay contents out. -/
theorem laidOut_iff {segments : List Segment}
    (aligned : ∀ content ∈ contents, IsAlign content.align) :
    LaidOut position stop segments contents ↔
      segments = laidOut position contents ∧ stop = endBehind position contents := by
  induction contents generalizing position segments with
  | nil => cases segments <;> simp [LaidOut, laidOut, endBehind]
  | cons content rest inductionHypothesis =>
    have least := isLeast_raise (aligned content List.mem_cons_self).pos position
    have alignedRest : ∀ other ∈ rest, IsAlign other.align := fun other member =>
      aligned other (List.mem_cons_of_mem _ member)
    cases segments with
    | nil => simp [LaidOut, laidOut]
    | cons segment segments =>
      rw [LaidOut, laidOut, endBehind, inductionHypothesis alignedRest, List.cons.injEq]
      constructor
      · rintro ⟨isLeast, length, rfl, rfl⟩
        have isSegment : segment = ⟨raise position content.align, content.bytes⟩ := by
          rw [← isLeast.unique least, ← length]
        rw [isSegment]
        exact ⟨⟨rfl, rfl⟩, rfl⟩
      · rintro ⟨⟨rfl, rfl⟩, rfl⟩
        exact ⟨least, rfl, rfl, rfl⟩

theorem laidOut_append (position : Nat) (contents others : List Content) :
    laidOut position (contents ++ others) =
      laidOut position contents ++ laidOut (endBehind position contents) others := by
  induction contents generalizing position with
  | nil => rfl
  | cons content rest inductionHypothesis =>
    rw [List.cons_append, laidOut, laidOut, endBehind, inductionHypothesis, List.cons_append]

theorem endBehind_append (position : Nat) (contents others : List Content) :
    endBehind position (contents ++ others) = endBehind (endBehind position contents) others := by
  induction contents generalizing position with
  | nil => rfl
  | cons content rest inductionHypothesis => exact inductionHypothesis _

theorem le_endBehind (aligned : ∀ content ∈ contents, IsAlign content.align) :
    position ≤ endBehind position contents := by
  induction contents generalizing position with
  | nil => exact Nat.le_refl _
  | cons content rest inductionHypothesis =>
    have raised := @le_raise position _ (aligned content List.mem_cons_self).pos
    have behind := @inductionHypothesis (raise position content.align + content.bytes)
      fun other member => aligned other (List.mem_cons_of_mem _ member)
    exact Nat.le_trans raised (Nat.le_trans (Nat.le_add_right _ _) behind)

/-- The padding of each content is less than the largest alignment. -/
theorem endBehind_le (aligned : ∀ content ∈ contents, IsAlign content.align) :
    endBehind position contents ≤
      position + (contents.map Content.bytes).sum + 15 * contents.length := by
  induction contents generalizing position with
  | nil => exact Nat.le_refl _
  | cons content rest inductionHypothesis =>
    have raised : raise position content.align ≤ position + (content.align - 1) := raise_le
    have small : content.align ≤ 16 := (aligned content List.mem_cons_self).le
    have behind := @inductionHypothesis (raise position content.align + content.bytes)
      fun other member => aligned other (List.mem_cons_of_mem _ member)
    rw [endBehind, List.map_cons, List.sum_cons, List.length_cons]
    omega

/-- Contents end no earlier than without any padding. -/
theorem sum_bytes_le_endBehind (aligned : ∀ content ∈ contents, IsAlign content.align) :
    position + (contents.map Content.bytes).sum ≤ endBehind position contents := by
  induction contents generalizing position with
  | nil => exact Nat.le_refl _
  | cons content rest inductionHypothesis =>
    have raised := @le_raise position _ (aligned content List.mem_cons_self).pos
    have behind := @inductionHypothesis (raise position content.align + content.bytes)
      fun other member => aligned other (List.mem_cons_of_mem _ member)
    rw [List.map_cons, List.sum_cons, endBehind]
    omega

/-- Segments laid out one behind another are in order and end where the last one does. -/
theorem spans_laidOut (aligned : ∀ content ∈ contents, IsAlign content.align) :
    Segment.Spans position (endBehind position contents) (laidOut position contents) := by
  induction contents generalizing position with
  | nil => exact Nat.le_refl _
  | cons content rest inductionHypothesis =>
    exact ⟨le_raise (aligned content List.mem_cons_self).pos,
      inductionHypothesis fun other member => aligned other (List.mem_cons_of_mem _ member)⟩

/-- Larger contents are laid out no earlier and end no earlier. -/
theorem laidOut_mono {later : Nat} (earlier : position ≤ later)
    (aligned : ∀ content ∈ contents, IsAlign content.align)
    (more : List.Forall₂ Content.AtMost contents others) :
    List.Forall₂ (fun segment other => segment.offset ≤ other.offset ∧ segment.length ≤ other.length)
        (laidOut position contents) (laidOut later others) ∧
      endBehind position contents ≤ endBehind later others := by
  induction more generalizing position later with
  | nil => exact ⟨List.Forall₂.nil, earlier⟩
  | cons atMost _ inductionHypothesis =>
    have raised := raise_mono (aligned _ List.mem_cons_self).pos earlier
    rw [laidOut, laidOut, endBehind, endBehind, ← atMost.1]
    obtain ⟨segments, ends⟩ := inductionHypothesis (Nat.add_le_add raised atMost.2)
      fun other member => aligned other (List.mem_cons_of_mem _ member)
    exact ⟨List.Forall₂.cons ⟨raised, atMost.2⟩ segments, ends⟩

/-! ### Placements that refuse what ends behind the bound -/

/-- The placement gives what the contents laid out without a bound are, and is refused exactly if
their end is no size. -/
structure Lays {α : Type} (placing : Edit Placement α) (contents : List Content)
    (Found : List Segment → α → Prop) : Prop where
  aligned : ∀ content ∈ contents, IsAlign content.align
  runs : ∀ before, ∃ answer, Found (laidOut before.cursor contents) answer ∧
    (before.cursor < sizeLimit → ∀ result after, placing before = .ok result after ↔
      endBehind before.cursor contents < sizeLimit ∧ result = answer ∧
        after = ⟨endBehind before.cursor contents⟩)

namespace Lays

variable {α β : Type} {first : Edit Placement α} {next : α → Edit Placement β}
  {Found : List Segment → α → Prop} {Last : List Segment → β → Prop}

theorem pure {answer : α} (found : Found [] answer) :
    Lays (pure answer : Edit Placement α) [] Found where
  aligned := by simp
  runs before := by
    refine ⟨answer, found, fun small result after => ?_⟩
    rw [Edit.run_pure, EStateM.Result.ok.injEq]
    exact ⟨fun same => ⟨small, same.1.symm, same.2.symm⟩, fun same => ⟨same.2.1.symm, same.2.2.symm⟩⟩

/-- What comes second is laid out behind what comes first. -/
theorem bind (lays : Lays first contents Found)
    (rest : ∀ segments answer, Found segments answer →
      Lays (next answer) others fun behind => Last (segments ++ behind)) :
    Lays (first >>= next) (contents ++ others) Last where
  aligned := by
    obtain ⟨answer, found, -⟩ := lays.runs start
    exact List.forall_mem_append.mpr ⟨lays.aligned, (rest _ answer found).aligned⟩
  runs before := by
    obtain ⟨middle, found, runFirst⟩ := lays.runs before
    have laysNext := rest _ middle found
    obtain ⟨answer, foundLast, runNext⟩ := laysNext.runs ⟨endBehind before.cursor contents⟩
    rw [laidOut_append, endBehind_append]
    refine ⟨answer, foundLast, fun small result after => ?_⟩
    rw [Edit.bind_eq_ok]
    constructor
    · rintro ⟨_, _, run, runRest⟩
      obtain ⟨between, rfl, rfl⟩ := (runFirst small _ _).mp run
      exact (runNext between _ _).mp runRest
    · intro ends
      have between : endBehind before.cursor contents < sizeLimit :=
        Nat.lt_of_le_of_lt (le_endBehind laysNext.aligned) ends.1
      exact ⟨_, _, (runFirst small _ _).mpr ⟨between, rfl, rfl⟩, (runNext between _ _).mpr ends⟩

theorem mapM {place : α → Edit Placement β} {contentsOf : α → List Content}
    {segmentsOf : β → List Segment} (items : List α)
    (each : ∀ item ∈ items, Lays (place item) (contentsOf item) fun segments answer =>
      segments = segmentsOf answer) :
    Lays (items.mapM place) (items.flatMap contentsOf) fun segments answers =>
      segments = answers.flatMap segmentsOf := by
  induction items with
  | nil => exact .pure rfl
  | cons item rest inductionHypothesis =>
    rw [List.mapM_cons, List.flatMap_cons]
    refine (each item List.mem_cons_self).bind fun front answer isFront => ?_
    have laysRest := inductionHypothesis fun other member => each other (List.mem_cons_of_mem _ member)
    rw [← List.append_nil (rest.flatMap contentsOf)]
    refine laysRest.bind fun behind answers isBehind => .pure ?_
    rw [isFront, isBehind, List.append_nil, List.flatMap_cons]

theorem place (aligned : IsAlign content.align) :
    Lays (place content.bytes content.align) [content] fun segments segment =>
      segments = [segment] where
  aligned := by simpa using aligned
  runs before := by
    refine ⟨_, rfl, fun _ result after => ?_⟩
    rw [place_eq_ok, endBehind, endBehind]
    constructor
    · rintro ⟨-, ends, rfl, rfl⟩
      exact ⟨ends, rfl, rfl⟩
    · rintro ⟨ends, rfl, rfl⟩
      have fits := Nat.lt_of_le_of_lt (Nat.le_add_right _ _) ends
      exact ⟨padded_lt aligned.pos aligned.dvd_sizeLimit fits, ends, rfl, rfl⟩

/-- A length that is no size would not be placed anyway. -/
theorem sized {what : Quantity} {Found : List Segment → Segment → Prop}
    (lays : Lays (Placement.place length align) [content] Found) :
    Lays (do Placement.place (← orFail (size? length) (.overflow what)) align) [content] Found where
  aligned := lays.aligned
  runs before := by
    obtain ⟨answer, found, run⟩ := lays.runs before
    refine ⟨answer, found, fun small result after => ?_⟩
    rw [← run small, Edit.lift_bind_eq_ok]
    simp only [orFail_eq_ok, size?_eq_some_iff]
    refine ⟨fun ⟨_, ⟨_, same⟩, placed⟩ => same ▸ placed, fun placed => ⟨_, ⟨?_, rfl⟩, placed⟩⟩
    have ends := (place_eq_ok.mp placed).2.1
    omega

theorem arrayOf {type : ElementType} (aligned : IsAlign type.align) (count : Nat) :
    Lays (arrayOf count type) [.array count type] fun segments segment => segments = [segment] := by
  have lays := @place (.array count type) aligned
  have checked : Placement.arrayOf count type = (do
      demand (type.align ≤ blockAlign) (.arrayAlignment type.align)
      Placement.place (← orFail (size? (count * type.size)) (.overflow .arraySize)) type.align) := rfl
  rw [checked, demand_of aligned.le]
  exact lays.sized

theorem word32 (count : Nat) :
    Lays (Placement.arrayOf count .word32) [.array count .word32] fun segments segment =>
      segments = [segment] :=
  arrayOf ⟨2, by decide, rfl⟩ count

theorem arena (length : Nat) :
    Lays (Placement.arena length) [.arena length] fun segments segment => segments = [segment] :=
  @place (.arena length) ⟨4, by decide, rfl⟩

/-- One segment in front of the others. -/
theorem follow {placing : Edit Placement Segment} {next : Segment → Edit Placement β}
    (lays : Lays placing [content] fun segments segment => segments = [segment])
    (rest : ∀ segment, Lays (next segment) others fun behind => Last (segment :: behind)) :
    Lays (placing >>= next) (content :: others) Last := by
  refine @bind [content] others _ _ _ _ _ Last lays fun segments segment isFront => ?_
  rw [isFront]
  exact rest segment

/-- From the start, a total is computed exactly if it is a size. -/
theorem total_eq_ok {placing : Edit Placement (Nat → α)} {Found : List Segment → (Nat → α) → Prop}
    (lays : Lays placing contents Found) :
    ∃ outline, Found (laidOut 0 contents) outline ∧
      ∀ layout, Placement.total placing = .ok layout ↔
        endBehind 0 contents < sizeLimit ∧ layout = outline (endBehind 0 contents) := by
  obtain ⟨outline, found, run⟩ := lays.runs start
  refine ⟨outline, found, fun layout => ?_⟩
  have exactly := run (show 0 < sizeLimit by decide)
  constructor
  · intro computed
    unfold Placement.total at computed
    split at computed
    · next result placed ran =>
      obtain ⟨ends, rfl, rfl⟩ := (exactly _ _).mp ran
      exact ⟨ends, (Except.ok.inj computed).symm⟩
    · exact absurd computed (by simp)
  · rintro ⟨ends, rfl⟩
    rw [Placement.total, (exactly _ _).mpr ⟨ends, rfl, rfl⟩]
    rfl

end Lays

end Placement

/-! ### Blueprints -/

/-- How layouts of one kind come about from counts, and which contents they are for. -/
structure Blueprint (Counts Layout : Type) where
  contents : Counts → List Content
  compute : Counts → Checked Layout
  segments : Layout → List Segment
  /-- The length of the whole block. -/
  total : Layout → Nat

namespace Blueprint

variable {Counts Layout : Type} [LE Counts] {plan : Blueprint Counts Layout}

/-- A layout is computed exactly if the contents end at a size when they are laid out without a
bound, and then it is that one. -/
structure Exact (plan : Blueprint Counts Layout) : Prop where
  computed : ∀ counts, ∃ outline,
    Placement.LaidOut 0 (plan.total outline) (plan.segments outline) (plan.contents counts) ∧
      (∀ layout, plan.compute counts = .ok layout ↔
        plan.total outline < sizeLimit ∧ layout = outline) ∧
      (plan.compute counts).Bounded
  ordered : ∀ counts layout, plan.compute counts = .ok layout →
    (plan.segments layout).Pairwise (fun first second => first.stop ≤ second.offset) ∧
      ∀ segment ∈ plan.segments layout, segment.stop ≤ plan.total layout
  monotone : ∀ counts more larger, counts ≤ more → plan.compute more = .ok larger →
    ∃ layout, plan.compute counts = .ok layout ∧
      List.Forall₂ (fun segment other =>
          segment.offset ≤ other.offset ∧ segment.length ≤ other.length)
        (plan.segments layout) (plan.segments larger) ∧
      plan.total layout ≤ plan.total larger

/-- Layouts are exact when the placement lays the contents out, whatever is refused is refused for
its size, and larger counts have larger contents. -/
theorem exact_of_lays {placing : Counts → Edit Placement (Nat → Layout)}
    (compute_eq : ∀ counts, plan.compute counts = Placement.total (placing counts))
    (lays : ∀ counts, Placement.Lays (placing counts) (plan.contents counts) fun segments outline =>
      ∀ total, plan.segments (outline total) = segments ∧ plan.total (outline total) = total)
    (bounded : ∀ counts, (plan.compute counts).Bounded)
    (grows : ∀ counts more, counts ≤ more →
      List.Forall₂ Content.AtMost (plan.contents counts) (plan.contents more)) :
    plan.Exact := by
  have outlined (counts : Counts) : ∃ outline : Layout,
      plan.segments outline = Placement.laidOut 0 (plan.contents counts) ∧
        plan.total outline = Placement.endBehind 0 (plan.contents counts) ∧
        ∀ layout, plan.compute counts = .ok layout ↔
          plan.total outline < sizeLimit ∧ layout = outline := by
    obtain ⟨outline, found, run⟩ := (lays counts).total_eq_ok
    obtain ⟨segments, total⟩ := found (Placement.endBehind 0 (plan.contents counts))
    refine ⟨_, segments, total, fun layout => ?_⟩
    rw [compute_eq, total]
    exact run layout
  refine ⟨fun counts => ?_, fun counts layout computed => ?_, ?_⟩
  · obtain ⟨outline, segments, total, run⟩ := outlined counts
    refine ⟨outline, ?_, run, bounded counts⟩
    rw [segments, total]
    exact (Placement.laidOut_iff (lays counts).aligned).mpr ⟨rfl, rfl⟩
  · obtain ⟨outline, segments, total, run⟩ := outlined counts
    obtain ⟨-, rfl⟩ := (run layout).mp computed
    rw [segments, total]
    have spans := @Placement.spans_laidOut 0 _ (lays counts).aligned
    exact ⟨spans.ordered, fun segment member => (spans.mem member).2⟩
  · intro counts more larger le computed
    obtain ⟨outline, segments, total, run⟩ := outlined counts
    obtain ⟨outlineMore, segmentsMore, totalMore, runMore⟩ := outlined more
    obtain ⟨size, rfl⟩ := (runMore larger).mp computed
    obtain ⟨below, ends⟩ := Placement.laidOut_mono (Nat.le_refl 0) (lays counts).aligned
      (grows counts more le)
    rw [← total, ← totalMore] at ends
    rw [← segments, ← segmentsMore] at below
    exact ⟨outline, (run outline).mpr ⟨Nat.lt_of_le_of_lt ends size, rfl⟩, below, ends⟩

/-- What is computed takes no more bytes than a size. -/
theorem Exact.sum_lt (exactly : plan.Exact) {counts : Counts}
    (aligned : ∀ content ∈ plan.contents counts, IsAlign content.align) {layout : Layout}
    (computed : plan.compute counts = .ok layout) :
    ((plan.contents counts).map Content.bytes).sum < sizeLimit := by
  obtain ⟨outline, laid, run, -⟩ := exactly.computed counts
  obtain ⟨ends, -⟩ := (run layout).mp computed
  have behind := @Placement.sum_bytes_le_endBehind 0 _ aligned
  rw [← ((Placement.laidOut_iff aligned).mp laid).2] at behind
  omega

/-- What ends at a size with the largest padding is computed. -/
theorem Exact.computes (exactly : plan.Exact) {counts : Counts}
    (aligned : ∀ content ∈ plan.contents counts, IsAlign content.align)
    (fits : ((plan.contents counts).map Content.bytes).sum + 15 * (plan.contents counts).length <
      sizeLimit) :
    ∃ layout, plan.compute counts = .ok layout := by
  obtain ⟨outline, laid, run, -⟩ := exactly.computed counts
  refine ⟨outline, (run outline).mpr ⟨?_, rfl⟩⟩
  have ends := @Placement.endBehind_le 0 _ aligned
  rw [← ((Placement.laidOut_iff aligned).mp laid).2] at ends
  omega

end Blueprint

end PackedStore
