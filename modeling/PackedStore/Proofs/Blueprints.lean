/-
This file shows that the layouts of all three containers are exact. A layout is
computed if and only if its end is a size when nothing limits it; then its segments
are the contents one behind another without any gap that alignment does not ask for.
More slots, buckets or arena never move a segment to the front or make one shorter,
and the arena stands behind everything that does not depend on it.
-/

import PackedStore.Proofs.IndexedMap.Layouts
import PackedStore.Proofs.Layout.Exactness
import PackedStore.Proofs.UntypedMap.Layouts
import PackedStore.Proofs.UntypedSequence.Layouts

namespace PackedStore

open Segment (Content)

/-- An array of as many values or more. -/
theorem Segment.Content.atMost_array {count more : Nat} (type : ElementType) (le : count ≤ more) :
    (Content.array count type).AtMost (.array more type) :=
  ⟨rfl, Nat.mul_le_mul_right _ le⟩

theorem Segment.Content.atMost_arena {length more : Nat} (le : length ≤ more) :
    (Content.arena length).AtMost (.arena more) :=
  ⟨rfl, le⟩

/-! ### Maps of any values -/

namespace UntypedMap

/-- The layouts of a map, by the numbers of slots, buckets and arena words. -/
def blueprint (key : ElementType) : Blueprint (Nat × Nat × Nat) Layout where
  contents counts :=
    [.array headerWords .word32, .array counts.1 .word32, .array counts.1 key,
      .array counts.1 .word32, .array counts.2.1 .word32, .array counts.1 .word32,
      .array counts.1 .word16, .arena (counts.2.2 * 4)]
  compute counts := Layout.compute key counts.1 counts.2.1 counts.2.2
  segments := Layout.segments
  total := Layout.total

theorem aligned_contents {key : ElementType} (aligned : IsAlign key.align)
    (counts : Nat × Nat × Nat) :
    ∀ content ∈ (blueprint key).contents counts, IsAlign content.align := by
  have word : IsAlign ElementType.word32.align := ⟨2, by decide, rfl⟩
  simp only [blueprint, List.forall_mem_cons]
  exact ⟨word, word, aligned, word, word, word, ⟨1, by decide, rfl⟩, ⟨4, by decide, rfl⟩, by simp⟩

theorem exact_blueprint {key : ElementType} (aligned : IsAlign key.align) :
    (blueprint key).Exact := by
  refine Blueprint.exact_of_lays (fun _ => rfl) (fun counts => ?_) (fun counts => ?_) ?_
  · refine (Placement.Lays.word32 _).follow fun header => (Placement.Lays.word32 _).follow
      fun values => (Placement.Lays.arrayOf aligned _).follow fun keys =>
      (Placement.Lays.word32 _).follow fun next => (Placement.Lays.word32 _).follow fun heads =>
      (Placement.Lays.word32 _).follow fun types =>
      (Placement.Lays.arrayOf ⟨1, by decide, rfl⟩ _).follow fun sizes => ?_
    rw [← bind_assoc]
    exact (Placement.Lays.arena _).sized.follow fun data => .pure fun total => ⟨rfl, rfl⟩
  · exact Layout.failsOnly_compute (fun what _ => Failure.isStorage_overflow what)
      fun large => absurd large (Nat.not_lt.mpr aligned.le)
  · rintro ⟨slots, buckets, data⟩ ⟨more, moreBuckets, moreData⟩ ⟨leSlots, leBuckets, leData⟩
    have array (type : ElementType) := Content.atMost_array type leSlots
    exact .cons ⟨rfl, Nat.le_refl _⟩ (.cons (array _) (.cons (array _) (.cons (array _)
      (.cons (Content.atMost_array _ leBuckets) (.cons (array _) (.cons (array _)
        (.cons (Content.atMost_arena (Nat.mul_le_mul_right 4 leData)) .nil)))))))

/-- All counts of 32 bits have a layout, if and only if a key leaves room for the other 22 bytes that
each slot and its share of buckets and arena take. -/
theorem computes_words_iff {key : ElementType} (aligned : IsAlign key.align) :
    (∀ slots buckets data, slots < 2 ^ 32 → buckets < 2 ^ 32 → data < 2 ^ 32 →
      ∃ layout, Layout.compute key slots buckets data = .ok layout) ↔ key.size + 22 ≤ 2 ^ 32 := by
  have exactly := exact_blueprint aligned
  have sum (slots buckets data : Nat) :
      (((blueprint key).contents (slots, buckets, data)).map Content.bytes).sum =
        32 + slots * 4 + slots * key.size + slots * 4 + buckets * 4 + slots * 4 + slots * 2 +
          data * 4 := by
    simp only [blueprint, List.map_cons, List.map_nil, List.sum_cons, List.sum_nil, Content.bytes,
      ElementType.size_word32, ElementType.size_word16, headerWords]
    omega
  constructor
  · intro computes
    obtain ⟨layout, computed⟩ := computes (2 ^ 32 - 1) (2 ^ 32 - 1) (2 ^ 32 - 1) (by decide)
      (by decide) (by decide)
    have small := @Blueprint.Exact.sum_lt _ _ _ _ exactly (2 ^ 32 - 1, 2 ^ 32 - 1, 2 ^ 32 - 1)
      (aligned_contents aligned _) layout computed
    rw [sum] at small
    unfold sizeLimit at small
    omega
  · intro small slots buckets data slotsBound bucketsBound dataBound
    refine @Blueprint.Exact.computes _ _ _ _ exactly (slots, buckets, data)
      (aligned_contents aligned _) ?_
    have keys : slots * key.size ≤ (2 ^ 32 - 1) * key.size := Nat.mul_le_mul_right _ (by omega)
    have length : ((blueprint key).contents (slots, buckets, data)).length = 8 := rfl
    rw [sum, length]
    unfold sizeLimit
    omega

end UntypedMap

/-! ### Sequences -/

namespace UntypedSequence

/-- The layouts of a sequence, by the numbers of elements and arena bytes. -/
def blueprint : Blueprint (Nat × Nat) Layout where
  contents counts :=
    [.array headerWords .word32, .array counts.1 .word32, .array counts.1 .word32,
      .array counts.1 .word32, .array counts.1 .word32, .arena counts.2]
  compute counts := Layout.compute counts.1 counts.2
  segments := Layout.segments
  total := Layout.total

theorem aligned_contents (counts : Nat × Nat) :
    ∀ content ∈ blueprint.contents counts, IsAlign content.align := by
  have word : IsAlign ElementType.word32.align := ⟨2, by decide, rfl⟩
  simp only [blueprint, List.forall_mem_cons]
  exact ⟨word, word, word, word, word, ⟨4, by decide, rfl⟩, by simp⟩

theorem exact_blueprint : blueprint.Exact := by
  refine Blueprint.exact_of_lays (fun _ => rfl) (fun counts => ?_)
    (fun counts => Layout.bounded_compute) ?_
  · exact (Placement.Lays.word32 _).follow fun header => (Placement.Lays.word32 _).follow
      fun offsets => (Placement.Lays.word32 _).follow fun sizes => (Placement.Lays.word32 _).follow
      fun types => (Placement.Lays.word32 _).follow fun aligns =>
      (Placement.Lays.arena _).follow fun data => .pure fun total => ⟨rfl, rfl⟩
  · rintro ⟨slots, data⟩ ⟨more, moreData⟩ ⟨leSlots, leData⟩
    have words := Content.atMost_array .word32 leSlots
    exact .cons ⟨rfl, Nat.le_refl _⟩ (.cons words (.cons words (.cons words (.cons words
      (.cons (Content.atMost_arena leData) .nil)))))

theorem compute_of_words {slots data : Nat} (slotsBound : slots < 2 ^ 32)
    (dataBound : data < 2 ^ 32) : ∃ layout, Layout.compute slots data = .ok layout := by
  refine @Blueprint.Exact.computes _ _ _ _ exact_blueprint (slots, data) (aligned_contents _) ?_
  simp only [blueprint, List.map_cons, List.map_nil, List.sum_cons, List.sum_nil,
    List.length_cons, List.length_nil, Content.bytes, ElementType.size_word32, headerWords, sizeLimit]
  omega

end UntypedSequence

/-! ### Indexed maps -/

namespace IndexedMap

/-- The layout as that of a table with its number of hash tables. -/
def Layout.table (layout : Layout) : TableLayout where
  header := layout.header
  values := layout.values
  dimensions := layout.dimensions
  total := layout.total

/-- The layouts of an indexed map are those of a table with its key and its indices. -/
theorem TableLayout.compute_shape (shape : Shape) (capacity buckets : Nat) :
    compute shape.value shape.kinds capacity buckets =
      Layout.table <$> Layout.compute shape capacity buckets := by
  unfold compute Layout.compute Placement.total
  simp only [Shape.kinds, List.mapM_cons, Edit.run_bind, bind_assoc, pure_bind]
  cases Placement.arrayOf headerWords .word32 Placement.start with
  | error failure before => rfl
  | ok header first =>
    simp only
    cases Placement.arrayOf capacity shape.value first with
    | error failure before => rfl
    | ok values second =>
      simp only
      cases DimensionLayout.place capacity buckets shape.key second with
      | error failure before => rfl
      | ok key third =>
        simp only
        cases shape.indices.mapM (DimensionLayout.place capacity buckets) third <;> rfl

/-- What the arrays of a hash table hold. -/
def dimensionContents (counts : Nat × Nat) (kind : KeyType) : List Content :=
  [.array counts.1 kind.toElementType, .array counts.1 .word32, .array counts.2 .word32]

/-- The layouts of a table with any number of hash tables, by the numbers of slots and buckets. -/
def blueprint (value : ElementType) (kinds : List KeyType) : Blueprint (Nat × Nat) TableLayout where
  contents counts :=
    .array headerWords .word32 :: .array counts.1 value :: kinds.flatMap (dimensionContents counts)
  compute counts := TableLayout.compute value kinds counts.1 counts.2
  segments layout :=
    layout.header :: layout.values :: layout.dimensions.flatMap DimensionLayout.segments
  total := TableLayout.total

variable {value : ElementType} {kinds : List KeyType} (aligned : IsAlign value.align)
  (alignedKinds : ∀ kind ∈ kinds, IsAlign kind.align)

theorem lays_dimension {kind : KeyType} (aligned : IsAlign kind.align) (counts : Nat × Nat) :
    Placement.Lays (DimensionLayout.place counts.1 counts.2 kind) (dimensionContents counts kind)
      fun segments layout => segments = layout.segments :=
  (Placement.Lays.arrayOf aligned _).follow fun _ => (Placement.Lays.word32 _).follow fun _ =>
    (Placement.Lays.word32 _).follow fun _ => .pure rfl

include aligned alignedKinds

theorem lays_table (counts : Nat × Nat) :
    Placement.Lays
      (do
        let header ← Placement.arrayOf headerWords .word32
        let values ← Placement.arrayOf counts.1 value
        let dimensions ← kinds.mapM (DimensionLayout.place counts.1 counts.2)
        return fun total => ({ header, values, dimensions, total } : TableLayout))
      ((blueprint value kinds).contents counts) fun segments outline =>
        ∀ total, (blueprint value kinds).segments (outline total) = segments ∧
          (outline total).total = total := by
  have dimensions := Placement.Lays.mapM kinds fun kind member =>
    lays_dimension (alignedKinds kind member) counts
  refine (Placement.Lays.word32 _).follow fun header =>
    (Placement.Lays.arrayOf aligned _).follow fun values => ?_
  rw [← List.append_nil (kinds.flatMap _)]
  refine dimensions.bind fun back found isBack => .pure fun total => ⟨?_, rfl⟩
  rw [isBack, List.append_nil]
  rfl

theorem exact_blueprint : (blueprint value kinds).Exact := by
  refine Blueprint.exact_of_lays (fun _ => rfl) (lays_table aligned alignedKinds) (fun counts => ?_)
    ?_
  · have extent (what : Quantity) (_ : what.IsExtent) : Failure.IsStorage (.overflow what) :=
      Failure.isStorage_overflow what
    exact Placement.FailsOnly.total ((Placement.failsOnly_word32 extent _).bind fun _ =>
      (Placement.failsOnly_arrayOf extent _
        fun large => absurd large (Nat.not_lt.mpr aligned.le)).bind fun _ =>
      (failsOnly_placeAll extent fun kind member large =>
        absurd large (Nat.not_lt.mpr (alignedKinds kind member).le)).bind fun _ => .pure _)
  · rintro ⟨slots, buckets⟩ ⟨more, moreBuckets⟩ ⟨leSlots, leBuckets⟩
    refine .cons ⟨rfl, Nat.le_refl _⟩ (.cons (Content.atMost_array _ leSlots) ?_)
    clear alignedKinds
    induction kinds with
    | nil => exact .nil
    | cons kind rest inductionHypothesis =>
      exact .cons (Content.atMost_array _ leSlots) (.cons (Content.atMost_array _ leSlots)
        (.cons (Content.atMost_array _ leBuckets) inductionHypothesis))

omit aligned alignedKinds

/-- The bytes that the arrays of hash tables take. -/
theorem sum_dimensionContents (counts : Nat × Nat) (kinds : List KeyType) :
    ((kinds.flatMap (dimensionContents counts)).map Content.bytes).sum =
        counts.1 * (kinds.map (·.size)).sum + (counts.1 + counts.2) * (4 * kinds.length) ∧
      (kinds.flatMap (dimensionContents counts)).length = 3 * kinds.length := by
  induction kinds with
  | nil => exact ⟨rfl, rfl⟩
  | cons kind rest inductionHypothesis =>
    obtain ⟨sum, length⟩ := inductionHypothesis
    rw [List.flatMap_cons, List.map_append, List.sum_append, List.length_append, sum, length]
    refine ⟨?_, by simp only [dimensionContents, List.length_cons, List.length_nil]; omega⟩
    simp only [dimensionContents, List.map_cons, List.map_nil, List.sum_cons, List.sum_nil,
      List.length_cons, Content.bytes, ElementType.size_word32, Nat.mul_add, Nat.add_mul]
    omega

/-- The bytes that a slot and a bucket take in the arrays of a table. -/
def slotBytes (value : ElementType) (kinds : List KeyType) : Nat :=
  value.size + (kinds.map (·.size)).sum + 8 * kinds.length

include aligned alignedKinds

/-- If all counts of 32 bits have a layout, a slot and a bucket take no more bytes than they count. -/
theorem slotBytes_le_of_computes
    (computes : ∀ slots buckets, slots < 2 ^ 32 → buckets < 2 ^ 32 →
      ∃ layout, TableLayout.compute value kinds slots buckets = .ok layout) :
    slotBytes value kinds ≤ 2 ^ 32 := by
  obtain ⟨layout, computed⟩ := computes (2 ^ 32 - 1) (2 ^ 32 - 1) (by decide) (by decide)
  have small := @Blueprint.Exact.sum_lt _ _ _ _ (exact_blueprint aligned alignedKinds)
    (2 ^ 32 - 1, 2 ^ 32 - 1) (lays_table aligned alignedKinds _).aligned layout computed
  obtain ⟨sum, -⟩ := sum_dimensionContents (2 ^ 32 - 1, 2 ^ 32 - 1) kinds
  simp only [blueprint, List.map_cons, List.sum_cons, sum, Content.bytes, ElementType.size_word32,
    headerWords, sizeLimit] at small
  unfold slotBytes
  omega

/-- All counts of 32 bits have a layout, if a slot and a bucket take no more bytes than they count.
Only the padding of very many hash tables needs some more room. -/
theorem computes_words (small : slotBytes value kinds ≤ 2 ^ 32)
    (few : slotBytes value kinds + 4 < 2 ^ 32 ∨ kinds.length ≤ 2 ^ 26) {slots buckets : Nat}
    (slotsBound : slots < 2 ^ 32) (bucketsBound : buckets < 2 ^ 32) :
    ∃ layout, TableLayout.compute value kinds slots buckets = .ok layout := by
  refine @Blueprint.Exact.computes _ _ _ _ (exact_blueprint aligned alignedKinds) (slots, buckets)
    (lays_table aligned alignedKinds _).aligned ?_
  obtain ⟨sum, length⟩ := sum_dimensionContents (slots, buckets) kinds
  have values : slots * value.size ≤ (2 ^ 32 - 1) * value.size :=
    Nat.mul_le_mul_right _ (by omega)
  have keys : slots * (kinds.map (·.size)).sum ≤ (2 ^ 32 - 1) * (kinds.map (·.size)).sum :=
    Nat.mul_le_mul_right _ (by omega)
  have links : (slots + buckets) * (4 * kinds.length) ≤ (2 ^ 33 - 2) * (4 * kinds.length) :=
    Nat.mul_le_mul_right _ (by omega)
  simp only [blueprint, List.map_cons, List.sum_cons, List.length_cons, sum, length, Content.bytes,
    ElementType.size_word32, headerWords, sizeLimit]
  unfold slotBytes at small few
  omega

end IndexedMap

/-! ### All containers -/

/-- The layouts of all containers are exact, whatever the types with supported alignments and however
many dimensions there are; another arena changes nothing but the arena's length and the total. Counts
of 32 bits have a layout as long as a slot does not take more bytes than they count. -/
theorem layouts_are_exact :
    (∀ key : ElementType, IsAlign key.align →
      (UntypedMap.blueprint key).Exact ∧
      (∀ slots buckets data more layout other,
        UntypedMap.Layout.compute key slots buckets data = .ok layout →
        UntypedMap.Layout.compute key slots buckets more = .ok other →
        other = layout.withData more) ∧
      ((∀ slots buckets data, slots < 2 ^ 32 → buckets < 2 ^ 32 → data < 2 ^ 32 →
        ∃ layout, UntypedMap.Layout.compute key slots buckets data = .ok layout) ↔
          key.size + 22 ≤ 2 ^ 32)) ∧
    (UntypedSequence.blueprint.Exact ∧
      (∀ slots data more layout other,
        UntypedSequence.Layout.compute slots data = .ok layout →
        UntypedSequence.Layout.compute slots more = .ok other → other = layout.withData more) ∧
      ∀ slots data, slots < 2 ^ 32 → data < 2 ^ 32 →
        ∃ layout, UntypedSequence.Layout.compute slots data = .ok layout) ∧
    (∀ (value : ElementType) (kinds : List KeyType), IsAlign value.align →
      (∀ kind ∈ kinds, IsAlign kind.align) →
      (IndexedMap.blueprint value kinds).Exact ∧
      ((∀ slots buckets, slots < 2 ^ 32 → buckets < 2 ^ 32 →
        ∃ layout, IndexedMap.TableLayout.compute value kinds slots buckets = .ok layout) →
          IndexedMap.slotBytes value kinds ≤ 2 ^ 32) ∧
      (IndexedMap.slotBytes value kinds ≤ 2 ^ 32 →
        IndexedMap.slotBytes value kinds + 4 < 2 ^ 32 ∨ kinds.length ≤ 2 ^ 26 →
        ∀ slots buckets, slots < 2 ^ 32 → buckets < 2 ^ 32 →
          ∃ layout, IndexedMap.TableLayout.compute value kinds slots buckets = .ok layout)) ∧
    ∀ (shape : IndexedMap.Shape) (slots buckets : Nat),
      IndexedMap.TableLayout.compute shape.value shape.kinds slots buckets =
        IndexedMap.Layout.table <$> IndexedMap.Layout.compute shape slots buckets := by
  refine ⟨fun key aligned => ⟨UntypedMap.exact_blueprint aligned, ?_,
      UntypedMap.computes_words_iff aligned⟩, ⟨UntypedSequence.exact_blueprint, ?_, ?_⟩,
    fun value kinds aligned alignedKinds => ⟨IndexedMap.exact_blueprint aligned alignedKinds,
      IndexedMap.slotBytes_le_of_computes aligned alignedKinds, ?_⟩,
    IndexedMap.TableLayout.compute_shape⟩
  · exact fun _ _ _ _ _ _ computed other => UntypedMap.Layout.compute_withData computed other
  · exact fun _ _ _ _ _ computed other => UntypedSequence.Layout.compute_withData computed other
  · exact fun _ _ slots data => UntypedSequence.compute_of_words slots data
  · exact fun small few _ _ slots buckets =>
      IndexedMap.computes_words aligned alignedKinds small few slots buckets

/-- Layouts for keys, sequences, a table of words with one hash table and one without any. -/
theorem word_layouts_are_exact :
    (∃ layout larger, UntypedMap.Layout.compute .word32 3 8 5 = .ok layout ∧
      UntypedMap.Layout.compute .word32 4 8 6 = .ok larger ∧ layout.total ≤ larger.total) ∧
    (∃ layout other, UntypedSequence.Layout.compute 3 5 = .ok layout ∧
      UntypedSequence.Layout.compute 3 90 = .ok other ∧ other = layout.withData 90) ∧
    (∃ layout, IndexedMap.TableLayout.compute .word32 [wordKey] 3 8 = .ok layout ∧
      layout.header.stop ≤ layout.total) ∧
    ∃ layout, IndexedMap.TableLayout.compute .word32 [] 3 8 = .ok layout ∧
      layout.header.stop ≤ layout.total := by
  obtain ⟨maps, ⟨-, sameButArena, sequences⟩, tables, -⟩ := layouts_are_exact
  have word : IsAlign ElementType.word32.align := ⟨2, by decide, rfl⟩
  have table (kinds : List KeyType) (words : ∀ kind ∈ kinds, kind = wordKey)
      (small : IndexedMap.slotBytes .word32 kinds + 4 < 2 ^ 32) :
      ∃ layout, IndexedMap.TableLayout.compute .word32 kinds 3 8 = .ok layout ∧
        layout.header.stop ≤ layout.total := by
    obtain ⟨exactly, -, computes⟩ := tables .word32 kinds word fun kind member =>
      (words kind member).symm ▸ word
    obtain ⟨layout, computed⟩ :=
      computes (by omega) (Or.inl small) 3 8 (by decide) (by decide)
    exact ⟨layout, computed, (exactly.ordered (3, 8) layout computed).2 _ List.mem_cons_self⟩
  refine ⟨?_, ?_, table [wordKey] (by simp) (by decide), table [] (by simp) (by decide)⟩
  · obtain ⟨exactly, -, computes⟩ := maps .word32 word
    obtain ⟨larger, computed⟩ :=
      computes.mpr (by decide) 4 8 6 (by decide) (by decide) (by decide)
    obtain ⟨layout, computedFirst, -, total⟩ :=
      exactly.monotone (3, 8, 5) (4, 8, 6) larger (by decide) computed
    exact ⟨layout, larger, computedFirst, computed, total⟩
  · obtain ⟨layout, computed⟩ := sequences 3 5 (by decide) (by decide)
    obtain ⟨other, computedOther⟩ := sequences 3 90 (by decide) (by decide)
    exact ⟨layout, other, computed, computedOther,
      sameButArena 3 5 90 layout other computed computedOther⟩

/-- Values of eight gigabytes. -/
def hugeValue : ElementType :=
  .named "[[u64; 32768]; 32768]" (2 ^ 33) 8

/-- Two gigas of values that take eight gigabytes each have no layout. -/
theorem huge_values_have_no_layout :
    IsAlign hugeValue.align ∧ (∀ kind ∈ [wordKey, wordKey], IsAlign kind.align) ∧
      IndexedMap.TableLayout.compute hugeValue [wordKey, wordKey] (2 ^ 31) (2 ^ 32 - 1) =
        .error (.overflow .arraySize) := by
  refine ⟨⟨3, by decide, rfl⟩, ?_, rfl⟩
  simp only [List.mem_cons, List.not_mem_nil, or_false, or_self, forall_eq]
  exact ⟨2, by decide, rfl⟩

end PackedStore
