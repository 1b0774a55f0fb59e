/-
This file compares a map of two indices to the maps that have one of them only. On
hosts that grant resizes they give the same answers all along, list the same rows in
the same order, and walk over the rows with an index in the same order. So no index
matters to what is asked by the keys or by another index.
-/

import PackedStore.Proofs.IndexedMap.Projections

namespace PackedStore.IndexedMap

variable {shape : Shape} {position : Nat}

/-! ### Reading -/

section

variable (table : SlotTable) (slots : List Nat)

theorem rowsIn_only :
    rowsIn (table.only position) slots = (rowsIn table slots).map (Entry.only position) := by
  rw [rowsIn, rowsIn, List.map_filterMap]
  congr 1
  funext slot
  rw [table.rowAt_only]
  cases table.rowAt slot <;> rfl

theorem SlotTable.matching_only (index : Bytes) :
    (table.only position).matching 0 index slots = table.matching position index slots := by
  rw [matching, cell_only_one, matching]

end

variable {Buffer Other : Type} [Host Buffer] [Host Other] {site : Site Buffer} {other : Site Other}

/-- The second map has the same counts and capacity as the first one, lists the same rows in the
same order, and walks over those with an index alike, but knows no other index. -/
structure ReadsAlike (shape : Shape) (position : Nat) (site : Site Buffer) (other : Site Other) :
    Prop where
  header : ∃ wide narrow, header site = .ok wide site ∧ header other = .ok narrow other ∧
    narrow.count = wide.count ∧ narrow.capacity = wide.capacity ∧
    narrow.allocatedIndex = wide.allocatedIndex ∧ narrow.firstFree = wide.firstFree
  entries : ∃ listed, entries shape site = .ok listed site ∧
    entries (shape.only position) other = .ok (listed.map (Entry.only position)) other
  entriesFor : ∀ index, ∃ listed, entriesFor shape position index site = .ok listed site ∧
    Walked shape position index site listed ∧
    entriesFor (shape.only position) 0 index other =
      .ok (listed.map (Entry.only position)) other ∧
    Walked (shape.only position) 0 index other (listed.map (Entry.only position))

theorem Carries.readsAlike {state : OrderedTable} (carries : Carries shape site state)
    (narrow : Carries (shape.only position) other (state.only position))
    (inside : position < shape.indices.length) : ReadsAlike shape position site other where
  header := by
    obtain ⟨wide, runWide, count, capacity, allocated, first⟩ := carries.run_header
    obtain ⟨found, run, countOnly, capacityOnly, allocatedOnly, firstOnly⟩ := narrow.run_header
    refine ⟨wide, found, runWide, run, ?_, capacityOnly.trans capacity.symm, ?_,
      firstOnly.trans first.symm⟩
    · rw [countOnly, count]
      exact state.table.count_only
    · rw [allocatedOnly, allocated]
      exact state.table.length_only
  entries := by
    refine ⟨_, carries.run_entries, narrow.run_entries.trans ?_⟩
    rw [← rowsIn_only]
    rfl
  entriesFor index := by
    have isKind := List.getElem?_eq_getElem inside
    have isOnly : (shape.only position).indices[0]? = some shape.indices[position] :=
      (getElem?_toList_zero _).trans isKind
    obtain ⟨listed, walked⟩ := carries.run_entriesFor isKind index
    obtain ⟨listedOnly, walkedOnly⟩ := narrow.run_entriesFor isOnly index
    have matching := @SlotTable.matching_only position state.table
      (state.orders (position + 1) (shape.indices[position].home state.capacity index)) index
    refine ⟨_, listed, walked, ?_, ?_⟩
    · rw [← rowsIn_only, ← matching]
      exact listedOnly
    · rw [← rowsIn_only, ← matching]
      exact walkedOnly

/-- Two maps list the same rows in the same order, all of them and those with an index, as far as
the keys, the values and this index go. -/
structure SameAt (shape : Shape) (position : Nat) (site varied : Site Buffer) : Prop where
  entries : ∃ listed changed, entries shape site = .ok listed site ∧
    entries shape varied = .ok changed varied ∧
    changed.map (Entry.only position) = listed.map (Entry.only position)
  entriesFor : ∀ index, ∃ listed changed, entriesFor shape position index site = .ok listed site ∧
    entriesFor shape position index varied = .ok changed varied ∧
    changed.map (Entry.only position) = listed.map (Entry.only position)

theorem ReadsAlike.sameAt {varied : Site Buffer} (alike : ReadsAlike shape position site other)
    (alikeVaried : ReadsAlike shape position varied other) : SameAt shape position site varied where
  entries := by
    obtain ⟨listed, run, runOnly⟩ := alike.entries
    obtain ⟨changed, runVaried, runVariedOnly⟩ := alikeVaried.entries
    exact ⟨listed, changed, run, runVaried,
      (EStateM.Result.ok.inj (runVariedOnly.symm.trans runOnly)).1⟩
  entriesFor index := by
    obtain ⟨listed, run, -, runOnly, -⟩ := alike.entriesFor index
    obtain ⟨changed, runVaried, -, runVariedOnly, -⟩ := alikeVaried.entriesFor index
    exact ⟨listed, changed, run, runVaried,
      (EStateM.Result.ok.inj (runVariedOnly.symm.trans runOnly)).1⟩

/-! ### Runs -/

section

variable [LawfulHost Buffer] [LawfulHost Other] {granted : Buffer → Prop}
  (granting : Granting granted) {allowed : Other → Prop} (grantingOther : Granting allowed)
  (wellFormed : shape.WellFormed)

include granting grantingOther wellFormed

/-- Where a map is created, the map with one of its indices can be created, and both are empty. -/
theorem init_only {start : Site Buffer} (here : granted start.buffer) {blank : Site Other}
    (there : allowed blank.buffer) (empty : blank.bytes.size = 0) {sizing : Sizing}
    (run : init shape sizing start = .ok () site) (position : Nat) :
    ∃ other : Site Other, init (shape.only position) sizing blank = .ok () other ∧
      ∃ capacity, grownCapacity 0 sizing.capacity sizing.log2MinGrowth = .ok capacity ∧
        Tracks granted shape site (.empty capacity sizing.log2MinGrowth) ∧
        Tracks allowed (shape.only position) other
          ((OrderedTable.empty capacity sizing.log2MinGrowth).only position) := by
  obtain ⟨image, holds, continues, least, step, -⟩ := holds_of_init wellFormed run
  have framed := holds.represents.framed
  have supported := (Layout.placed_of_compute wellFormed framed.computed).supported
  obtain ⟨reached, -, small⟩ := IsCapacity.of_grown least
  obtain ⟨other, runOther⟩ := @run_init_of_granting Other _ (shape.only position) blank _ _
    grantingOther there (wellFormed.only position) (supported.only position)
    Shape.length_indices_only_le (Nat.lt_of_le_of_lt Shape.rowSize_only_le framed.rowSize_lt) empty
    sizing (Nat.le_trans small reached.le_max) reached.le_log2
  obtain ⟨imageOther, holdsOther, continuesOther, leastOther, stepOther, -⟩ :=
    holds_of_init (wellFormed.only position) runOther
  refine ⟨other, runOther, image.header.capacity, least,
    ⟨continues granted granting here, image, holds, ?_⟩,
    continuesOther allowed grantingOther there, imageOther, ?_, ?_⟩
  · rw [Image.ordered, step]
    rfl
  · rw [OrderedTable.only, OrderedTable.empty, narrowed_empty]
    exact holdsOther
  · have capacity := Except.ok.inj (leastOther.symm.trans least)
    rw [Image.ordered, capacity, stepOther]
    rfl

/-- A map and the map that has one of its indices only give the same answers to the same changes,
and read alike after them. -/
theorem Tracks.run_only (few : shape.indices.length ≤ 2)
    (inside : position < shape.indices.length) {state : OrderedTable}
    (tracks : Tracks granted shape site state)
    (narrow : Tracks allowed (shape.only position) other (state.only position))
    {changes : List Change} (fits : ∀ change ∈ changes, change.Fits shape) :
    (Store.machine (Change.ask (shape.only position))).answers
        (changes.map (Change.only position)) other =
      ((Store.machine (Change.ask shape)).answers changes site).map
        (Except.map (Answer.only position)) ∧
    ReadsAlike shape position ((Store.machine (Change.ask shape)).reached changes site)
      ((Store.machine (Change.ask (shape.only position))).reached
        (changes.map (Change.only position)) other) := by
  have fitsOnly : ∀ change ∈ changes.map (Change.only position),
      change.Fits (shape.only position) := by
    intro change member
    obtain ⟨wide, memberWide, rfl⟩ := List.mem_map.mp member
    exact (fits wide memberWide).only position
  obtain ⟨answers, -, carries⟩ := tracks.run granting wellFormed few fits
  obtain ⟨answersOnly, -, carriesOnly⟩ := narrow.run grantingOther (wellFormed.only position)
    Shape.length_indices_only_le fitsOnly
  obtain ⟨translated, reached⟩ :=
    Machine.answers_map (OrderedTable.step_only shape position) changes state
  rw [reached] at carriesOnly
  rw [answersOnly, answers]
  exact ⟨translated, carries.readsAlike carriesOnly inside⟩

/-- On hosts that grant resizes, a map of one or two indices and the map that has one of these
indices only do the same all along: they give the same answers and read alike after every change.
So what the map answers by its keys and by one index does not depend on the other index, as long as
the other index takes bytes like all parts of the rows. -/
theorem indices_independent (few : shape.indices.length ≤ 2)
    (inside : position < shape.indices.length) {start : Site Buffer} (here : granted start.buffer)
    {blank : Site Other} (there : allowed blank.buffer) (empty : blank.bytes.size = 0)
    {sizing : Sizing} (run : init shape sizing start = .ok () site) :
    ∃ other : Site Other, init (shape.only position) sizing blank = .ok () other ∧
      ∀ changes : List Change, (∀ change ∈ changes, change.Fits shape) →
        (Store.machine (Change.ask (shape.only position))).answers
            (changes.map (Change.only position)) other =
          ((Store.machine (Change.ask shape)).answers changes site).map
            (Except.map (Answer.only position)) ∧
        ReadsAlike shape position ((Store.machine (Change.ask shape)).reached changes site)
          ((Store.machine (Change.ask (shape.only position))).reached
            (changes.map (Change.only position)) other) ∧
        ∀ others : List Change, (∀ change ∈ others, change.Fits shape) →
          others.map (Change.only position) = changes.map (Change.only position) →
          ((Store.machine (Change.ask shape)).answers others site).map
              (Except.map (Answer.only position)) =
            ((Store.machine (Change.ask shape)).answers changes site).map
              (Except.map (Answer.only position)) ∧
          SameAt shape position ((Store.machine (Change.ask shape)).reached changes site)
            ((Store.machine (Change.ask shape)).reached others site) := by
  obtain ⟨other, runOther, _, -, tracks, narrow⟩ :=
    init_only granting grantingOther wellFormed here there empty run position
  have follows {changes : List Change} (fits : ∀ change ∈ changes, change.Fits shape) :=
    tracks.run_only granting grantingOther wellFormed few inside narrow fits
  refine ⟨other, runOther, fun changes fits => ⟨(follows fits).1, (follows fits).2, ?_⟩⟩
  intro others fitsOthers same
  obtain ⟨answers, alike⟩ := follows fits
  obtain ⟨answersOthers, alikeOthers⟩ := follows fitsOthers
  rw [same] at answersOthers alikeOthers
  exact ⟨answersOthers.symm.trans answers, alike.sameAt alikeOthers⟩

end

/-- Two rows come, the first one goes, and the rows behind the gap cannot be moved down before the
map is flattened. -/
def shuffled (first second third : Nat) : List Change :=
  [.single (.add (.ofWords 1 [first, third] 10)), .single (.add (.ofWords 2 [second, third] 20)),
    .single (.tryAdd (.ofWords 2 [first, third] 30)), .single (.remove (Row.ofWords 1 [] 0).key),
    .removeRange 0 1, .single (.get (Row.ofWords 2 [] 0).key), .single (.setCapacity 300), .flatten]

theorem fits_shuffled (first second third : Nat) :
    ∀ change ∈ shuffled first second third, change.Fits (Shape.words 2) := by
  simp only [shuffled, List.mem_cons, List.not_mem_nil, or_false, forall_eq_or_imp, forall_eq]
  exact ⟨Row.fits_ofWords 1 [first, third] 10, Row.fits_ofWords 2 [second, third] 20,
    Row.fits_ofWords 2 [first, third] 30, trivial, trivial, trivial, trivial, trivial⟩

/-- The map of the second index does as the map of both, and that one lists the same rows by the
second index when the first ones differ. -/
theorem words_indices_independent :
    ∃ site : Site BlockBuffer, init (Shape.words 2) {} ⟨.empty none, []⟩ = .ok () site ∧
      ∃ other : Site BlockBuffer, init (Shape.words 1) {} ⟨.empty none, []⟩ = .ok () other ∧
        (Store.machine (Change.ask (Shape.words 1))).answers
            ((shuffled 7 8 5).map (Change.only 1)) other =
          [.ok (.number 0), .ok (.number 1), .ok (.flag false), .ok (.flag true),
            .error (.misuse .holes), .ok (.row (some (.ofWords 2 [5] 20))), .ok .done, .ok .done] ∧
        ReadsAlike (Shape.words 2) 1
          ((Store.machine (Change.ask (Shape.words 2))).reached (shuffled 7 8 5) site)
          ((Store.machine (Change.ask (Shape.words 1))).reached
            ((shuffled 7 8 5).map (Change.only 1)) other) ∧
        SameAt (Shape.words 2) 1
          ((Store.machine (Change.ask (Shape.words 2))).reached (shuffled 7 8 5) site)
          ((Store.machine (Change.ask (Shape.words 2))).reached (shuffled 5 5 5) site) := by
  obtain ⟨site, run⟩ := @run_init_of_granting BlockBuffer _ (Shape.words 2) ⟨.empty none, []⟩ _ _
    BlockBuffer.granting rfl (Shape.wellFormed_words 2) (Shape.supported_words 2) (by decide)
    (by decide) rfl {} (by decide) (by decide)
  let blank : Site BlockBuffer := ⟨.empty none, []⟩
  obtain ⟨other, runOther, alike⟩ := @indices_independent (Shape.words 2) 1 BlockBuffer BlockBuffer
    _ _ site _ _ _ BlockBuffer.granting _ BlockBuffer.granting (Shape.wellFormed_words 2)
    (by decide) (by decide) blank rfl blank rfl rfl {} run
  obtain ⟨answers, reads, same⟩ := alike (shuffled 7 8 5) (fits_shuffled 7 8 5)
  obtain ⟨_, -, capacity, least, tracks, -⟩ := @init_only (Shape.words 2) BlockBuffer BlockBuffer
    _ _ site _ _ _ BlockBuffer.granting _ BlockBuffer.granting (Shape.wellFormed_words 2)
    blank rfl blank rfl rfl {} run 1
  obtain rfl : 256 = capacity := Except.ok.inj least
  obtain ⟨expected, -⟩ := tracks.run BlockBuffer.granting (Shape.wellFormed_words 2) (by decide)
    (fits_shuffled 7 8 5)
  rw [expected] at answers
  exact ⟨site, run, other, runOther, answers.trans rfl, reads,
    (same (shuffled 5 5 5) (fits_shuffled 5 5 5) rfl).2⟩

/-- Rows of words with a second index that takes no bytes. -/
def Shape.unitIndexed : Shape := { Shape.words 2 with indices := [wordKey, unitKey] }

theorem Shape.wellFormed_unitIndexed : unitIndexed.WellFormed := by
  refine ⟨ElementType.wellFormed_word32, ?_⟩
  simp only [kinds, unitIndexed, words, List.mem_cons, List.not_mem_nil, or_false,
    forall_eq_or_imp, forall_eq]
  exact ⟨ElementType.wellFormed_word32, ElementType.wellFormed_word32, ElementType.wellFormed_unit⟩

theorem Shape.supported_unitIndexed : unitIndexed.Supported := by
  refine ⟨(by decide : 4 ≤ 16), ?_⟩
  simp only [kinds, unitIndexed, words, List.mem_cons, List.not_mem_nil, or_false,
    forall_eq_or_imp, forall_eq]
  exact ⟨(by decide : 4 ≤ 16), (by decide : 4 ≤ 16), (by decide : 1 ≤ 16)⟩

def Row.unitIndexed : Row :=
  { Row.ofWords 1 [7] 10 with indices := [(Bytes.littleEndian 4 7).toArray, #[]] }

theorem Row.typed_unitIndexed : unitIndexed.Typed Shape.unitIndexed := by
  refine ⟨rfl, rfl, fun position kind cell isKind isCell => ?_⟩
  match position with
  | 0 | 1 | 2 =>
    obtain rfl := Option.some.inj isKind
    obtain rfl := Option.some.inj isCell
    rfl
  | position + 3 => exact absurd isKind (by simp [Shape.kinds, Shape.unitIndexed])

theorem Shape.not_sized_unitIndexed : ¬ unitIndexed.Sized := fun sized =>
  absurd (sized.kinds unitKey (by simp [kinds, unitIndexed])) (by decide)

/-- A second index that takes no bytes keeps a row out of the map, and the map of the first index
takes it. -/
theorem unit_index_not_independent :
    ∃ (site other : Site BlockBuffer) (row : Row), row.Typed Shape.unitIndexed ∧
      init Shape.unitIndexed {} ⟨.empty none, []⟩ = .ok () site ∧
      init (Shape.unitIndexed.only 0) {} ⟨.empty none, []⟩ = .ok () other ∧
      (Store.machine (Change.ask Shape.unitIndexed)).answers [.single (.add row)] site =
        [.error (.fault .outOfRange)] ∧
      (Store.machine (Change.ask (Shape.unitIndexed.only 0))).answers
        ([Change.single (.add row)].map (Change.only 0)) other = [.ok (.number 0)] := by
  have wellFormed := Shape.wellFormed_unitIndexed
  let blank : Site BlockBuffer := ⟨.empty none, []⟩
  obtain ⟨site, run⟩ := @run_init_of_granting BlockBuffer _ Shape.unitIndexed blank _ _
    BlockBuffer.granting rfl wellFormed Shape.supported_unitIndexed (by decide)
    (by decide) rfl {} (by decide) (by decide)
  obtain ⟨other, runOther, capacity, least, -, narrow⟩ := @init_only Shape.unitIndexed BlockBuffer
    BlockBuffer _ _ site _ _ _ BlockBuffer.granting _ BlockBuffer.granting wellFormed blank rfl blank
    rfl rfl {} run 0
  obtain rfl : 256 = capacity := Except.ok.inj least
  obtain ⟨image, created, -, -⟩ := holds_of_init wellFormed run
  obtain ⟨later, fails, -⟩ :=
    created.run_add_unsized Row.typed_unitIndexed Shape.not_sized_unitIndexed
  have outcome : (Change.ask Shape.unitIndexed (.single (.add Row.unitIndexed))) site =
      .error (.fault .outOfRange) later := by
    simp only [Change.ask, Operation.run, Edit.run_bind, fails]
  have fits : ∀ change ∈ [Change.single (.add Row.unitIndexed)].map (Change.only 0),
      change.Fits (Shape.unitIndexed.only 0) := by
    intro change member
    obtain rfl := List.mem_singleton.mp member
    exact Row.fits_ofWords 1 [7] 10
  obtain ⟨expected, -⟩ :=
    narrow.run BlockBuffer.granting (wellFormed.only 0) Shape.length_indices_only_le fits
  refine ⟨site, other, _, Row.typed_unitIndexed, run, runOther, ?_, expected.trans rfl⟩
  simp only [Machine.answers, Store.machine, Store.outcome_error outcome]

end PackedStore.IndexedMap
