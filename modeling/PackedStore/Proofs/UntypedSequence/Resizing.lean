/-
This file follows an untyped sequence through resizes of its block. More slots are
laid out anew, with the old records at the front of the new arrays; more arena only
moves the end of the block. Either way every element has its descriptor and its
bytes afterwards, whatever else the host put there. A refused resize, or a layout
that does not exist, leaves the site as it was.
-/

import PackedStore.Proofs.UntypedSequence.Contents

namespace PackedStore.UntypedSequence

variable {Buffer : Type} [Host Buffer] {site : Site Buffer} {image : Image} {elements : List Datum}

/-! ### Images with more room -/

/-- A header with other capacities. -/
def Header.resized (header : Header) (capacity dataCapacity : Nat) : Header :=
  { header with capacity, dataCapacity }

/-- An image that starts with the same records and whose arena starts with the same bytes. -/
structure Image.Extends (image grown : Image) : Prop where
  described : ∀ index, index < image.header.capacity →
    grown.descriptor index = image.descriptor index
  data : ∀ position, position < image.header.dataCapacity →
    grown.data[position]? = image.data[position]?

/-- A sequence with more room holds the same elements. -/
theorem Represents.extend (represents : Represents image elements) {grown : Image}
    {capacity dataCapacity : Nat} (sound : grown.Sound) (extension : image.Extends grown)
    (header : grown.header = image.header.resized capacity dataCapacity)
    (reached : IsCapacity image.header.log2MinGrowth capacity)
    (dataReached : IsArenaCapacity image.header.log2MinGrowth dataCapacity)
    (more : image.header.capacity ≤ capacity)
    (moreData : image.header.dataCapacity ≤ dataCapacity) : Represents grown elements := by
  have regular := represents.regular
  have room : image.data.size ≤ grown.data.size := by
    rw [represents.sound.size_data, sound.size_data, header]
    exact moreData
  refine ⟨sound, ?_, ?_, ?_, represents.packs.congr (fun place below => ?_) room
    (fun position _ below => ?_), represents.storable⟩
  · rw [header]
    exact ⟨regular.magic, reached, dataReached, Nat.le_trans regular.count_le more,
      Nat.le_trans regular.allocated_le moreData, regular.spare⟩
  · rw [header]
    exact represents.count
  · rw [header]
    exact represents.allocated
  · refine extension.described _ (Nat.lt_of_lt_of_le ?_ represents.length_le)
    rwa [Nat.zero_add]
  · exact extension.data position (Nat.lt_of_lt_of_le below represents.packed_le)

/-- Segments whose bytes stand at the front of other ones give an image that extends the old one. -/
theorem Image.extends_at {old new : Layout} {header grown : Header} {bytes other : Bytes}
    (placed : old.Placed header.capacity header.dataCapacity)
    (placedNew : new.Placed grown.capacity grown.dataCapacity)
    (more : header.capacity ≤ grown.capacity) (moreData : header.dataCapacity ≤ grown.dataCapacity)
    (kept : ∀ move ∈ (old.moves new).tail, ∀ position, position < move.1.length →
      other[move.2.offset + position]? = bytes[move.1.offset + position]?) :
    (Image.at old header bytes).Extends (Image.at new grown other) := by
  have inTail (position : Nat) {first second : Segment}
      (there : (old.moves new).tail[position]? = some (first, second)) (place : Nat)
      (below : place < first.length) : other[second.offset + place]? = bytes[first.offset + place]? :=
    kept (first, second) (List.mem_of_getElem? there) place below
  refine ⟨fun index below => ?_, fun position below => ?_⟩
  · have front {α : Type} (codec : Codec α) (four : codec.width = 4) (number : Nat)
        {first second : Segment} (length : first.length = header.capacity * 4)
        (there : (old.moves new).tail[number]? = some (first, second)) :
        (codec.readArray other second.offset grown.capacity)[index]? =
          (codec.readArray bytes first.offset header.capacity)[index]? := by
      refine Codec.getElem?_readArray_front more
        (fun place inside => inTail number there place ?_) below
      rwa [length, ← four]
    simp only [descriptor, Image.at, front (Codec.nat 4) rfl 0 placed.offsets rfl,
      front (Codec.nat 4) rfl 1 placed.sizes rfl, front TypeTag.codec rfl 2 placed.types rfl,
      front (Codec.nat 4) rfl 3 placed.aligns rfl]
  · have inside : position < old.data.length := by
      rw [placed.data]
      exact below
    have insideNew : position < new.data.length := by
      rw [placedNew.data]
      exact Nat.lt_of_lt_of_le below moreData
    show (other.extract new.data.offset (new.data.offset + new.data.length))[position]? =
      (bytes.extract old.data.offset (old.data.offset + old.data.length))[position]?
    rw [Bytes.getElem?_extract_width, Bytes.getElem?_extract_width, if_pos inside, if_pos insideNew]
    exact inTail 4 rfl position inside

/-! ### Moving to another layout -/

section

variable {old new : Layout} {capacity dataCapacity larger : Nat}

/-- All moved segments fit into a larger layout. -/
theorem Layout.movable (placedOld : old.Placed capacity dataCapacity)
    (placedNew : new.Placed larger dataCapacity) (grows : capacity ≤ larger) :
    Store.Movable old.total new.total (old.moves new) := by
  have words {length : Nat} (isLength : length = larger * 4) : capacity * 4 ≤ length := by
    rw [isLength]
    exact Nat.mul_le_mul_right _ grows
  have each (move : Segment × Segment) (member : move ∈ old.moves new) :
      move.1 ∈ old.segments ∧ move.2 ∈ new.segments ∧ move.1.length ≤ move.2.length := by
    simp only [moves, List.mem_cons, List.not_mem_nil, or_false] at member
    rcases member with rfl | rfl | rfl | rfl | rfl | rfl
    · exact ⟨by simp [segments], by simp [segments], Nat.le_of_eq
        (congrArg Segment.length (placedOld.header.trans placedNew.header.symm))⟩
    · exact ⟨by simp [segments], by simp [segments], placedOld.offsets ▸ words placedNew.offsets⟩
    · exact ⟨by simp [segments], by simp [segments], placedOld.sizes ▸ words placedNew.sizes⟩
    · exact ⟨by simp [segments], by simp [segments], placedOld.types ▸ words placedNew.types⟩
    · exact ⟨by simp [segments], by simp [segments], placedOld.aligns ▸ words placedNew.aligns⟩
    · exact ⟨by simp [segments], by simp [segments],
        Nat.le_of_eq (placedOld.data.trans placedNew.data.symm)⟩
  exact ⟨fun move member => placedOld.stop_le (each move member).1,
    fun move member => placedNew.stop_le (each move member).2.1,
    fun move member => (each move member).2.2⟩

end

/-! ### Writing a header -/

/-- After its header has been written, the block holds the image that stands in it. -/
theorem run_writeHeader [LawfulHost Buffer] {header : Header} (fits : header.Fits) {layout : Layout}
    (computed : Layout.compute header.capacity header.dataCapacity = .ok layout)
    (size : site.bytes.size = layout.total) :
    ∃ later, writeHeader header site = .ok () later ∧ later.bytes = header.words.save site.bytes ∧
      later.bytes.size = layout.total ∧
      Image.load later.bytes = .ok (Image.at layout header later.bytes) ∧ site.Continues later := by
  have placed := Layout.placed_of_compute computed
  have room : headerLength ≤ site.bytes.size := by
    rw [size]
    exact placed.header_le
  have bytes : (site.put (header.words.save site.bytes)).bytes = header.words.save site.bytes :=
    Site.bytes_put HeaderWords.size_save
  have total : (site.put (header.words.save site.bytes)).bytes.size = layout.total := by
    rw [bytes, HeaderWords.size_save, size]
  refine ⟨_, ?_, bytes, total, ?_, Site.Continues.put site _⟩
  · simp only [writeHeader, Edit.run_bind, Store.run_bytes, Store.run_write]
  · refine Image.load_eq_ok.mpr ⟨header, layout, ?_, computed, Nat.le_of_eq total.symm, rfl⟩
    rw [bytes]
    exact Header.load_eq_ok.mpr ⟨header.words, HeaderWords.load_save rfl fits room, rfl⟩

/-- A resized block still has the header of the sequence. -/
theorem run_header_of_same {resized : Site Buffer} {header : Header}
    (loaded : Header.load site.bytes = .ok header) (room : headerLength ≤ resized.bytes.size)
    (same : ∀ position, position < headerLength →
      resized.bytes[position]? = site.bytes[position]?) :
    UntypedSequence.header resized = .ok header resized := by
  obtain ⟨words, loadedWords, isHeader⟩ := Header.load_eq_ok.mp loaded
  have loadedResized : Header.load resized.bytes = .ok header :=
    Header.load_eq_ok.mpr ⟨words, HeaderWords.load_congr room loadedWords same, isHeader⟩
  simp only [UntypedSequence.header, Edit.run_bind, Store.run_bytes, loadedResized, Edit.run_lift_ok]

/-! ### Refusals -/

/-- A number of slots and arena bytes is refused when there is no layout for it, or when the host
refuses its length. -/
def Refuses (site : Site Buffer) (capacity dataCapacity : Nat) (failure : Failure) : Prop :=
  Layout.compute capacity dataCapacity = .error failure ∨
    ∃ new error, Layout.compute capacity dataCapacity = .ok new ∧
      Host.resize site.buffer new.total = .error error ∧ failure = .storage error

theorem refuses_or_grants (site : Site Buffer) (capacity dataCapacity : Nat) :
    (∃ failure, Refuses site capacity dataCapacity failure) ∨
      ∃ new buffer, Layout.compute capacity dataCapacity = .ok new ∧
        Host.resize site.buffer new.total = .ok buffer := by
  cases computed : Layout.compute capacity dataCapacity with
  | error failure => exact Or.inl ⟨failure, Or.inl computed⟩
  | ok new =>
    cases resized : Host.resize site.buffer new.total with
    | error error => exact Or.inl ⟨_, Or.inr ⟨new, error, computed, resized, rfl⟩⟩
    | ok buffer => exact Or.inr ⟨new, buffer, rfl, resized⟩

theorem Refuses.isStorage {capacity dataCapacity : Nat} {failure : Failure}
    (refuses : Refuses site capacity dataCapacity failure) : failure.IsStorage := by
  rcases refuses with failed | ⟨new, error, -, -, rfl⟩
  · exact Layout.bounded_compute _ failed
  · exact ⟨error, rfl⟩

/-- Some capacities that growth can reach are refused. -/
def CannotGrow (site : Site Buffer) (failure : Failure) : Prop :=
  ∃ capacity dataCapacity, capacity ≤ maxCapacity ∧ dataCapacity ≤ maxCapacity ∧
    Refuses site capacity dataCapacity failure

/-- A host that grants resizes refuses no capacities that growth can reach. -/
theorem not_cannotGrow {granted : Buffer → Prop} (granting : Granting granted)
    (here : granted site.buffer) {failure : Failure} : ¬ CannotGrow site failure := by
  rintro ⟨capacity, dataCapacity, bound, dataBound, refuses⟩
  obtain ⟨layout, computed, total⟩ := Layout.compute_of bound dataBound
  rcases refuses with failed | ⟨new, error, computed', refused, -⟩
  · exact absurd (computed.symm.trans failed) (by simp)
  · obtain rfl := Except.ok.inj (computed.symm.trans computed')
    obtain ⟨resized, run⟩ := granting.resizes site.buffer layout.total here total
    exact absurd (run.symm.trans refused) (by simp)

/-! ### More room -/

namespace Holds

/-- A block with the old records at the places of a larger layout holds the same elements when the
new capacities are written to its header. -/
theorem run_resized [LawfulHost Buffer] (holds : Holds site image elements) {moved : Site Buffer}
    {new : Layout} {capacity dataCapacity : Nat}
    (reached : IsCapacity image.header.log2MinGrowth capacity)
    (dataReached : IsArenaCapacity image.header.log2MinGrowth dataCapacity)
    (more : image.header.capacity ≤ capacity) (moreData : image.header.dataCapacity ≤ dataCapacity)
    (computed : Layout.compute capacity dataCapacity = .ok new)
    (size : moved.bytes.size = new.total)
    (kept : ∀ move ∈ (image.layout.moves new).tail, ∀ position, position < move.1.length →
      moved.bytes[move.2.offset + position]? = site.bytes[move.1.offset + position]?) :
    ∃ later grown, writeHeader (image.header.resized capacity dataCapacity) moved = .ok () later ∧
      Holds later grown elements ∧ grown.header = image.header.resized capacity dataCapacity ∧
      moved.Continues later := by
  have represents := holds.represents
  have regular := represents.regular
  have placed := represents.sound.placed
  have placedNew := Layout.placed_of_compute computed
  have regularResized : (image.header.resized capacity dataCapacity).Regular :=
    ⟨regular.magic, reached, dataReached, Nat.le_trans regular.count_le more,
      Nat.le_trans regular.allocated_le moreData, regular.spare⟩
  obtain ⟨later, runWrite, bytesLater, sizeLater, loaded, continues⟩ :=
    run_writeHeader regularResized.fits computed size
  have extension := @Image.extends_at image.layout new image.header
    (image.header.resized capacity dataCapacity) site.bytes later.bytes placed placedNew more moreData
    (by
      intro move member position below
      have inTail : move.2 ∈ (image.layout.moves new).tail.map Prod.snd := List.mem_map_of_mem member
      have behind := placedNew.header_before inTail
      rw [bytesLater, HeaderWords.getElem?_save rfl (Nat.le_trans behind (Nat.le_add_right _ _))]
      exact kept move member position below)
  rw [holds.at_eq] at extension
  exact ⟨later, _, runWrite, ⟨loaded, sizeLater, represents.extend (Image.sound_of_load loaded)
    extension rfl reached dataReached more moreData⟩, rfl, continues⟩

/-! ### More slots -/

/-- Growth that is refused changes nothing. -/
theorem run_grow_refused (holds : Holds site image elements) {capacity : Nat}
    (reached : IsCapacity image.header.log2MinGrowth capacity)
    (grows : image.header.capacity < capacity) {failure : Failure}
    (refuses : Refuses site capacity image.header.dataCapacity failure) :
    grow capacity site = .error failure site := by
  have sound := holds.represents.sound
  have old : Layout.ofHeader image.header = .ok image.layout := recorded_eq_ok.mpr sound.computed
  have word := toWord32_of (show capacity < 2 ^ 32 by have := reached.lt_word; omega) .slotCapacity
  rcases refuses with failed | ⟨new, error, computed, refused, rfl⟩
  · simp only [grow, Edit.run_bind, holds.run_header, require_of grows, Edit.run_lift_ok, word, old,
      failed, Edit.run_lift_error]
  · have movable :=
      Layout.movable sound.placed (Layout.placed_of_compute computed) (Nat.le_of_lt grows)
    rw [← holds.size_eq] at movable
    simp only [grow, Edit.run_bind, holds.run_header, require_of grows, Edit.run_lift_ok, word, old,
      computed, Store.run_relocate_error movable.source refused]

/-- The sequence has a larger number of slots, or that number is refused. -/
theorem run_grow [LawfulHost Buffer] (holds : Holds site image elements) {capacity : Nat}
    (reached : IsCapacity image.header.log2MinGrowth capacity)
    (grows : image.header.capacity < capacity) :
    (∃ failure, grow capacity site = .error failure site ∧
      Refuses site capacity image.header.dataCapacity failure) ∨
    ∃ later grown, grow capacity site = .ok () later ∧ Holds later grown elements ∧
      grown.header = image.header.resized capacity image.header.dataCapacity ∧
      site.Continues later := by
  rcases refuses_or_grants site capacity image.header.dataCapacity with
    ⟨failure, refuses⟩ | ⟨new, buffer, computed, resized⟩
  · exact Or.inl ⟨failure, holds.run_grow_refused reached grows refuses, refuses⟩
  have represents := holds.represents
  have placed := represents.sound.placed
  have old : Layout.ofHeader image.header = .ok image.layout :=
    recorded_eq_ok.mpr represents.sound.computed
  have more := Nat.le_of_lt grows
  have word := toWord32_of (show capacity < 2 ^ 32 by have := reached.lt_word; omega) .slotCapacity
  have placedNew := Layout.placed_of_compute computed
  have movable := Layout.movable placed placedNew more
  rw [← holds.size_eq] at movable
  have disjoint : ((image.layout.moves new).map Prod.snd).Pairwise Segment.Disjoint :=
    placedNew.spans.disjoint
  obtain ⟨moved, runMove, sizeMoved, copied, continuesMoved⟩ :=
    Store.run_relocate_disjoint movable disjoint resized
  -- the header is the first of the moved segments
  have headerMoved : header moved = .ok image.header moved := by
    refine run_header_of_same holds.load_header ?_ fun position below => ?_
    · rw [sizeMoved]
      exact placedNew.header_le
    · have same := copied (image.layout.header, new.header) List.mem_cons_self position
        (by rw [placed.header]; exact below)
      simpa [placed.header, placedNew.header] using same
  obtain ⟨later, grown, runWrite, holdsLater, isHeader, continues⟩ :=
    holds.run_resized reached represents.regular.dataReached more (Nat.le_refl _) computed sizeMoved
      fun move member => copied move (List.mem_of_mem_tail member)
  unfold Header.resized at runWrite
  refine Or.inr ⟨{ later with events := later.events ++
      [.slotsGrow .untypedSequence image.header.capacity capacity] }, grown, ?_,
    ⟨holdsLater.loaded, holdsLater.size_eq, holdsLater.represents⟩, isHeader,
    continuesMoved.trans (continues.trans (Site.Continues.report later _))⟩
  simp only [grow, Edit.run_bind, holds.run_header, require_of grows, Edit.run_lift_ok, word, old,
    computed, runMove, headerMoved, runWrite, Store.run_report]

/-! ### More arena -/

/-- The arena is the last segment, so moving the end of the block moves no record. -/
theorem kept_of_resize [LawfulHost Buffer] (holds : Holds site image elements) {dataCapacity : Nat}
    (moreData : image.header.dataCapacity ≤ dataCapacity) {buffer : Buffer}
    (resized : Host.resize site.buffer (image.layout.withData dataCapacity).total = .ok buffer) :
    image.layout.total ≤ (image.layout.withData dataCapacity).total ∧
      ∀ position, position < image.layout.total →
        (site.withBuffer buffer).bytes[position]? = site.bytes[position]? := by
  have computed := holds.represents.sound.computed
  have longer : image.layout.total ≤ (image.layout.withData dataCapacity).total := by
    rw [Layout.compute_withData computed computed]
    exact Nat.add_le_add_left moreData _
  refine ⟨longer, fun position below => LawfulHost.getElem?_resize site.buffer buffer _ position
    resized (Nat.lt_of_lt_of_le below longer) ?_⟩
  show position < site.bytes.size
  rw [holds.size_eq]
  exact below

theorem offset_of_mem_moves {layout : Layout} {dataCapacity : Nat} {move : Segment × Segment}
    (member : move ∈ layout.moves (layout.withData dataCapacity)) :
    move.2.offset = move.1.offset := by
  simp only [Layout.moves, List.mem_cons, List.not_mem_nil, or_false] at member
  rcases member with rfl | rfl | rfl | rfl | rfl | rfl <;> rfl

/-- A larger arena that is refused changes nothing. -/
theorem run_widen_refused (holds : Holds site image elements) {required dataCapacity : Nat}
    (needed : image.header.dataCapacity < required)
    (grown : grownDataCapacity image.header.dataCapacity required image.header.log2MinGrowth =
      .ok dataCapacity)
    (reached : IsCapacity image.header.log2MinGrowth dataCapacity) {failure : Failure}
    (refuses : Refuses site image.header.capacity dataCapacity failure) :
    ensureData required site = .error failure site := by
  have word :=
    toWord32_of (show dataCapacity < 2 ^ 32 by have := reached.lt_word; omega) .arenaCapacity
  rcases refuses with failed | ⟨new, error, computed, refused, rfl⟩
  · simp only [ensureData, Edit.run_bind, holds.run_header, if_pos needed, grown, word,
      Edit.run_lift_ok, failed, Edit.run_lift_error]
  · simp only [ensureData, Edit.run_bind, holds.run_header, if_pos needed, grown, word,
      Edit.run_lift_ok, computed, Store.run_resize_error refused]

/-- The arena has a larger capacity, or that capacity is refused. -/
theorem run_widen [LawfulHost Buffer] (holds : Holds site image elements) {required dataCapacity : Nat}
    (needed : image.header.dataCapacity < required)
    (grown : grownDataCapacity image.header.dataCapacity required image.header.log2MinGrowth =
      .ok dataCapacity)
    (reached : IsCapacity image.header.log2MinGrowth dataCapacity)
    (moreData : image.header.dataCapacity ≤ dataCapacity) :
    (∃ failure, ensureData required site = .error failure site ∧
      Refuses site image.header.capacity dataCapacity failure) ∨
    ∃ later wide, ensureData required site = .ok () later ∧ Holds later wide elements ∧
      wide.header = image.header.resized image.header.capacity dataCapacity ∧
      site.Continues later := by
  rcases refuses_or_grants site image.header.capacity dataCapacity with
    ⟨failure, refuses⟩ | ⟨new, buffer, computed, resized⟩
  · exact Or.inl ⟨failure, holds.run_widen_refused needed grown reached refuses, refuses⟩
  have represents := holds.represents
  have placed := represents.sound.placed
  have word :=
    toWord32_of (show dataCapacity < 2 ^ 32 by have := reached.lt_word; omega) .arenaCapacity
  have size : (site.withBuffer buffer).bytes.size = new.total :=
    LawfulHost.size_resize site.buffer buffer new.total resized
  obtain rfl := Layout.compute_withData represents.sound.computed computed
  obtain ⟨longer, kept⟩ := holds.kept_of_resize moreData resized
  have headerResized : header (site.withBuffer buffer) =
      .ok image.header (site.withBuffer buffer) := by
    refine run_header_of_same holds.load_header ?_ fun position below => ?_
    · rw [size]
      exact Nat.le_trans placed.header_le longer
    · exact kept position (Nat.lt_of_lt_of_le below placed.header_le)
  have records (move : Segment × Segment)
      (member : move ∈ (image.layout.moves (image.layout.withData dataCapacity)).tail)
      (position : Nat) (below : position < move.1.length) :
      (site.withBuffer buffer).bytes[move.2.offset + position]? =
        site.bytes[move.1.offset + position]? := by
    have inMoves := List.mem_of_mem_tail member
    have inSegments : move.1 ∈ (image.layout.moves (image.layout.withData dataCapacity)).map
        Prod.fst := List.mem_map_of_mem inMoves
    have stop := placed.stop_le inSegments
    simp only [Segment.stop] at stop
    rw [offset_of_mem_moves inMoves]
    exact kept _ (by omega)
  obtain ⟨later, wide, runWrite, holdsLater, isHeader, continues⟩ :=
    holds.run_resized represents.regular.reached (Or.inr reached) (Nat.le_refl _) moreData computed
      size records
  unfold Header.resized at runWrite
  refine Or.inr ⟨{ later with events := later.events ++
      [.arenaGrows .untypedSequence image.header.dataCapacity dataCapacity] }, wide, ?_,
    ⟨holdsLater.loaded, holdsLater.size_eq, holdsLater.represents⟩, isHeader,
    (Site.Continues.resize resized).trans (continues.trans (Site.Continues.report later _))⟩
  simp only [ensureData, Edit.run_bind, holds.run_header, if_pos needed, grown, word,
    Edit.run_lift_ok, computed, Store.run_resize_ok resized, headerResized, runWrite,
    Store.run_report]

/-- Room for a number of bytes is made in the arena, or the request is refused. -/
theorem run_ensureData [LawfulHost Buffer] (holds : Holds site image elements) (required : Nat) :
    (∃ failure, ensureData required site = .error failure site ∧ failure.IsStorage ∧
      (maxCapacity < required ∨ CannotGrow site failure)) ∨
    ∃ later wide, ensureData required site = .ok () later ∧ Holds later wide elements ∧
      required ≤ wide.header.dataCapacity ∧ wide.header.capacity = image.header.capacity ∧
      site.Continues later := by
  have regular := holds.represents.regular
  have step := regular.reached.le_log2
  have reached := regular.dataReached
  by_cases needed : image.header.dataCapacity < required
  · by_cases large : maxCapacity < required
    · refine Or.inl ⟨.overflow .arenaCapacity, ?_, Failure.isStorage_overflow _, Or.inl large⟩
      simp only [ensureData, Edit.run_bind, holds.run_header, if_pos needed,
        grownDataCapacity_eq_error step reached needed large, Edit.run_lift_error]
    · obtain ⟨dataCapacity, grown, reachedMore, room⟩ :=
        grownDataCapacity_of step reached needed (Nat.le_of_not_lt large)
      rcases holds.run_widen needed grown reachedMore (by omega) with
        ⟨failure, refused, refuses⟩ | ⟨later, wide, run, holdsLater, isHeader, continues⟩
      · exact Or.inl ⟨failure, refused, refuses.isStorage, Or.inr ⟨_, _, regular.reached.le_max,
          reachedMore.le_max, refuses⟩⟩
      · refine Or.inr ⟨later, wide, run, holdsLater, ?_, ?_, continues⟩
        · rw [isHeader]
          exact room
        · rw [isHeader]
          rfl
  · refine Or.inr ⟨site, image, ?_, holds, Nat.le_of_not_lt needed, rfl, Site.Continues.refl site⟩
    simp only [ensureData, Edit.run_bind, holds.run_header, if_neg needed, Edit.run_pure]

end Holds

/-! ### Creation -/

/-- The header of a new sequence. -/
def Header.initial (capacity dataCapacity log2MinGrowth : Nat) : Header where
  magic := UntypedSequence.magic
  count := 0
  capacity := capacity
  dataCapacity := dataCapacity
  dataAllocated := 0
  log2MinGrowth := log2MinGrowth
  spare := (0, 0)

/-- A sound image whose header counts no elements stands for none. -/
theorem Image.Sound.represents_nil (sound : image.Sound) (regular : image.header.Regular)
    (count : image.header.count = 0) (allocated : image.header.dataAllocated = 0) :
    Represents image [] :=
  ⟨sound, regular, count, allocated, trivial, by simp⟩

/-- What creation does when the numbers have been found acceptable. -/
def initTo (header : Header) (layout : Layout) : Store Buffer Unit := do
  Store.resize layout.total
  writeHeader header

section

variable {sizing : Sizing} {capacity dataCapacity : Nat} (empty : site.bytes.size = 0)
  (grown : grownCapacity 0 sizing.capacity sizing.log2MinGrowth = .ok capacity)
  (grownData : initialData sizing = .ok dataCapacity)

include empty grown grownData

/-- Numbers that are refused leave the block empty. -/
theorem run_init_refused {failure : Failure} (refuses : Refuses site capacity dataCapacity failure) :
    init sizing site = .error failure site := by
  have reached := (IsCapacity.of_grown grown).1.le_max
  have dataReached := (isArenaCapacity_of_initialData grownData).le_max
  unfold maxCapacity at reached dataReached
  have word := toWord32_of (show capacity < 2 ^ 32 by omega) .slotCapacity
  have dataWord := toWord32_of (show dataCapacity < 2 ^ 32 by omega) .arenaCapacity
  rcases refuses with failed | ⟨new, error, computed, refused, rfl⟩
  · simp only [init, Edit.run_bind, Store.run_length, demand_of empty, Edit.run_lift_ok, grown,
      lift_initialData, grownData, failed, Edit.run_lift_error]
  · simp only [init, Edit.run_bind, Store.run_length, demand_of empty, Edit.run_lift_ok, grown,
      lift_initialData, grownData, computed, word, dataWord, Store.run_resize_error refused]

/-- Numbers that are accepted decide what is asked of the host and what the header says. -/
theorem init_eq {layout : Layout} (computed : Layout.compute capacity dataCapacity = .ok layout) :
    init sizing site =
      initTo (.initial capacity dataCapacity sizing.log2MinGrowth) layout site := by
  have small := (IsCapacity.of_grown grown).1.le_max
  have dataSmall := (isArenaCapacity_of_initialData grownData).le_max
  unfold maxCapacity at small dataSmall
  have word := toWord32_of (show capacity < 2 ^ 32 by omega) .slotCapacity
  have dataWord := toWord32_of (show dataCapacity < 2 ^ 32 by omega) .arenaCapacity
  simp only [init, initTo, Header.initial, Edit.run_bind, Store.run_length, demand_of empty,
    Edit.run_lift_ok, grown, lift_initialData, grownData, computed, word, dataWord]

/-- A block of the right length becomes an empty sequence, whatever it holds. -/
theorem run_init_granted [LawfulHost Buffer] {layout : Layout}
    (computed : Layout.compute capacity dataCapacity = .ok layout) {buffer : Buffer}
    (resized : Host.resize site.buffer layout.total = .ok buffer) :
    ∃ later image, init sizing site = .ok () later ∧ Holds later image [] ∧
      image.header = .initial capacity dataCapacity sizing.log2MinGrowth ∧
      site.Continues later := by
  have reached := (IsCapacity.of_grown grown).1
  have dataReached := isArenaCapacity_of_initialData grownData
  have regular : (Header.initial capacity dataCapacity sizing.log2MinGrowth).Regular :=
    ⟨rfl, reached, dataReached, Nat.zero_le _, Nat.zero_le _, rfl⟩
  obtain ⟨later, runWrite, -, size, loaded, continues⟩ :=
    @run_writeHeader _ _ (site.withBuffer buffer) _ _ regular.fits layout computed
      (LawfulHost.size_resize site.buffer buffer layout.total resized)
  refine ⟨later, _, ?_, ⟨loaded, size, (Image.sound_of_load loaded).represents_nil regular rfl rfl⟩,
    rfl, (Site.Continues.resize resized).trans continues⟩
  rw [init_eq empty grown grownData computed, initTo, Edit.run_bind, Store.run_resize_ok resized]
  exact runWrite

end

/-- An empty block becomes an empty sequence, or stays as it was; one that is in use always stays
as it was. -/
theorem run_init [LawfulHost Buffer] (sizing : Sizing) :
    (∃ failure, init sizing site = .error failure site ∧
      ((site.bytes.size ≠ 0 ∧
          failure = .misuse (.blockInUse .untypedSequence site.bytes.size)) ∨
        failure.IsStorage)) ∨
    ∃ later image, init sizing site = .ok () later ∧ Holds later image [] ∧
      site.Continues later := by
  by_cases empty : site.bytes.size = 0
  · cases grown : grownCapacity 0 sizing.capacity sizing.log2MinGrowth with
    | error failure =>
      refine Or.inl ⟨failure, ?_, Or.inr (bounded_grownCapacity _ grown)⟩
      simp only [init, Edit.run_bind, Store.run_length, demand_of empty, Edit.run_lift_ok, grown,
        Edit.run_lift_error]
    | ok capacity =>
      cases grownData : initialData sizing with
      | error failure =>
        refine Or.inl ⟨failure, ?_, Or.inr (bounded_initialData sizing _ grownData)⟩
        simp only [init, Edit.run_bind, Store.run_length, demand_of empty, Edit.run_lift_ok, grown,
          lift_initialData, grownData, Edit.run_lift_error]
      | ok dataCapacity =>
        rcases refuses_or_grants site capacity dataCapacity with
          ⟨failure, refuses⟩ | ⟨layout, buffer, computed, resized⟩
        · exact Or.inl ⟨failure, run_init_refused empty grown grownData refuses,
            Or.inr refuses.isStorage⟩
        · obtain ⟨later, image, run, holds, -, continues⟩ :=
            run_init_granted empty grown grownData computed resized
          exact Or.inr ⟨later, image, run, holds, continues⟩
  · refine Or.inl ⟨_, ?_, Or.inl ⟨empty, rfl⟩⟩
    simp only [init, Edit.run_bind, Store.run_length, demand_of_not empty, Edit.run_lift_error]

/-- A sequence that has been created has no elements. -/
theorem holds_of_init [LawfulHost Buffer] {sizing : Sizing} {later : Site Buffer}
    (run : init sizing site = .ok () later) :
    ∃ image, Holds later image [] ∧ site.Continues later := by
  rcases @run_init _ _ site _ sizing with ⟨failure, failed, -⟩ | ⟨created, image, ran, holds, continues⟩
  · exact absurd (run.symm.trans failed) (by simp)
  · obtain ⟨-, rfl⟩ := EStateM.Result.ok.inj (run.symm.trans ran)
    exact ⟨image, holds, continues⟩

/-- A sequence of a size that growth can reach is created in an empty block. -/
theorem run_init_of_granting [LawfulHost Buffer] {granted : Buffer → Prop}
    (granting : Granting granted) (here : granted site.buffer) (empty : site.bytes.size = 0)
    {sizing : Sizing} (small : sizing.capacity ≤ maxCapacity)
    (smallData : sizing.dataCapacity ≤ maxCapacity) (step : sizing.log2MinGrowth ≤ 29) :
    ∃ later, init sizing site = .ok () later := by
  obtain ⟨capacity, grown⟩ := grownCapacity_of (Nat.zero_le _) small step
  obtain ⟨dataCapacity, grownData⟩ := initialData_of smallData step
  obtain ⟨layout, computed, total⟩ := Layout.compute_of (IsCapacity.of_grown grown).1.le_max
    (isArenaCapacity_of_initialData grownData).le_max
  obtain ⟨buffer, resized⟩ := granting.resizes site.buffer layout.total here total
  obtain ⟨later, -, run, -⟩ := run_init_granted empty grown grownData computed resized
  exact ⟨later, run⟩

end PackedStore.UntypedSequence
