/-
This file follows an untyped map through resizes of its block. More slots are laid
out anew, with the old records at the front of the new arrays; more arena only
moves the end of the block. Either way the map holds the same entries afterwards,
whatever else the host put there. A refused resize, or a layout that does not
exist, leaves the site as it was.
-/

import PackedStore.Proofs.UntypedMap.Contents

namespace PackedStore.UntypedMap

variable {Buffer : Type} [Host Buffer] {known : ElementType → Prop} {key : KeyType}
  {site : Site Buffer} {image : Image} {entries : List Entry} {order : Nat → List Nat}

/-! ### Moving to another layout -/

section

variable {type : ElementType} {old new : Layout}
  {capacity buckets dataCapacity larger moreBuckets : Nat}

/-- The new places of moved segments follow each other. -/
theorem Layout.sublist_moves : ((old.moves new).map Prod.snd).Sublist new.segments :=
  ((((List.Sublist.refl _).cons _).cons_cons _).cons_cons _).cons_cons _ |>.cons_cons _

/-- All moved segments fit into a larger layout. -/
theorem Layout.movable (placedOld : old.Placed type capacity buckets dataCapacity)
    (placedNew : new.Placed type larger moreBuckets dataCapacity) (grows : capacity ≤ larger) :
    Store.Movable old.total new.total (old.moves new) := by
  have each (move : Segment × Segment) (member : move ∈ old.moves new) :
      move.1 ∈ old.segments ∧ move.2 ∈ new.segments ∧ move.1.length ≤ move.2.length := by
    simp only [moves, List.mem_cons, List.not_mem_nil, or_false] at member
    rcases member with rfl | rfl | rfl | rfl | rfl | rfl | rfl
    · exact ⟨by simp [segments], by simp [segments], Nat.le_of_eq
        (congrArg Segment.length (placedOld.header.trans placedNew.header.symm))⟩
    · refine ⟨by simp [segments], by simp [segments], ?_⟩
      rw [placedOld.values, placedNew.values]
      exact Nat.mul_le_mul_right _ grows
    · refine ⟨by simp [segments], by simp [segments], ?_⟩
      rw [placedOld.keys, placedNew.keys]
      exact Nat.mul_le_mul_right _ grows
    · refine ⟨by simp [segments], by simp [segments], ?_⟩
      rw [placedOld.next, placedNew.next]
      exact Nat.mul_le_mul_right _ grows
    · refine ⟨by simp [segments], by simp [segments], ?_⟩
      rw [placedOld.types, placedNew.types]
      exact Nat.mul_le_mul_right _ grows
    · refine ⟨by simp [segments], by simp [segments], ?_⟩
      rw [placedOld.sizes, placedNew.sizes]
      exact Nat.mul_le_mul_right _ grows
    · exact ⟨by simp [segments], by simp [segments],
        Nat.le_of_eq (placedOld.data.trans placedNew.data.symm)⟩
  exact ⟨fun move member => placedOld.stop_le (each move member).1,
    fun move member => placedNew.stop_le (each move member).2.1,
    fun move member => (each move member).2.2⟩

theorem Layout.Placed.header_le (placed : new.Placed type larger moreBuckets dataCapacity) :
    headerLength ≤ new.total := by
  have stop := placed.stop_le List.mem_cons_self
  rw [placed.header] at stop
  exact Nat.le_trans (Nat.le_of_eq (Nat.zero_add _).symm) stop

/-- All segments but the header lie behind the header. -/
theorem Layout.Placed.header_before (placed : new.Placed type larger moreBuckets dataCapacity)
    {segment : Segment} (member : segment ∈ new.segments.tail) : headerLength ≤ segment.offset := by
  have spans := placed.spans.2
  have start := (spans.mem member).1
  rw [placed.header] at start
  exact Nat.le_trans (Nat.le_of_eq (Nat.zero_add _).symm) start

end

/-! ### Writing a header -/

/-- After its header has been written, the block holds the image that stands in it. -/
theorem run_writeHeader [LawfulHost Buffer] {header : Header} (fits : header.Fits) {layout : Layout}
    (wellFormed : key.toElementType.WellFormed)
    (computed : Layout.compute key.toElementType header.capacity header.bucketCapacity
      header.dataCapacity = .ok layout) (size : site.bytes.size = layout.total) :
    ∃ later, writeHeader header site = .ok () later ∧ later.bytes = header.words.save site.bytes ∧
      later.bytes.size = layout.total ∧
      Image.load key.toElementType later.bytes = .ok (Image.at key layout header later.bytes) ∧
      site.Continues later := by
  have placed := Layout.placed_of_compute wellFormed computed
  have room : headerLength ≤ site.bytes.size := by
    rw [size]
    exact placed.header_le
  have bytes : (site.put (header.words.save site.bytes)).bytes = header.words.save site.bytes :=
    Site.bytes_put HeaderWords.size_save
  have total : (site.put (header.words.save site.bytes)).bytes.size = layout.total := by
    rw [bytes, HeaderWords.size_save, size]
  refine ⟨_, ?_, bytes, total, ?_, Site.Continues.put site _⟩
  · simp only [writeHeader, Edit.run_bind, Store.run_bytes, Store.run_write]
  · refine Image.load_eq_ok.mpr ⟨header, layout, ?_, computed, Nat.le_of_eq total.symm, rfl⟩
    rw [bytes]
    exact Header.load_eq_ok.mpr ⟨header.words, HeaderWords.load_save rfl fits room, rfl⟩

/-- An image that has been read stands in its block. -/
theorem Holds.at_eq (holds : Holds known key site image entries order) :
    Image.at key image.layout image.header site.bytes = image := by
  obtain ⟨header, layout, -, -, -, rfl⟩ := Image.load_eq_ok.mp holds.loaded
  rfl

/-- A resized block still has the header of the map. -/
theorem load_header_of_same {other : Bytes} {header : Header}
    (loaded : Header.load site.bytes = .ok header) (room : headerLength ≤ other.size)
    (same : ∀ position, position < headerLength → other[position]? = site.bytes[position]?) :
    Header.load other = .ok header := by
  obtain ⟨words, loadedWords, isHeader⟩ := Header.load_eq_ok.mp loaded
  exact Header.load_eq_ok.mpr ⟨words, HeaderWords.load_congr room loadedWords same, isHeader⟩

/-! ### Refusals -/

/-- A number of slots and arena words is refused when there is no layout for it, or when the host
refuses its length. -/
def Refuses (key : KeyType) (site : Site Buffer) (capacity dataCapacity : Nat)
    (failure : Failure) : Prop :=
  Layout.compute key.toElementType capacity (2 * capacity) dataCapacity = .error failure ∨
    ∃ new error,
      Layout.compute key.toElementType capacity (2 * capacity) dataCapacity = .ok new ∧
      Host.resize site.buffer new.total = .error error ∧ failure = .storage error

theorem refuses_or_grants (key : KeyType) (site : Site Buffer) (capacity dataCapacity : Nat) :
    (∃ failure, Refuses key site capacity dataCapacity failure) ∨
      ∃ new buffer,
        Layout.compute key.toElementType capacity (2 * capacity) dataCapacity = .ok new ∧
        Host.resize site.buffer new.total = .ok buffer := by
  cases computed : Layout.compute key.toElementType capacity (2 * capacity) dataCapacity with
  | error failure => exact Or.inl ⟨failure, Or.inl computed⟩
  | ok new =>
    cases resized : Host.resize site.buffer new.total with
    | error error => exact Or.inl ⟨_, Or.inr ⟨new, error, computed, resized, rfl⟩⟩
    | ok buffer => exact Or.inr ⟨new, buffer, rfl, resized⟩

/-- Some capacities that growth can reach are refused. -/
def CannotGrow (key : KeyType) (site : Site Buffer) (failure : Failure) : Prop :=
  ∃ capacity dataCapacity, capacity ≤ maxCapacity ∧ dataCapacity ≤ maxCapacity ∧
    Refuses key site capacity dataCapacity failure

/-- Where keys can be aligned, only resources are ever missing. -/
theorem CannotGrow.isStorage (supported : key.align ≤ blockAlign) {failure : Failure}
    (cannotGrow : CannotGrow key site failure) : failure.IsStorage := by
  obtain ⟨capacity, dataCapacity, -, -, failed | ⟨new, error, -, -, rfl⟩⟩ := cannotGrow
  · exact Layout.failsOnly_compute (fun what _ => Failure.isStorage_overflow what)
      (fun large => absurd supported (by omega)) _ failed
  · exact ⟨error, rfl⟩

theorem Holds.supported (holds : Holds known key site image entries order)
    (wellFormed : key.toElementType.WellFormed) : key.align ≤ blockAlign :=
  (Layout.placed_of_compute wellFormed holds.represents.framed.computed).supported

/-- What is too much for the arena is a resource as well. -/
theorem Holds.isStorage_of_arena (holds : Holds known key site image entries order)
    (wellFormed : key.toElementType.WellFormed) {beyond : Prop} {what : Quantity}
    {failure : Failure}
    (cause : (beyond ∧ failure = .overflow what) ∨ CannotGrow key site failure) :
    failure.IsStorage := by
  rcases cause with ⟨-, rfl⟩ | cannotGrow
  · exact Failure.isStorage_overflow what
  · exact cannotGrow.isStorage (holds.supported wellFormed)

/-- A host that grants resizes refuses no capacities that growth can reach. -/
theorem not_cannotGrow {granted : Buffer → Prop} (granting : Granting granted)
    (here : granted site.buffer) (supported : key.align ≤ blockAlign) (small : key.size < 2 ^ 32)
    {failure : Failure} : ¬ CannotGrow key site failure := by
  rintro ⟨capacity, dataCapacity, bound, dataBound, refuses⟩
  obtain ⟨layout, computed, total⟩ := Layout.compute_of supported small bound dataBound
  rcases refuses with failed | ⟨new, error, computed', refused, -⟩
  · exact absurd (computed.symm.trans failed) (by simp)
  · obtain rfl := Except.ok.inj (computed.symm.trans computed')
    obtain ⟨resized, run⟩ := granting.resizes site.buffer layout.total here total
    exact absurd (run.symm.trans refused) (by simp)

/-! ### More slots -/

/-- An image read from the new places extends the one read from the old places. -/
theorem Image.extends_at {old new : Layout} {header grown : Header} {bytes other : Bytes}
    {buckets : Nat}
    (placedOld : old.Placed key.toElementType header.capacity buckets header.dataCapacity)
    (grows : header.capacity ≤ grown.capacity) (sameData : new.data.length = old.data.length)
    (moved : ∀ move ∈ (old.moves new).tail, ∀ position, position < move.1.length →
      other[move.2.offset + position]? = bytes[move.1.offset + position]?) :
    (Image.at key old header bytes).Extends (Image.at key new grown other) := by
  have inTail (position : Nat) {first second : Segment}
      (there : (old.moves new).tail[position]? = some (first, second)) (place : Nat)
      (below : place < first.length) : other[second.offset + place]? = bytes[first.offset + place]? :=
    moved (first, second) (List.mem_of_getElem? there) place below
  refine ⟨?_, ?_, ?_, ?_, ?_, ?_⟩ <;> intro slot below
  · refine Codec.getElem?_readArray_front grows (fun place inside => inTail 0 rfl place ?_) below
    rw [placedOld.values]
    exact inside
  · refine Codec.getElem?_readArray_front grows (fun place inside => inTail 1 rfl place ?_) below
    rw [placedOld.keys]
    exact inside
  · refine Codec.getElem?_readArray_front grows (fun place inside => inTail 2 rfl place ?_) below
    rw [placedOld.next]
    exact inside
  · refine Codec.getElem?_readArray_front grows (fun place inside => inTail 3 rfl place ?_) below
    rw [placedOld.types]
    exact inside
  · refine Codec.getElem?_readArray_front grows (fun place inside => inTail 4 rfl place ?_) below
    rw [placedOld.sizes]
    exact inside
  · have inside : slot < old.data.length := by
      rw [placedOld.data]
      exact below
    show (other.extract new.data.offset (new.data.offset + new.data.length))[slot]? =
      (bytes.extract old.data.offset (old.data.offset + old.data.length))[slot]?
    rw [Bytes.getElem?_extract_width, Bytes.getElem?_extract_width, sameData, if_pos inside,
      if_pos inside]
    exact inTail 5 rfl slot inside

/-- What growth does when the capacity has been found acceptable. -/
def growTo (key : KeyType) (capacity : Nat) (image : Image) : Store Buffer Unit := do
  let new ← Layout.compute key.toElementType capacity (2 * capacity) image.header.dataCapacity
  Store.relocate (image.layout.moves new) new.total
  writeHeader { ← header with capacity := capacity, bucketCapacity := 2 * capacity }
  Store.edit (format key.toElementType) <| onChains do
    HashChains.endLinksFrom image.header.capacity
    HashChains.rehash key.hash image.chains.buckets
  Store.report (.slotsGrow .untypedMap image.header.capacity capacity)
  Store.report (.rehashed image.chains.buckets.size (2 * capacity))

namespace Holds

theorem grow_eq (holds : Holds known key site image entries order) {capacity : Nat}
    (reached : IsCapacity image.header.log2MinGrowth capacity)
    (grows : image.header.capacity < capacity) :
    grow key capacity site = growTo key capacity image site := by
  have old : Layout.ofHeader key.toElementType image.header = .ok image.layout :=
    recorded_eq_ok.mpr holds.represents.framed.computed
  have word := reached.lt_word
  have viewed := @Store.run_view_ok _ _ _ _ site (format key.toElementType) image holds.loaded
    (fun image => return image.chains.buckets) _ rfl
  simp only [grow, growTo, Edit.run_bind, holds.run_header, require_of grows,
    bucketCapacityFor_eq reached, Edit.run_lift_ok,
    toWord32_of (show capacity < 2 ^ 32 by omega), toWord32_of word, old]
  cases Layout.compute key.toElementType capacity (2 * capacity) image.header.dataCapacity with
  | error failure => rfl
  | ok new => simp only [Edit.run_lift_ok, viewed]

section

variable (wellFormed : key.toElementType.WellFormed)
  (holds : Holds known key site image entries order)

include wellFormed holds

/-- A map whose larger capacity is refused stays as it was. -/
theorem run_grow_refused {capacity : Nat} (reached : IsCapacity image.header.log2MinGrowth capacity)
    (grows : image.header.capacity < capacity) {failure : Failure}
    (refuses : Refuses key site capacity image.header.dataCapacity failure) :
    grow key capacity site = .error failure site := by
  rw [holds.grow_eq reached grows]
  rcases refuses with failed | ⟨new, error, computed, refused, rfl⟩
  · simp only [growTo, Edit.run_bind, failed, Edit.run_lift_error]
  · have framed := holds.represents.framed
    have movable := Layout.movable (Layout.placed_of_compute wellFormed framed.computed)
      (Layout.placed_of_compute wellFormed computed) (Nat.le_of_lt grows)
    rw [← holds.size_eq] at movable
    simp only [growTo, Edit.run_bind, computed, Edit.run_lift_ok,
      Store.run_relocate_error movable.source refused]

/-- Growth gives a map with more slots and the same entries, whose values stay where they are. -/
theorem run_grow [LawfulHost Buffer] {capacity : Nat}
    (reached : IsCapacity image.header.log2MinGrowth capacity)
    (grows : image.header.capacity < capacity) {new : Layout}
    (computed : Layout.compute key.toElementType capacity (2 * capacity)
      image.header.dataCapacity = .ok new) {buffer : Buffer}
    (resized : Host.resize site.buffer new.total = .ok buffer) :
    ∃ later grown relinked, grow key capacity site = .ok () later ∧
      Holds known key later grown entries relinked ∧
      grown.header = image.header.resized capacity ∧
      (∀ slot, slot < image.header.capacity →
        grown.cells.words[slot]? = image.cells.words[slot]?) ∧ site.Continues later := by
  have represents := holds.represents
  have more := Nat.le_of_lt grows
  have framed := represents.framed
  have placedOld := Layout.placed_of_compute wellFormed framed.computed
  have placedNew := Layout.placed_of_compute wellFormed computed
  have movable := Layout.movable placedOld placedNew more
  have disjoint := (placedNew.spans.sublist (@Layout.sublist_moves image.layout new)).disjoint
  rw [← holds.size_eq] at movable
  obtain ⟨moved, runMove, sizeMoved, copied, continuesMoved⟩ :=
    Store.run_relocate_disjoint movable disjoint resized
  -- the header is the first of the moved segments
  have loadedMoved : Header.load moved.bytes = .ok image.header := by
    refine load_header_of_same holds.load_header ?_ fun position below => ?_
    · rw [sizeMoved]
      exact placedNew.header_le
    · have same := copied (image.layout.header, new.header) List.mem_cons_self position
        (by rw [placedOld.header]; exact below)
      simpa [placedOld.header, placedNew.header] using same
  have regular : (image.header.resized capacity).Regular key := framed.header.resized reached more
  obtain ⟨written, runWrite, bytesWritten, sizeWritten, loadedWritten, continuesWritten⟩ :=
    run_writeHeader regular.fits wellFormed computed sizeMoved
  have inTail {move : Segment × Segment} (member : move ∈ (image.layout.moves new).tail) :
      move.2 ∈ new.segments.tail := by
    have sublist := (@Layout.sublist_moves image.layout new).tail
    rw [← List.map_tail] at sublist
    exact sublist.mem (List.mem_map_of_mem member)
  have extension := @Image.extends_at key image.layout new image.header
    (image.header.resized capacity) site.bytes written.bytes _ placedOld more
    (placedNew.data.trans placedOld.data.symm)
    (by
      intro move member position below
      have behind := placedNew.header_before (inTail member)
      rw [bytesWritten, HeaderWords.getElem?_save rfl (Nat.le_trans behind (Nat.le_add_right _ _))]
      exact copied move (List.mem_of_mem_tail member) position below)
  rw [holds.at_eq] at extension
  obtain ⟨changed, relinked, runRelink, layout, header, cells, representsChanged⟩ :=
    represents.regrow (Image.sound_of_load wellFormed loadedWritten) extension rfl regular more
  obtain ⟨later, runEdit, holdsLater, continuesLater⟩ :=
    run_edit wellFormed loadedWritten sizeWritten runRelink layout representsChanged
  have headerMoved : UntypedMap.header moved = .ok image.header moved := by
    simp only [UntypedMap.header, Edit.run_bind, Store.run_bytes, loadedMoved, Edit.run_lift_ok]
  unfold Header.resized at runWrite
  let events := later.events ++ [.slotsGrow .untypedMap image.header.capacity capacity] ++
    [.rehashed image.chains.buckets.size (2 * capacity)]
  have continues := continuesMoved.trans (continuesWritten.trans (continuesLater.trans
    (Site.Continues.report later events)))
  refine ⟨{ later with events }, changed, relinked, ?_,
    ⟨holdsLater.loaded, holdsLater.size_eq, holdsLater.represents⟩, header,
    fun slot below => by rw [cells]; exact extension.words slot below, continues⟩
  simp only [holds.grow_eq reached grows, growTo, Edit.run_bind, computed, Edit.run_lift_ok, runMove,
    headerMoved, runWrite, runEdit, Store.run_report, events]

end

end Holds

/-! ### Creation -/

/-- The header of a new map. -/
def Header.initial (key : KeyType) (capacity dataCapacity log2MinGrowth : Nat) : Header where
  magic := UntypedMap.magic
  count := 0
  capacity := capacity
  bucketCapacity := 2 * capacity
  dataCapacity := dataCapacity
  dataAllocated := 0
  log2MinGrowth := log2MinGrowth
  keySize := key.size

theorem Header.regular_initial {capacity dataCapacity log2MinGrowth : Nat}
    (reached : IsCapacity log2MinGrowth capacity)
    (dataReached : IsArenaCapacity log2MinGrowth dataCapacity) (keySize : key.size < 2 ^ 32) :
    (Header.initial key capacity dataCapacity log2MinGrowth).Regular key :=
  ⟨rfl, rfl, keySize, rfl, reached, dataReached, Nat.zero_le _, Nat.zero_le _⟩

/-- A header that counts nothing is the header of a new map. -/
theorem Header.Regular.emptied_eq {header : Header} (regular : header.Regular key) :
    header.emptied = .initial key header.capacity header.dataCapacity header.log2MinGrowth := by
  obtain ⟨isMagic, isKeySize, -, isBucketCapacity, -⟩ := regular
  rw [Header.emptied, Header.initial, ← isMagic, ← isKeySize, ← isBucketCapacity]

/-- A block of the right length becomes an empty map when its header is written and its links are
cleared, whatever it holds. -/
theorem run_emptied [LawfulHost Buffer] (wellFormed : key.toElementType.WellFormed)
    {header : Header} (regular : header.Regular key) (empty : header.emptied = header)
    {layout : Layout}
    (computed : Layout.compute key.toElementType header.capacity header.bucketCapacity
      header.dataCapacity = .ok layout) (size : site.bytes.size = layout.total) :
    ∃ written later emptied, writeHeader header site = .ok () written ∧
      Store.edit (format key.toElementType) (onChains HashChains.clear) written = .ok () later ∧
      Holds known key later emptied [] (fun _ => []) ∧ emptied.header = header ∧
      site.Continues later := by
  obtain ⟨written, runWrite, -, sizeWritten, loadedWritten, continuesWritten⟩ :=
    run_writeHeader regular.fits wellFormed computed size
  obtain ⟨emptied, runClear, layout, isHeader, represents⟩ :=
    @clearLinks_spec known key _ (Image.sound_of_load wellFormed loadedWritten) regular empty
  obtain ⟨later, runEdit, holds, continues⟩ :=
    run_edit wellFormed loadedWritten sizeWritten runClear layout represents
  exact ⟨written, later, emptied, runWrite, runEdit, holds, isHeader,
    continuesWritten.trans continues⟩

/-- What creation does when the numbers have been found acceptable. -/
def initTo (key : KeyType) (header : Header) (layout : Layout) : Store Buffer Unit := do
  Store.resize layout.total
  writeHeader header
  Store.edit (format key.toElementType) (onChains HashChains.clear)

theorem init_eq {sizing : Sizing} {capacity dataCapacity : Nat} (empty : site.bytes.size = 0)
    (grown : grownCapacity 0 sizing.capacity sizing.log2MinGrowth = .ok capacity)
    (grownData : initialData sizing = .ok dataCapacity) (keySize : key.size < 2 ^ 32)
    {layout : Layout}
    (computed : Layout.compute key.toElementType capacity (2 * capacity) dataCapacity =
      .ok layout) :
    init key sizing site =
      initTo key (Header.initial key capacity dataCapacity sizing.log2MinGrowth) layout site := by
  obtain ⟨reached, -, -⟩ := IsCapacity.of_grown grown
  have word := reached.lt_word
  have small := (isArenaCapacity_of_initialData grownData).le_max
  unfold maxCapacity at small
  by_cases nothing : sizing.dataCapacity = 0
  · rw [initialData, if_pos nothing] at grownData
    obtain rfl : 0 = dataCapacity := Except.ok.inj grownData
    simp only [init, initTo, Header.initial, Edit.run_bind, Store.run_length, demand_of empty,
      Edit.run_lift_ok, grown, bucketCapacityFor_eq reached, if_pos nothing, Edit.run_pure, computed,
      toWord32_of (show capacity < 2 ^ 32 by omega), toWord32_of word,
      toWord32_of (show 0 < 2 ^ 32 by decide), toWord32_of keySize]
  · rw [initialData, if_neg nothing] at grownData
    simp only [init, initTo, Header.initial, Edit.run_bind, Store.run_length, demand_of empty,
      Edit.run_lift_ok, grown, bucketCapacityFor_eq reached, if_neg nothing, grownData, computed,
      toWord32_of (show capacity < 2 ^ 32 by omega), toWord32_of word,
      toWord32_of (show dataCapacity < 2 ^ 32 by omega), toWord32_of keySize]

/-- Creation succeeds only with numbers that are acceptable. -/
theorem accepted_of_init {sizing : Sizing} {later : Site Buffer}
    (run : init key sizing site = .ok () later) :
    ∃ capacity dataCapacity layout, site.bytes.size = 0 ∧
      grownCapacity 0 sizing.capacity sizing.log2MinGrowth = .ok capacity ∧
      initialData sizing = .ok dataCapacity ∧ key.size < 2 ^ 32 ∧
      Layout.compute key.toElementType capacity (2 * capacity) dataCapacity = .ok layout := by
  obtain ⟨_, _, isLength, run⟩ := Edit.bind_eq_ok.mp run
  obtain ⟨rfl, rfl⟩ := EStateM.Result.ok.inj (Store.run_length.symm.trans isLength)
  simp only [Edit.lift_bind_eq_ok, demand_eq_ok] at run
  obtain ⟨_, empty, capacity, grown, buckets, isBuckets, run⟩ := run
  obtain rfl : 2 * capacity = buckets := Except.ok.inj
    ((bucketCapacityFor_eq (IsCapacity.of_grown grown).1).symm.trans isBuckets)
  suffices arena : ∃ dataCapacity, initialData sizing = .ok dataCapacity ∧ key.size < 2 ^ 32 ∧
      ∃ layout, Layout.compute key.toElementType capacity (2 * capacity) dataCapacity =
        .ok layout by
    obtain ⟨dataCapacity, grownData, keySize, layout, computed⟩ := arena
    exact ⟨capacity, dataCapacity, layout, empty, grown, grownData, keySize, computed⟩
  unfold initialData
  by_cases nothing : sizing.dataCapacity = 0
  · rw [if_pos nothing] at run ⊢
    simp only [pure_bind, Edit.lift_bind_eq_ok] at run
    obtain ⟨layout, computed, _, -, _, -, _, -, _, keyWord, -⟩ := run
    exact ⟨0, rfl, (toWord32_eq_ok.mp keyWord).1, layout, computed⟩
  · rw [if_neg nothing] at run ⊢
    simp only [Edit.lift_bind_eq_ok] at run
    obtain ⟨dataCapacity, grownData, layout, computed, _, -, _, -, _, -, _, keyWord, -⟩ := run
    exact ⟨dataCapacity, grownData, (toWord32_eq_ok.mp keyWord).1, layout, computed⟩

/-- A map that has been created has no entries and nothing in its arena. -/
theorem holds_of_init [LawfulHost Buffer] (wellFormed : key.toElementType.WellFormed)
    {sizing : Sizing} {later : Site Buffer} (run : init key sizing site = .ok () later) :
    ∃ image, Holds known key later image [] (fun _ => []) ∧ image.header.dataAllocated = 0 ∧
      site.Continues later := by
  obtain ⟨capacity, dataCapacity, layout, empty, grown, grownData, keySize, computed⟩ :=
    accepted_of_init run
  have regular := @Header.regular_initial key capacity dataCapacity sizing.log2MinGrowth
    (IsCapacity.of_grown grown).1 (isArenaCapacity_of_initialData grownData) keySize
  rw [init_eq empty grown grownData keySize computed, initTo, Edit.bind_eq_ok] at run
  obtain ⟨_, resized, runResize, runRest⟩ := run
  obtain ⟨buffer, granted, rfl⟩ := Store.resize_eq_ok.mp runResize
  obtain ⟨written, later', image, runWrite, runClear, holds, isHeader, continues⟩ :=
    @run_emptied _ _ known key (site.withBuffer buffer) _ wellFormed _ regular rfl layout computed
      (LawfulHost.size_resize site.buffer buffer layout.total granted)
  simp only [Edit.run_bind, runWrite] at runRest
  cases runClear.symm.trans runRest
  refine ⟨image, holds, ?_, (Site.Continues.resize granted).trans continues⟩
  rw [isHeader]
  rfl

/-- A map of a size that growth can reach is created in an empty block. -/
theorem run_init_of_granting [LawfulHost Buffer] {granted : Buffer → Prop}
    (granting : Granting granted) (here : granted site.buffer)
    (wellFormed : key.toElementType.WellFormed) (supported : key.align ≤ blockAlign)
    (keySize : key.size < 2 ^ 32) (empty : site.bytes.size = 0) {sizing : Sizing}
    (small : sizing.capacity ≤ maxCapacity) (smallData : sizing.dataCapacity ≤ maxCapacity)
    (step : sizing.log2MinGrowth ≤ 29) : ∃ later, init key sizing site = .ok () later := by
  obtain ⟨capacity, grown⟩ := grownCapacity_of (Nat.zero_le _) small step
  obtain ⟨dataCapacity, grownData⟩ := initialData_of smallData step
  have reached := (IsCapacity.of_grown grown).1
  have dataReached := isArenaCapacity_of_initialData grownData
  obtain ⟨layout, computed, total⟩ :=
    @Layout.compute_of key.toElementType _ _ supported keySize reached.le_max dataReached.le_max
  obtain ⟨buffer, resized⟩ := granting.resizes site.buffer layout.total here total
  obtain ⟨written, later, -, runWrite, runClear, -⟩ :=
    @run_emptied _ _ (fun _ => False) key (site.withBuffer buffer) _ wellFormed _
      (Header.regular_initial reached dataReached keySize) rfl layout computed
      (LawfulHost.size_resize site.buffer buffer layout.total resized)
  refine ⟨later, ?_⟩
  rw [init_eq empty grown grownData keySize computed]
  simp only [initTo, Edit.run_bind, Store.run_resize_ok resized, runWrite]
  exact runClear

end PackedStore.UntypedMap
