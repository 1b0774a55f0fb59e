/-
This file follows an indexed map through resizes of its block. A larger map has
the old records at the front of its new arrays, whatever else the host put there,
so that relinking gives back the same table; a map that is laid out afresh is
cleared. A refused resize, or a layout that does not exist, leaves the site as it
was.
-/

import PackedStore.Proofs.IndexedMap.Contents

namespace PackedStore.IndexedMap

variable {Buffer : Type} [Host Buffer] {shape : Shape} {site : Site Buffer} {image : Image}
  {table : SlotTable} {orders : Nat → Nat → List Nat}

/-! ### Moving to another layout -/

section

variable {old new : Layout} {capacity buckets larger moreBuckets : Nat}

theorem Layout.moves_eq : old.moves new = (old.header, new.header) :: (old.values, new.values) ::
    (old.dimensions.zip new.dimensions).flatMap fun pair => pair.1.moves pair.2 := rfl

/-- The new places of moved segments follow each other. -/
theorem Layout.sublist_moves :
    ((old.moves new).map Prod.snd).Sublist new.segments := by
  have dimensions (before after : List DimensionLayout) :
      (((before.zip after).flatMap fun pair => pair.1.moves pair.2).map Prod.snd).Sublist
        (after.flatMap DimensionLayout.segments) := by
    induction after generalizing before with
    | nil => simp
    | cons second rest inductionHypothesis =>
      cases before with
      | nil => simp
      | cons first others =>
        rw [List.zip_cons_cons, List.flatMap_cons, List.map_append, List.flatMap_cons]
        refine List.Sublist.append ?_ (inductionHypothesis others)
        exact ((List.sublist_append_left [second.keys, second.next] [second.buckets]))
  rw [moves_eq]
  exact ((dimensions _ _).cons_cons _).cons_cons _

/-- All moved segments fit into a larger layout. -/
theorem Layout.movable (placedOld : old.Placed shape capacity buckets)
    (placedNew : new.Placed shape larger moreBuckets) (grows : capacity ≤ larger) :
    Store.Movable old.total new.total (old.moves new) := by
  have each (move : Segment × Segment) (member : move ∈ old.moves new) :
      move.1 ∈ old.segments ∧ move.2 ∈ new.segments ∧ move.1.length ≤ move.2.length := by
    rw [moves_eq] at member
    rcases List.mem_cons.mp member with rfl | member
    · refine ⟨List.mem_cons_self, List.mem_cons_self, Nat.le_of_eq ?_⟩
      rw [placedOld.header, placedNew.header]
    rcases List.mem_cons.mp member with rfl | member
    · refine ⟨List.mem_cons_of_mem _ List.mem_cons_self,
        List.mem_cons_of_mem _ List.mem_cons_self, ?_⟩
      rw [placedOld.values, placedNew.values]
      exact Nat.mul_le_mul_right _ grows
    · obtain ⟨⟨before, after⟩, inZip, inMoves⟩ := List.mem_flatMap.mp member
      obtain ⟨position, there⟩ := List.getElem?_of_mem inZip
      obtain ⟨thereBefore, thereAfter⟩ := List.getElem?_zip_eq_some.mp there
      have inside := (List.getElem?_eq_some_iff.mp thereBefore).1
      rw [placedOld.length_dimensions] at inside
      have thereKind := List.getElem?_eq_getElem inside
      have sizedOld := placedOld.sized position _ before thereKind thereBefore
      have sizedNew := placedNew.sized position _ after thereKind thereAfter
      simp only [DimensionLayout.moves, List.mem_cons, List.not_mem_nil, or_false] at inMoves
      rcases inMoves with rfl | rfl
      · refine ⟨mem_segments thereBefore List.mem_cons_self,
          mem_segments thereAfter List.mem_cons_self, ?_⟩
        rw [sizedOld.keys, sizedNew.keys]
        exact Nat.mul_le_mul_right _ grows
      · refine ⟨mem_segments thereBefore (List.mem_cons_of_mem _ List.mem_cons_self),
          mem_segments thereAfter (List.mem_cons_of_mem _ List.mem_cons_self), ?_⟩
        rw [sizedOld.next, sizedNew.next]
        exact Nat.mul_le_mul_right _ grows
  exact ⟨fun move member => placedOld.stop_le (each move member).1,
    fun move member => placedNew.stop_le (each move member).2.1,
    fun move member => (each move member).2.2⟩

theorem Layout.mem_tail_moves {move : Segment × Segment} (member : move ∈ (old.moves new).tail) :
    move.2 ∈ new.segments.tail := by
  have sublist := (@Layout.sublist_moves old new).tail
  rw [← List.map_tail] at sublist
  exact sublist.mem (List.mem_map_of_mem member)

theorem Layout.Placed.header_le (placed : new.Placed shape larger moreBuckets) :
    headerLength ≤ new.total := by
  have stop := placed.stop_le List.mem_cons_self
  rw [placed.header] at stop
  exact Nat.le_trans (Nat.le_of_eq (Nat.zero_add _).symm) stop

/-- All segments but the header lie behind the header. -/
theorem Layout.Placed.header_before (placed : new.Placed shape larger moreBuckets)
    {segment : Segment} (member : segment ∈ new.segments.tail) : headerLength ≤ segment.offset := by
  have spans := placed.spans.2
  have start := (spans.mem member).1
  rw [placed.header] at start
  exact Nat.le_trans (Nat.le_of_eq (Nat.zero_add _).symm) start

end

/-! ### Writing a header -/

/-- After its header has been written, the block holds the image that stands in it. -/
theorem run_writeHeader [LawfulHost Buffer] {header : Header} (fits : header.Fits) {layout : Layout}
    (wellFormed : shape.WellFormed)
    (computed : Layout.compute shape header.capacity header.bucketCapacity = .ok layout)
    (size : site.bytes.size = layout.total) :
    ∃ later, writeHeader header site = .ok () later ∧ later.bytes = header.words.save site.bytes ∧
      later.bytes.size = layout.total ∧
      Image.load shape later.bytes = .ok (Image.at shape layout header later.bytes) ∧
      site.Continues later := by
  have placed := Layout.placed_of_compute wellFormed computed
  have room : headerLength ≤ site.bytes.size := by
    rw [size]
    exact placed.header_le
  have bytes : (site.put (header.words.save site.bytes)).bytes = header.words.save site.bytes :=
    Site.bytes_put HeaderWords.size_save
  have total : (site.put (header.words.save site.bytes)).bytes.size = layout.total := by
    rw [bytes, HeaderWords.size_save, size]
  refine ⟨_, ?_, bytes, total, ?_, Site.Continues.put site _⟩
  · simp only [writeHeader, Edit.run_bind, Store.run_bytes, Store.run_write]
  · refine Image.load_eq_ok.mpr ⟨header, layout, ?_, computed, Nat.le_of_eq total.symm, rfl⟩
    rw [bytes]
    exact Header.load_eq_ok.mpr ⟨header.words,
      HeaderWords.load_save rfl fits.words room, Header.ofWords_words fits⟩

/-! ### Growth -/

/-- An image read from the new places extends the one read from the old places. -/
theorem Image.extends_at {old new : Layout} {header grown : Header} {bytes other : Bytes}
    {buckets : Nat} (placedOld : old.Placed shape header.capacity buckets)
    (grows : header.capacity ≤ grown.capacity)
    (moved : ∀ move ∈ (old.moves new).tail, ∀ position, position < move.1.length →
      other[move.2.offset + position]? = bytes[move.1.offset + position]?) :
    (Image.at shape old header bytes).Extends (Image.at shape new grown other) := by
  have dimension {position : Nat} {before after : HashChains Bytes}
      (thereBefore : (Image.at shape old header bytes).dimensions[position]? = some before)
      (thereAfter : (Image.at shape new grown other).dimensions[position]? = some after) :
      ∃ kind first second, shape.kinds[position]? = some kind ∧
        old.dimensions[position]? = some first ∧ new.dimensions[position]? = some second ∧
        before = first.load kind header bytes ∧ after = second.load kind grown other := by
    obtain ⟨kind, first, thereKind, thereFirst, rfl⟩ :=
      Image.getElem?_dimensions_at.mp thereBefore
    obtain ⟨kind', second, thereKind', thereSecond, rfl⟩ :=
      Image.getElem?_dimensions_at.mp thereAfter
    obtain rfl : kind = kind' := Option.some.inj (thereKind.symm.trans thereKind')
    exact ⟨kind, first, second, thereKind, thereFirst, thereSecond, rfl, rfl⟩
  have inTail {position : Nat} {first second : DimensionLayout}
      (thereFirst : old.dimensions[position]? = some first)
      (thereSecond : new.dimensions[position]? = some second) {move : Segment × Segment}
      (member : move ∈ first.moves second) : move ∈ (old.moves new).tail := by
    rw [Layout.moves_eq, List.tail_cons]
    exact List.mem_cons_of_mem _ (List.mem_flatMap.mpr ⟨(first, second), List.mem_of_getElem?
      (List.getElem?_zip_eq_some.mpr ⟨thereFirst, thereSecond⟩), member⟩)
  refine ⟨?_, ?_, ?_⟩
  · intro slot below
    refine Codec.getElem?_readArray_front grows (fun position inside => ?_) below
    refine moved (old.values, new.values) List.mem_cons_self position ?_
    rw [placedOld.values]
    exact inside
  · intro position before after thereBefore thereAfter slot below
    obtain ⟨kind, first, second, thereKind, thereFirst, thereSecond, rfl, rfl⟩ :=
      dimension thereBefore thereAfter
    refine Codec.getElem?_readArray_front grows (fun position inside => ?_) below
    refine moved (first.keys, second.keys)
      (inTail thereFirst thereSecond List.mem_cons_self) position ?_
    rw [(placedOld.sized _ kind first thereKind thereFirst).keys]
    exact inside
  · intro position before after thereBefore thereAfter slot below
    obtain ⟨kind, first, second, thereKind, thereFirst, thereSecond, rfl, rfl⟩ :=
      dimension thereBefore thereAfter
    refine Codec.getElem?_readArray_front grows (fun position inside => ?_) below
    refine moved (first.next, second.next)
      (inTail thereFirst thereSecond (List.mem_cons_of_mem _ List.mem_cons_self)) position ?_
    rw [(placedOld.sized _ kind first thereKind thereFirst).next]
    exact inside

/-- A header with other numbers of slots and buckets. -/
def Header.resized (header : Header) (capacity : Nat) : Header :=
  { header with capacity, bucketCapacity := 2 * capacity }

/-- The image with another capacity that stands in a block is framed. -/
theorem Image.Framed.resized (framed : image.Framed shape) {capacity : Nat} {layout : Layout}
    {bytes : Bytes} (reached : IsCapacity image.header.log2MinGrowth capacity)
    (computed : Layout.compute shape capacity (2 * capacity) = .ok layout) :
    (Image.at shape layout (image.header.resized capacity) bytes).Framed shape :=
  ⟨computed, framed.magic, framed.rowSize, framed.rowSize_lt, rfl, reached⟩

theorem Represents.resized_fits (represents : Represents shape image table orders) {capacity : Nat}
    (reached : IsCapacity image.header.log2MinGrowth capacity) :
    (image.header.resized capacity).Fits := by
  have fits := represents.sound.header
  have word := reached.lt_word
  refine ⟨?_, fits.firstFree⟩
  have old := fits.words
  intro other member
  simp only [Header.words, Header.resized, List.mem_cons, List.not_mem_nil, or_false] at member old
  rcases member with rfl | rfl | rfl | rfl | rfl | rfl | rfl | rfl
  case inr.inr.inl => omega
  case inr.inr.inr.inl => omega
  all_goals exact old _ (by simp)

/-- A capacity is refused when there is no layout for it, or when the host refuses its length. -/
def Refuses (shape : Shape) (site : Site Buffer) (capacity : Nat) (failure : Failure) : Prop :=
  Layout.compute shape capacity (2 * capacity) = .error failure ∨
    ∃ new error, Layout.compute shape capacity (2 * capacity) = .ok new ∧
      Host.resize site.buffer new.total = .error error ∧ failure = .storage error

theorem refuses_or_grants (shape : Shape) (site : Site Buffer) (capacity : Nat) :
    (∃ failure, Refuses shape site capacity failure) ∨
      ∃ new buffer, Layout.compute shape capacity (2 * capacity) = .ok new ∧
        Host.resize site.buffer new.total = .ok buffer := by
  cases computed : Layout.compute shape capacity (2 * capacity) with
  | error failure => exact Or.inl ⟨failure, Or.inl computed⟩
  | ok new =>
    cases resized : Host.resize site.buffer new.total with
    | error error => exact Or.inl ⟨_, Or.inr ⟨new, error, computed, resized, rfl⟩⟩
    | ok buffer => exact Or.inr ⟨new, buffer, rfl, resized⟩

/-- The grown image is what relinking makes of a larger one that starts like the old one. -/
def Image.GrowsTo (shape : Shape) (capacity : Nat) (image grown : Image) : Prop :=
  ∃ fresh, image.Extends fresh ∧ fresh.Sound shape ∧ fresh.header = image.header.resized capacity ∧
    relinkAll shape image fresh = .ok () grown

/-- What growth does when the capacity has been found acceptable. -/
def growTo (shape : Shape) (capacity : Nat) (image : Image) : Store Buffer Unit := do
  let new ← Layout.compute shape capacity (2 * capacity)
  Store.relocate (image.layout.moves new) new.total
  writeHeader { ← header with capacity := capacity, bucketCapacity := 2 * capacity }
  Store.edit (format shape) (relinkAll shape image)
  Store.report (.slotsGrow .indexedMap image.header.capacity capacity)
  Store.report (.dimensionsRehashed shape.dimensionCount image.header.bucketCapacity (2 * capacity))

namespace Holds

theorem grow_eq (holds : Holds shape site image table orders) {capacity : Nat}
    (reached : IsCapacity image.header.log2MinGrowth capacity)
    (grows : image.header.capacity < capacity) :
    grow shape capacity site = growTo shape capacity image site := by
  have old : Layout.ofHeader shape image.header = .ok image.layout :=
    recorded_eq_ok.mpr holds.represents.framed.computed
  have word := reached.lt_word
  have viewed := @Store.run_view_ok _ _ _ _ site (format shape) image holds.loaded
    (fun image => return (image.key.buckets, image.indices.map (·.buckets))) _ rfl
  simp only [grow, growTo, relinkAll, Edit.run_bind, holds.run_header, require_of grows,
    bucketCapacityFor_eq reached, Edit.run_lift_ok,
    toWord32_of (show capacity < 2 ^ 32 by omega), toWord32_of word, old]
  cases Layout.compute shape capacity (2 * capacity) with
  | error failure => rfl
  | ok new => simp only [Edit.run_lift_ok, viewed]

section

variable (wellFormed : shape.WellFormed) (holds : Holds shape site image table orders)

include wellFormed holds

/-- A map whose larger capacity is refused stays as it was. -/
theorem run_grow_refused {capacity : Nat} (reached : IsCapacity image.header.log2MinGrowth capacity)
    (grows : image.header.capacity < capacity) {failure : Failure}
    (refuses : Refuses shape site capacity failure) :
    grow shape capacity site = .error failure site := by
  rw [holds.grow_eq reached grows]
  rcases refuses with failed | ⟨new, error, computed, refused, rfl⟩
  · simp only [growTo, Edit.run_bind, failed, Edit.run_lift_error]
  · have framed := holds.represents.framed
    have movable := Layout.movable (Layout.placed_of_compute wellFormed framed.computed)
      (Layout.placed_of_compute wellFormed computed) (Nat.le_of_lt grows)
    rw [← holds.size_eq] at movable
    simp only [growTo, Edit.run_bind, computed, Edit.run_lift_ok,
      Store.run_relocate_error movable.source refused]

/-- Growth gives a map with more slots and the same rows, free slots and counts. -/
theorem run_grow [LawfulHost Buffer] {capacity : Nat}
    (reached : IsCapacity image.header.log2MinGrowth capacity)
    (grows : image.header.capacity < capacity) {new : Layout}
    (computed : Layout.compute shape capacity (2 * capacity) = .ok new) {buffer : Buffer}
    (resized : Host.resize site.buffer new.total = .ok buffer) :
    ∃ later grown, grow shape capacity site = .ok () later ∧
      Holds shape later grown table
        (regrouped shape capacity table fun position =>
          Represents.listing image.header.capacity (orders position)) ∧
      grown.header.capacity = capacity ∧
      grown.header.log2MinGrowth = image.header.log2MinGrowth ∧
      image.GrowsTo shape capacity grown ∧ site.Continues later := by
  have represents := holds.represents
  have more := Nat.le_of_lt grows
  have framed := represents.framed
  have placedOld := Layout.placed_of_compute wellFormed framed.computed
  have placedNew := Layout.placed_of_compute wellFormed computed
  have movable := Layout.movable placedOld placedNew more
  have disjoint := (placedNew.spans.sublist (@Layout.sublist_moves image.layout new)).disjoint
  rw [← holds.size_eq] at movable
  obtain ⟨moved, runMove, sizeMoved, copied, continuesMoved⟩ :=
    Store.run_relocate_disjoint movable disjoint resized
  -- the header is the first of the moved segments
  obtain ⟨words, loadedWords, isHeader⟩ := Header.load_eq_ok.mp holds.load_header
  have loadedMoved : Header.load moved.bytes = .ok image.header := by
    refine Header.load_eq_ok.mpr ⟨words, HeaderWords.load_congr ?_ loadedWords ?_, isHeader⟩
    · rw [sizeMoved]
      exact placedNew.header_le
    · intro position below
      have same := copied (image.layout.header, new.header) List.mem_cons_self position
        (by rw [placedOld.header]; exact below)
      simpa [placedOld.header, placedNew.header] using same
  obtain ⟨written, runWrite, bytesWritten, sizeWritten, loadedWritten, continuesWritten⟩ :=
    run_writeHeader (represents.resized_fits reached) wellFormed computed sizeMoved
  have isAt : Image.at shape image.layout image.header site.bytes = image := by
    obtain ⟨header, layout, -, -, -, rfl⟩ := Image.load_eq_ok.mp holds.loaded
    rfl
  have extension := @Image.extends_at shape image.layout new image.header
    (image.header.resized capacity) site.bytes written.bytes _ placedOld more
    (by
      intro move member position below
      have behind := placedNew.header_before (Layout.mem_tail_moves member)
      rw [bytesWritten, HeaderWords.getElem?_save rfl (Nat.le_trans behind (Nat.le_add_right _ _))]
      exact copied move (List.mem_of_mem_tail member) position below)
  rw [isAt] at extension
  have sound := Image.sound_of_load wellFormed loadedWritten
  obtain ⟨changed, runRelink, same, representsChanged⟩ :=
    represents.relinkAll_spec (framed.resized reached computed) sound extension rfl more
  obtain ⟨later, runEdit, holdsLater, continuesLater⟩ :=
    run_edit wellFormed loadedWritten sizeWritten runRelink same representsChanged
  have headerMoved : header moved = .ok image.header moved := by
    simp only [header, Edit.run_bind, Store.run_bytes, loadedMoved, Edit.run_lift_ok]
  unfold Header.resized at runWrite
  let events := later.events ++ [.slotsGrow .indexedMap image.header.capacity capacity] ++
    [.dimensionsRehashed shape.dimensionCount image.header.bucketCapacity (2 * capacity)]
  have continues := continuesMoved.trans (continuesWritten.trans (continuesLater.trans
    (Site.Continues.report later events)))
  refine ⟨{ later with events }, changed, ?_,
    ⟨holdsLater.loaded, holdsLater.size_eq, holdsLater.represents⟩, same.capacity_eq,
    same.log2MinGrowth_eq, ⟨_, extension, sound, rfl, runRelink⟩, continues⟩
  simp only [holds.grow_eq reached grows, growTo, Edit.run_bind, computed, Edit.run_lift_ok, runMove,
    headerMoved, runWrite, runEdit, Store.run_report, events]

end

end Holds

/-! ### Starting empty -/

/-- The image is what clearing makes of some image with the header. -/
def Image.Emptied (shape : Shape) (header : Header) (emptied : Image) : Prop :=
  ∃ fresh, fresh.Sound shape ∧ fresh.header = header ∧ clearRows shape fresh = .ok () emptied

/-- A block of the right length becomes an empty map when its header is written and its rows are
cleared, whatever it holds. -/
theorem run_emptied [LawfulHost Buffer] (wellFormed : shape.WellFormed) {header : Header}
    (fits : header.Fits) {layout : Layout}
    (computed : Layout.compute shape header.capacity header.bucketCapacity = .ok layout)
    (framed : ∀ bytes, (Image.at shape layout header bytes).Framed shape)
    (size : site.bytes.size = layout.total) :
    ∃ written later emptied, writeHeader header site = .ok () written ∧
      Store.edit (format shape) (clearRows shape) written = .ok () later ∧
      Holds shape later emptied SlotTable.empty (fun _ _ => []) ∧
      emptied.header.fixed = header.fixed ∧ emptied.Emptied shape header ∧
      site.Continues later := by
  obtain ⟨written, runWrite, -, sizeWritten, loadedWritten, continuesWritten⟩ :=
    run_writeHeader fits wellFormed computed size
  have sound := Image.sound_of_load wellFormed loadedWritten
  obtain ⟨emptied, runClear, same, represents⟩ := clearRows_spec (framed written.bytes) sound
  obtain ⟨later, runEdit, holds, continues⟩ :=
    run_edit wellFormed loadedWritten sizeWritten runClear same represents
  exact ⟨written, later, emptied, runWrite, runEdit, holds, same.header, ⟨_, sound, rfl, runClear⟩,
    continuesWritten.trans continues⟩

/-- The header of a new map. -/
def Header.initial (shape : Shape) (capacity log2MinGrowth : Nat) : Header where
  magic := shape.magic
  count := 0
  capacity := capacity
  bucketCapacity := 2 * capacity
  allocatedIndex := 0
  firstFree := none
  log2MinGrowth := log2MinGrowth
  rowSize := shape.rowSize

/-- A map and a new one with the same capacity and growth step have the same frame. -/
theorem Image.Framed.fixed_initial (framed : image.Framed shape) :
    (Header.initial shape image.header.capacity image.header.log2MinGrowth).fixed =
      image.header.fixed := by
  rw [Header.fixed, Header.fixed, Header.initial, ← framed.magic, ← framed.rowSize,
    ← framed.bucketCapacity]

theorem Header.fits_initial {capacity log2MinGrowth : Nat}
    (reached : IsCapacity log2MinGrowth capacity) (rowSize : shape.rowSize < 2 ^ 32) :
    (Header.initial shape capacity log2MinGrowth).Fits := by
  have word := reached.lt_word
  have step := reached.le_log2
  have magic : shape.magic < 2 ^ 32 := magic_lt ..
  refine ⟨?_, Codec.fits_link fun _ absurdity => by simp [initial] at absurdity⟩
  intro other member
  simp only [words, initial, List.mem_cons, List.not_mem_nil, or_false] at member
  rcases member with rfl | rfl | rfl | rfl | rfl | rfl | rfl | rfl
  case inr.inr.inr.inr.inr.inl => decide
  all_goals omega

/-- A map that has been created is empty, and its capacity is the least one for its sizing. -/
theorem holds_of_init [LawfulHost Buffer] (wellFormed : shape.WellFormed) {sizing : Sizing}
    {later : Site Buffer} (run : init shape sizing site = .ok () later) :
    ∃ image, Holds shape later image SlotTable.empty (fun _ _ => []) ∧ site.Continues later ∧
      grownCapacity 0 sizing.capacity sizing.log2MinGrowth = .ok image.header.capacity ∧
      image.header.log2MinGrowth = sizing.log2MinGrowth ∧
      image.Emptied shape (.initial shape image.header.capacity sizing.log2MinGrowth) := by
  obtain ⟨_, _, isLength, run⟩ := Edit.bind_eq_ok.mp run
  obtain ⟨rfl, rfl⟩ := EStateM.Result.ok.inj (Store.run_length.symm.trans isLength)
  simp only [Edit.lift_bind_eq_ok] at run
  obtain ⟨_, -, capacity, grown, buckets, isBuckets, layout, computed, _, word, _, bucketWord, _,
    rowWord, run⟩ := run
  obtain ⟨_, resized, runResize, run⟩ := Edit.bind_eq_ok.mp run
  obtain ⟨_, _, runWrite, runClear⟩ := Edit.bind_eq_ok.mp run
  obtain ⟨reached, -, -⟩ := IsCapacity.of_grown grown
  obtain rfl : 2 * capacity = buckets :=
    Except.ok.inj ((bucketCapacityFor_eq reached).symm.trans isBuckets)
  obtain ⟨-, rfl⟩ := toWord32_eq_ok.mp word
  obtain ⟨-, rfl⟩ := toWord32_eq_ok.mp bucketWord
  obtain ⟨rowSize, rfl⟩ := toWord32_eq_ok.mp rowWord
  obtain ⟨buffer, granted, rfl⟩ := Store.resize_eq_ok.mp runResize
  obtain ⟨written, later', image, runWrite', runClear', holds, fixed, emptied, continues⟩ :=
    @run_emptied _ _ shape (site.withBuffer buffer) _ wellFormed
      (Header.initial shape capacity sizing.log2MinGrowth) (Header.fits_initial reached rowSize)
      layout computed (fun bytes => ⟨computed, rfl, rfl, rowSize, rfl, reached⟩)
      (LawfulHost.size_resize site.buffer buffer layout.total granted)
  have sameWritten := runWrite'.symm.trans runWrite
  cases sameWritten
  cases runClear'.symm.trans runClear
  have capacityEq := congrArg Header.capacity fixed
  have stepEq := congrArg Header.log2MinGrowth fixed
  refine ⟨image, holds, (Site.Continues.resize granted).trans continues, ?_, stepEq, ?_⟩
  · rw [grown]
    exact congrArg Except.ok capacityEq.symm
  · rw [show image.header.capacity = capacity from capacityEq]
    exact emptied

/-- A block of any content becomes an empty map once its host has granted the length of the layout. -/
theorem run_create [LawfulHost Buffer] (wellFormed : shape.WellFormed) {capacity log2MinGrowth : Nat}
    (reached : IsCapacity log2MinGrowth capacity) (rowSize : shape.rowSize < 2 ^ 32)
    {layout : Layout} (computed : Layout.compute shape capacity (2 * capacity) = .ok layout)
    {buffer : Buffer} (resized : Host.resize site.buffer layout.total = .ok buffer) :
    ∃ later, (do
      writeHeader (.initial shape capacity log2MinGrowth)
      Store.edit (format shape) (clearRows shape) : Store Buffer Unit) (site.withBuffer buffer) =
        .ok () later := by
  obtain ⟨written, later, image, runWrite, runClear, -⟩ :=
    @run_emptied _ _ shape (site.withBuffer buffer) _ wellFormed
      (Header.initial shape capacity log2MinGrowth) (Header.fits_initial reached rowSize)
      layout computed (fun bytes => ⟨computed, rfl, rfl, rowSize, rfl, reached⟩)
      (LawfulHost.size_resize site.buffer buffer layout.total resized)
  exact ⟨later, by rw [Edit.run_bind, runWrite]; exact runClear⟩

/-- What creation does when the numbers have been found acceptable. -/
def initTo (shape : Shape) (header : Header) (layout : Layout) : Store Buffer Unit := do
  Store.resize layout.total
  writeHeader header
  Store.edit (format shape) (clearRows shape)

theorem run_initTo [LawfulHost Buffer] (wellFormed : shape.WellFormed) {capacity log2MinGrowth : Nat}
    (reached : IsCapacity log2MinGrowth capacity) (rowSize : shape.rowSize < 2 ^ 32)
    {layout : Layout} (computed : Layout.compute shape capacity (2 * capacity) = .ok layout)
    {buffer : Buffer} (resized : Host.resize site.buffer layout.total = .ok buffer) :
    ∃ later, initTo shape (.initial shape capacity log2MinGrowth) layout site = .ok () later := by
  rw [initTo, Edit.run_bind, Store.run_resize_ok resized]
  exact run_create wellFormed reached rowSize computed resized

section

variable (empty : site.bytes.size = 0) {sizing : Sizing} {capacity : Nat}
  (least : grownCapacity 0 sizing.capacity sizing.log2MinGrowth = .ok capacity)
  (rowSize : shape.rowSize < 2 ^ 32) {layout : Layout}
  (computed : Layout.compute shape capacity (2 * capacity) = .ok layout)

include empty least rowSize computed

theorem init_eq : init shape sizing site =
    initTo shape (.initial shape capacity sizing.log2MinGrowth) layout site := by
  obtain ⟨reached, -, -⟩ := IsCapacity.of_grown least
  have word := reached.lt_word
  simp only [init, initTo, Header.initial, Edit.run_bind, Store.run_length, demand_of empty,
    Edit.run_lift_ok, least, bucketCapacityFor_eq reached, computed,
    toWord32_of (show capacity < 2 ^ 32 by omega), toWord32_of word, toWord32_of rowSize]

/-- A map is created in an empty block whose host grants the length of the layout. -/
theorem run_init [LawfulHost Buffer] (wellFormed : shape.WellFormed) {buffer : Buffer}
    (resized : Host.resize site.buffer layout.total = .ok buffer) :
    ∃ later, init shape sizing site = .ok () later := by
  rw [init_eq empty least rowSize computed]
  exact run_initTo wellFormed (IsCapacity.of_grown least).1 rowSize computed resized

end

/-! ### Flattening -/

/-- What compaction does when the capacity has been found acceptable. -/
def compactTo (shape : Shape) (capacity : Nat) (count holes : Nat) : Store Buffer Unit := do
  let new ← Layout.compute shape capacity (2 * capacity)
  Store.resize new.total
  writeHeader { ← header with capacity := capacity, bucketCapacity := 2 * capacity }
  Store.edit (format shape) (clearRows shape)
  Store.report (.flattened count holes capacity)

namespace Holds

theorem compact_eq (holds : Holds shape site image table orders) {capacity : Nat}
    (least : grownCapacity table.count table.count image.header.log2MinGrowth = .ok capacity) :
    compact shape site = compactTo shape capacity table.count table.free.length site := by
  have represents := holds.represents
  obtain ⟨reached, -, -⟩ := IsCapacity.of_grown least
  have word := reached.lt_word
  have counted : table.count + table.free.length = image.header.allocatedIndex := by
    rw [represents.allocated]
    exact represents.wellFormed.count
  have holes := @Store.run_view_ok _ _ _ _ site (format shape) image holds.loaded
    (fun image => FreeSlots.count { head := image.header.firstFree, next := image.key.next }) _
    represents.free.count_eq
  simp only [compact, compactTo, Edit.run_bind, holds.run_header, holes, represents.count,
    require_of counted, least, bucketCapacityFor_eq reached, Edit.run_lift_ok,
    toWord32_of (show capacity < 2 ^ 32 by omega), toWord32_of word]

theorem run_compact_refused (holds : Holds shape site image table orders) {capacity : Nat}
    (least : grownCapacity table.count table.count image.header.log2MinGrowth = .ok capacity)
    {failure : Failure} (refuses : Refuses shape site capacity failure) :
    compact shape site = .error failure site := by
  rw [holds.compact_eq least]
  rcases refuses with failed | ⟨new, error, computed, refused, rfl⟩
  · simp only [compactTo, Edit.run_bind, failed, Edit.run_lift_error]
  · simp only [compactTo, Edit.run_bind, computed, Edit.run_lift_ok,
      Store.run_resize_error refused]

/-- Compaction leaves an empty map of the least capacity for the rows it had. -/
theorem run_compact [LawfulHost Buffer] (wellFormed : shape.WellFormed)
    (holds : Holds shape site image table orders) {capacity : Nat}
    (least : grownCapacity table.count table.count image.header.log2MinGrowth = .ok capacity)
    {new : Layout} (computed : Layout.compute shape capacity (2 * capacity) = .ok new)
    {buffer : Buffer} (resized : Host.resize site.buffer new.total = .ok buffer) :
    ∃ later emptied, compact shape site = .ok () later ∧
      Holds shape later emptied SlotTable.empty (fun _ _ => []) ∧
      emptied.header.capacity = capacity ∧
      emptied.header.log2MinGrowth = image.header.log2MinGrowth ∧
      emptied.Emptied shape (image.header.resized capacity) ∧ site.Continues later := by
  have represents := holds.represents
  have framed := represents.framed
  obtain ⟨reached, -, -⟩ := IsCapacity.of_grown least
  have placedOld := Layout.placed_of_compute wellFormed framed.computed
  have placedNew := Layout.placed_of_compute wellFormed computed
  have size := LawfulHost.size_resize site.buffer buffer new.total resized
  -- the header lies below both lengths
  obtain ⟨words, loadedWords, isHeader⟩ := Header.load_eq_ok.mp holds.load_header
  have loadedResized : Header.load (Host.bytes buffer) = .ok image.header := by
    refine Header.load_eq_ok.mpr ⟨words, HeaderWords.load_congr ?_ loadedWords ?_, isHeader⟩
    · rw [size]
      exact placedNew.header_le
    · intro position below
      have before : position < site.bytes.size := by
        rw [holds.size_eq]
        exact Nat.lt_of_lt_of_le below placedOld.header_le
      exact LawfulHost.getElem?_resize site.buffer buffer new.total position resized
        (Nat.lt_of_lt_of_le below placedNew.header_le) before
  have headerResized : header (site.withBuffer buffer) =
      .ok image.header (site.withBuffer buffer) := by
    simp only [header, Edit.run_bind, Store.run_bytes, Site.bytes_withBuffer, loadedResized,
      Edit.run_lift_ok]
  obtain ⟨written, later, emptied, runWrite, runEdit, holdsLater, fixed, blank, continues⟩ :=
    @run_emptied _ _ shape (site.withBuffer buffer) _ wellFormed (image.header.resized capacity)
      (represents.resized_fits reached) new computed
      (fun bytes => framed.resized reached computed) size
  have capacityEq := congrArg Header.capacity fixed
  have stepEq := congrArg Header.log2MinGrowth fixed
  unfold Header.resized at runWrite
  refine ⟨{ later with events := later.events ++
      [.flattened table.count table.free.length capacity] }, emptied, ?_,
    ⟨holdsLater.loaded, holdsLater.size_eq, holdsLater.represents⟩, capacityEq, stepEq, blank,
    (Site.Continues.resize resized).trans (continues.trans (Site.Continues.report later _))⟩
  simp only [holds.compact_eq least, compactTo, Edit.run_bind, computed, Edit.run_lift_ok,
    Store.run_resize_ok resized, headerResized, runWrite, runEdit, Store.run_report]

end Holds

end PackedStore.IndexedMap
