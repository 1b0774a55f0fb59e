/-
This file follows the arena of an untyped map. The arena is the last segment, so
more of it moves the end of the block only and all records stay where they are. An
allocation takes words behind those of all values, aligned as it was asked for; it
changes the header, and no entry.
-/

import PackedStore.Proofs.UntypedMap.Resizing

namespace PackedStore.UntypedMap

variable {Buffer : Type} [Host Buffer] {known : ElementType → Prop} {key : KeyType}
  {site : Site Buffer} {image : Image} {entries : List Entry} {order : Nat → List Nat}

/-! ### Images with more arena -/

theorem Image.Widens.refl (image : Image) : image.Widens image :=
  ⟨rfl, rfl, rfl, rfl, fun _ _ => rfl⟩

theorem Image.Widens.trans {wide wider : Image} (first : image.Widens wide)
    (second : wide.Widens wider) (more : image.header.dataCapacity ≤ wide.header.dataCapacity) :
    image.Widens wider where
  words := second.words.trans first.words
  chains := second.chains.trans first.chains
  types := second.types.trans first.types
  sizes := second.sizes.trans first.sizes
  arena position below := (second.arena position
    (Nat.lt_of_lt_of_le below (Nat.mul_le_mul_right _ more))).trans (first.arena position below)

/-- The records behind the header are read from a block whose end has moved as before. -/
theorem Image.widens_at {layout : Layout} {header wide : Header} {bytes other : Bytes}
    (placed : layout.Placed key.toElementType header.capacity header.bucketCapacity
      header.dataCapacity)
    (capacity : wide.capacity = header.capacity)
    (buckets : wide.bucketCapacity = header.bucketCapacity)
    (more : header.dataCapacity ≤ wide.dataCapacity)
    (kept : ∀ position, headerLength ≤ position → position < layout.total →
      other[position]? = bytes[position]?) :
    (Image.at key layout header bytes).Widens
      (Image.at key (layout.withData wide.dataCapacity) wide other) := by
  have keptIn {segment : Segment} (member : segment ∈ layout.segments.tail) (place : Nat)
      (below : place < segment.length) :
      other[segment.offset + place]? = bytes[segment.offset + place]? := by
    have before := placed.header_before member
    have stop := placed.stop_le (List.mem_of_mem_tail member)
    simp only [Segment.stop] at stop
    exact kept _ (by omega) (by omega)
  have values := @keptIn layout.values (by simp [Layout.segments])
  have keys := @keptIn layout.keys (by simp [Layout.segments])
  have next := @keptIn layout.next (by simp [Layout.segments])
  have links := @keptIn layout.buckets (by simp [Layout.segments])
  have types := @keptIn layout.types (by simp [Layout.segments])
  have sizes := @keptIn layout.sizes (by simp [Layout.segments])
  have data := @keptIn layout.data (by simp [Layout.segments])
  rw [placed.values] at values
  rw [placed.keys] at keys
  rw [placed.next] at next
  rw [placed.buckets] at links
  rw [placed.types] at types
  rw [placed.sizes] at sizes
  rw [placed.data] at data
  refine ⟨?_, (HashChains.mk.injEq ..).mpr ⟨?_, ?_, ?_⟩, ?_, ?_, ?_⟩
  · show Codec.word32.readArray other layout.values.offset wide.capacity = _
    rw [capacity]
    exact Codec.readArray_of_same values
  · show (Codec.cell key.size).readArray other layout.keys.offset wide.capacity = _
    rw [capacity]
    exact Codec.readArray_of_same keys
  · show Link.codec.readArray other layout.next.offset wide.capacity = _
    rw [capacity]
    exact Codec.readArray_of_same next
  · show Link.codec.readArray other layout.buckets.offset wide.bucketCapacity = _
    rw [buckets]
    exact Codec.readArray_of_same links
  · show TypeTag.codec.readArray other layout.types.offset wide.capacity = _
    rw [capacity]
    exact Codec.readArray_of_same types
  · show (Codec.nat 2).readArray other layout.sizes.offset wide.capacity = _
    rw [capacity]
    exact Codec.readArray_of_same sizes
  · intro position below
    have inside : position < header.dataCapacity * 4 := below
    have insideWide : position < wide.dataCapacity * 4 :=
      Nat.lt_of_lt_of_le inside (Nat.mul_le_mul_right _ more)
    show (other.extract layout.data.offset (layout.data.offset + wide.dataCapacity * 4))[position]? =
      (bytes.extract layout.data.offset (layout.data.offset + layout.data.length))[position]?
    rw [Bytes.getElem?_extract_width, Bytes.getElem?_extract_width, placed.data, if_pos inside,
      if_pos insideWide]
    exact data position inside

/-- A layout is the one with its own arena. -/
theorem Layout.withData_self {type : ElementType} {capacity buckets dataCapacity : Nat}
    {layout : Layout} (computed : compute type capacity buckets dataCapacity = .ok layout) :
    layout.withData dataCapacity = layout :=
  (compute_withData computed computed).symm

namespace Holds

variable [LawfulHost Buffer] (wellFormed : key.toElementType.WellFormed)
  (holds : Holds known key site image entries order)

include wellFormed holds

/-- A block whose end has moved holds the same entries when the arena's numbers are written to its
header. -/
theorem run_withData {resized : Site Buffer} {new : Layout} {dataCapacity dataAllocated : Nat}
    (regular : (image.header.withData dataCapacity dataAllocated).Regular key)
    (more : image.header.dataCapacity ≤ dataCapacity)
    (raised : image.header.dataAllocated ≤ dataAllocated)
    (computed : Layout.compute key.toElementType image.header.capacity image.header.bucketCapacity
      dataCapacity = .ok new) (size : resized.bytes.size = new.total)
    (kept : ∀ position, position < image.layout.total →
      resized.bytes[position]? = site.bytes[position]?) :
    ∃ later wide,
      writeHeader (image.header.withData dataCapacity dataAllocated) resized = .ok () later ∧
      Holds known key later wide entries order ∧ image.Widens wide ∧
      wide.header = image.header.withData dataCapacity dataAllocated ∧
      resized.Continues later := by
  have framed := holds.represents.framed
  have placed := Layout.placed_of_compute wellFormed framed.computed
  obtain ⟨later, runWrite, bytesLater, sizeLater, loaded, continues⟩ :=
    run_writeHeader regular.fits wellFormed computed size
  have isLayout := Layout.compute_withData framed.computed computed
  have widens := @Image.widens_at key image.layout image.header
    (image.header.withData dataCapacity dataAllocated) site.bytes later.bytes placed rfl rfl more
    (by
      intro position behind below
      rw [bytesLater, HeaderWords.getElem?_save rfl behind]
      exact kept position below)
  rw [holds.at_eq] at widens
  rw [isLayout] at loaded sizeLater
  have sound := Image.sound_of_load wellFormed loaded
  exact ⟨later, _, runWrite, ⟨loaded, sizeLater,
    holds.represents.widen sound widens rfl regular more raised⟩, widens, rfl, continues⟩

end Holds

/-! ### Growth -/

/-- What the growth of the arena does when the capacity has been found acceptable. -/
def widenTo (key : KeyType) (dataCapacity : Nat) (image : Image) : Store Buffer Unit := do
  let new ← Layout.compute key.toElementType image.header.capacity (2 * image.header.capacity)
    dataCapacity
  Store.resize new.total
  writeHeader { ← header with dataCapacity := dataCapacity }
  Store.report (.arenaGrows .untypedMap image.header.dataCapacity dataCapacity)

namespace Holds

theorem ensureData_eq (holds : Holds known key site image entries order)
    {required dataCapacity : Nat} (more : image.header.dataCapacity < required)
    (grown : grownDataCapacity image.header.dataCapacity required image.header.log2MinGrowth =
      .ok dataCapacity) (reached : IsCapacity image.header.log2MinGrowth dataCapacity) :
    ensureData key required site = widenTo key dataCapacity image site := by
  have word := reached.lt_word
  simp only [ensureData, widenTo, Edit.run_bind, holds.run_header, if_pos more, grown,
    Edit.run_lift_ok, toWord32_of (show dataCapacity < 2 ^ 32 by omega),
    holds.represents.framed.header.bucketCapacity]

variable [LawfulHost Buffer] (wellFormed : key.toElementType.WellFormed)
  (holds : Holds known key site image entries order)

include wellFormed holds

/-- The arena has a larger capacity, or that capacity is refused. -/
theorem run_widenTo {dataCapacity : Nat} (more : image.header.dataCapacity ≤ dataCapacity)
    (reached : IsCapacity image.header.log2MinGrowth dataCapacity) :
    (∃ failure, widenTo key dataCapacity image site = .error failure site ∧
      Refuses key site image.header.capacity dataCapacity failure) ∨
    ∃ later wide, widenTo key dataCapacity image site = .ok () later ∧
      Holds known key later wide entries order ∧ image.Widens wide ∧
      wide.header = image.header.withData dataCapacity image.header.dataAllocated ∧
      site.Continues later := by
  have framed := holds.represents.framed
  rcases refuses_or_grants key site image.header.capacity dataCapacity with
    ⟨failure, refuses⟩ | ⟨new, buffer, computed, resized⟩
  · refine Or.inl ⟨failure, ?_, refuses⟩
    rcases refuses with failed | ⟨new, error, computed, refused, rfl⟩
    · simp only [widenTo, Edit.run_bind, failed, Edit.run_lift_error]
    · simp only [widenTo, Edit.run_bind, computed, Edit.run_lift_ok,
        Store.run_resize_error refused]
  · have size : (site.withBuffer buffer).bytes.size = new.total :=
      LawfulHost.size_resize site.buffer buffer new.total resized
    have computed' := computed
    rw [← framed.header.bucketCapacity] at computed'
    have placed := Layout.placed_of_compute wellFormed framed.computed
    have isLayout := Layout.compute_withData framed.computed computed'
    have longer : image.layout.total ≤ new.total := by
      have same : image.layout.withData image.header.dataCapacity = image.layout :=
        Layout.withData_self framed.computed
      rw [isLayout, ← same]
      exact Nat.add_le_add_left (Nat.mul_le_mul_right _ more) _
    have kept (position : Nat) (below : position < image.layout.total) :
        (site.withBuffer buffer).bytes[position]? = site.bytes[position]? := by
      refine LawfulHost.getElem?_resize site.buffer buffer new.total position resized
        (Nat.lt_of_lt_of_le below longer) ?_
      show position < site.bytes.size
      rw [holds.size_eq]
      exact below
    have loaded : Header.load (site.withBuffer buffer).bytes = .ok image.header := by
      refine load_header_of_same holds.load_header ?_ fun position below => ?_
      · rw [size]
        exact Nat.le_trans placed.header_le longer
      · exact kept position (Nat.lt_of_lt_of_le below placed.header_le)
    have headerResized : header (site.withBuffer buffer) =
        .ok image.header (site.withBuffer buffer) := by
      simp only [header, Edit.run_bind, Store.run_bytes, loaded, Edit.run_lift_ok]
    have regular : (image.header.withData dataCapacity image.header.dataAllocated).Regular key :=
      framed.header.withData (Or.inr reached) (Nat.le_trans framed.header.allocated_le more)
    obtain ⟨later, wide, runWrite, holdsLater, widens, isHeader, continues⟩ :=
      holds.run_withData wellFormed regular more (Nat.le_refl _) computed' size kept
    unfold Header.withData at runWrite
    refine Or.inr ⟨{ later with events := later.events ++
        [.arenaGrows .untypedMap image.header.dataCapacity dataCapacity] }, wide, ?_,
      ⟨holdsLater.loaded, holdsLater.size_eq, holdsLater.represents⟩, widens, isHeader,
      (Site.Continues.resize resized).trans (continues.trans (Site.Continues.report later _))⟩
    simp only [widenTo, Edit.run_bind, computed, Edit.run_lift_ok, Store.run_resize_ok resized,
      headerResized, runWrite, Store.run_report]

/-- Room for a number of words is made in the arena, or the request is refused. -/
theorem run_ensureData (required : Nat) :
    (∃ failure, ensureData key required site = .error failure site ∧
      ((maxCapacity < required ∧ failure = .overflow .arenaCapacity) ∨
        CannotGrow key site failure)) ∨
    (required ≤ maxCapacity ∧ ∃ later wide dataCapacity,
      ensureData key required site = .ok () later ∧ Holds known key later wide entries order ∧
      image.Widens wide ∧ required ≤ dataCapacity ∧ image.header.dataCapacity ≤ dataCapacity ∧
      wide.header = image.header.withData dataCapacity image.header.dataAllocated ∧
      site.Continues later) := by
  have framed := holds.represents.framed
  have step := framed.header.reached.le_log2
  have reached := framed.header.dataReached
  by_cases more : image.header.dataCapacity < required
  · by_cases large : maxCapacity < required
    · refine Or.inl ⟨.overflow .arenaCapacity, ?_, Or.inl ⟨large, rfl⟩⟩
      simp only [ensureData, Edit.run_bind, holds.run_header, if_pos more,
        grownDataCapacity_eq_error step reached more large, Edit.run_lift_error]
    · have small := Nat.le_of_not_lt large
      obtain ⟨dataCapacity, grown, reachedMore, room⟩ :=
        grownDataCapacity_of step reached more small
      have wider : image.header.dataCapacity ≤ dataCapacity := by omega
      rw [holds.ensureData_eq more grown reachedMore]
      rcases holds.run_widenTo wellFormed wider reachedMore with
        ⟨failure, refused, refuses⟩ | ⟨later, wide, run, holdsLater, widens, isHeader, continues⟩
      · exact Or.inl ⟨failure, refused, Or.inr ⟨_, _, framed.header.reached.le_max,
          reachedMore.le_max, refuses⟩⟩
      · exact Or.inr ⟨small, later, wide, dataCapacity, run, holdsLater, widens, room, wider,
          isHeader, continues⟩
  · have enough := Nat.le_of_not_lt more
    refine Or.inr ⟨Nat.le_trans enough reached.le_max, site, image, image.header.dataCapacity, ?_,
      holds, Image.Widens.refl image, enough, Nat.le_refl _, rfl, Site.Continues.refl site⟩
    simp only [ensureData, Edit.run_bind, holds.run_header, if_neg more, Edit.run_pure]

/-! ### Allocation -/

/-- An allocation answers words that are behind those of all values, or is refused. -/
theorem run_allocate {size align : Nat} (small : size < 2 ^ 16) (supported : IsAlign align) :
    ∃ offset,
      planAllocation image.header.dataAllocated size align =
        some ⟨offset, offset + wordsFor size⟩ ∧
      image.header.dataAllocated ≤ offset ∧ offset < 2 ^ 32 ∧ align ∣ offset * wordSize ∧
      ((∃ failure, allocate key size align site = .error failure site ∧
        ensureData key (offset + wordsFor size) site = .error failure site ∧
        ((maxCapacity < offset + wordsFor size ∧ failure = .overflow .arenaCapacity) ∨
          CannotGrow key site failure)) ∨
      (offset + wordsFor size ≤ maxCapacity ∧ ∃ later raised dataCapacity,
        allocate key size align site = .ok offset later ∧
        Holds known key later raised entries order ∧
        ValueTable known image.header.capacity image.header.dataAllocated (Entries.stored entries)
          raised.cells ∧
        raised.header = image.header.withData dataCapacity (offset + wordsFor size) ∧
        site.Continues later)) := by
  have framed := holds.represents.framed
  have bound := framed.header.dataReached.le_max
  have used := framed.header.allocated_le
  have words : wordsFor size ≤ 2 ^ 14 := by
    unfold wordsFor wordSize
    omega
  unfold maxCapacity at bound
  obtain ⟨offset, planned, behind, near, aligned⟩ :=
    @planAllocation_of image.header.dataAllocated size align supported (by unfold sizeLimit; omega)
  refine ⟨offset, planned, behind, by omega, aligned, ?_⟩
  have run : allocate key size align site = ((do
      ensureData key (offset + wordsFor size)
      writeHeader { ← header with dataAllocated := offset + wordsFor size }
      return offset : Store Buffer Nat) site) := by
    simp only [allocate, Edit.run_bind, holds.run_header, planned, orFail, Edit.run_lift_ok,
      toWord32_of (show offset < 2 ^ 32 by omega),
      toWord32_of (show offset + wordsFor size < 2 ^ 32 by omega)]
  rcases holds.run_ensureData wellFormed (offset + wordsFor size) with
    ⟨failure, refused, cause⟩ |
    ⟨room, middle, wide, dataCapacity, ensured, holdsWide, widens, enough, more, isHeader, continues⟩
  · refine Or.inl ⟨failure, ?_, refused, cause⟩
    simp only [run, Edit.run_bind, refused]
  · have framedWide := holdsWide.represents.framed
    have data : wide.header.dataCapacity = dataCapacity := by
      rw [isHeader]
      rfl
    have allocated : wide.header.dataAllocated = image.header.dataAllocated := by
      rw [isHeader]
      rfl
    have regular : (wide.header.withData dataCapacity (offset + wordsFor size)).Regular key := by
      refine framedWide.header.withData ?_ enough
      rw [← data]
      exact framedWide.header.dataReached
    obtain ⟨later, raised, runWrite, holdsLater, widensRaised, headerRaised, continuesRaised⟩ :=
      holdsWide.run_withData wellFormed regular (Nat.le_of_eq data)
        (by rw [allocated]; omega) (by rw [← data]; exact framedWide.computed) holdsWide.size_eq
        fun _ _ => rfl
    have headerEq : raised.header =
        image.header.withData dataCapacity (offset + wordsFor size) := by
      rw [headerRaised, isHeader]
      rfl
    refine Or.inr ⟨room, later, raised, dataCapacity, ?_, holdsLater, ?_, headerEq,
      continues.trans continuesRaised⟩
    · have same : wide.header.withData dataCapacity (offset + wordsFor size) =
          { wide.header with dataAllocated := offset + wordsFor size } := by
        rw [Header.withData, ← data]
      rw [same] at runWrite
      simp only [run, Edit.run_bind, ensured, holdsWide.run_header, runWrite, Edit.run_pure]
    · exact holds.represents.values_of_widens holdsLater.represents.sound
        (widens.trans widensRaised (by rw [data]; exact more)) headerEq more

end Holds

end PackedStore.UntypedMap
