/-
This file says that the image of an untyped map is read back as it was saved. An
image is sound when its layout is the one for its header, its arrays have the
sizes the header says, and all records fit the bytes they take. Every image read
from a block is sound, and a sound image that is saved is the image of the block.
-/

import PackedStore.Proofs.Slots.KeyTables
import PackedStore.Proofs.UntypedMap.Layouts
import PackedStore.UntypedMap.Image

namespace PackedStore.UntypedMap

/-! ### Headers -/

/-- The words of a header fit into four bytes each. -/
def Header.Fits (header : Header) : Prop :=
  ∀ word ∈ header.words, word < 2 ^ 32

theorem Header.fits_ofWords {words : HeaderWords} (bound : ∀ word ∈ words, word < 2 ^ 32) :
    (ofWords words).Fits := by
  have each (position : Nat) : words.getD position 0 < 2 ^ 32 := by
    rw [List.getD_eq_getElem?_getD]
    cases there : words[position]? with
    | none => decide
    | some word => exact bound word (List.mem_of_getElem? there)
  intro word member
  simp only [Header.words, ofWords, List.mem_cons, List.not_mem_nil, or_false] at member
  rcases member with rfl | rfl | rfl | rfl | rfl | rfl | rfl | rfl
  all_goals exact each _

theorem Header.words_ofWords {words : HeaderWords} (length : words.length = headerWords) :
    (ofWords words).words = words := by
  match words, length with
  | [_, _, _, _, _, _, _, _], _ => rfl

theorem Header.load_eq_ok {bytes : Bytes} {header : Header} :
    load bytes = .ok header ↔ ∃ words, HeaderWords.load bytes = .ok words ∧ ofWords words = header := by
  simp [load, Checked.bind_eq_ok, pure, Except.pure]

/-! ### Images of blocks -/

variable {key : KeyType} {image : Image} {bytes : Bytes}

/-- The image that stands in a block at the places of a layout. -/
def Image.at (key : KeyType) (layout : Layout) (header : Header) (bytes : Bytes) : Image where
  layout := layout
  header := header
  cells := {
    words := Codec.word32.readArray bytes layout.values.offset header.capacity
    arena := bytes.extract layout.data.offset layout.data.stop }
  chains := {
    keys := (Codec.cell key.size).readArray bytes layout.keys.offset header.capacity
    next := Link.codec.readArray bytes layout.next.offset header.capacity
    buckets := Link.codec.readArray bytes layout.buckets.offset header.bucketCapacity }
  types := TypeTag.codec.readArray bytes layout.types.offset header.capacity
  sizes := (Codec.nat 2).readArray bytes layout.sizes.offset header.capacity

theorem Image.load_eq_ok :
    load key.toElementType bytes = .ok image ↔
      ∃ header layout, Header.load bytes = .ok header ∧
        Layout.compute key.toElementType header.capacity header.bucketCapacity
          header.dataCapacity = .ok layout ∧
        layout.total ≤ bytes.size ∧ image = Image.at key layout header bytes := by
  simp only [load, Layout.ofHeader, Checked.bind_eq_ok, recorded_eq_ok, require_eq_ok, pure,
    Except.pure, Except.ok.injEq]
  constructor
  · rintro ⟨header, loaded, layout, computed, -, size, rfl⟩
    exact ⟨header, layout, loaded, computed, size, rfl⟩
  · rintro ⟨header, layout, loaded, computed, size, rfl⟩
    exact ⟨header, loaded, layout, computed, (), size, rfl⟩

/-- The layout of an image is the one for its header, its arrays have the sizes the header says,
and its records fit their bytes. -/
structure Image.Sound (key : KeyType) (image : Image) : Prop where
  computed : Layout.compute key.toElementType image.header.capacity image.header.bucketCapacity
    image.header.dataCapacity = .ok image.layout
  header : image.header.Fits
  size_words : image.cells.words.size = image.header.capacity
  size_arena : image.cells.arena.size = image.header.dataCapacity * 4
  chains : image.chains.Sound key image.header.capacity image.header.bucketCapacity
  size_types : image.types.size = image.header.capacity
  size_sizes : image.sizes.size = image.header.capacity
  sizes : ∀ size ∈ image.sizes, size < 2 ^ 16

theorem Image.Sound.placed (sound : image.Sound key) (wellFormed : key.toElementType.WellFormed) :
    image.layout.Placed key.toElementType image.header.capacity image.header.bucketCapacity
      image.header.dataCapacity :=
  Layout.placed_of_compute wellFormed sound.computed

theorem Layout.Placed.stop_le {layout : Layout} {type : ElementType}
    {capacity buckets dataCapacity : Nat}
    (placed : layout.Placed type capacity buckets dataCapacity) {segment : Segment}
    (member : segment ∈ layout.segments) : segment.stop ≤ layout.total :=
  (placed.spans.mem member).2

/-- Every image that a block holds is sound. -/
theorem Image.sound_of_load (wellFormed : key.toElementType.WellFormed)
    (loaded : load key.toElementType bytes = .ok image) : image.Sound key := by
  obtain ⟨header, layout, loadedHeader, computed, size, rfl⟩ := load_eq_ok.mp loaded
  obtain ⟨words, loadedWords, rfl⟩ := Header.load_eq_ok.mp loadedHeader
  have placed := Layout.placed_of_compute wellFormed computed
  have room {segment : Segment} (member : segment ∈ layout.segments) :
      segment.offset + segment.length ≤ bytes.size := Nat.le_trans (placed.stop_le member) size
  have insideKeys := @room layout.keys (by simp [Layout.segments])
  have insideNext := @room layout.next (by simp [Layout.segments])
  have insideBuckets := @room layout.buckets (by simp [Layout.segments])
  have insideSizes := @room layout.sizes (by simp [Layout.segments])
  have insideData := @room layout.data (by simp [Layout.segments])
  rw [placed.keys] at insideKeys
  rw [placed.next] at insideNext
  rw [placed.buckets] at insideBuckets
  rw [placed.sizes] at insideSizes
  refine ⟨computed, Header.fits_ofWords (HeaderWords.lt_of_load loadedWords),
    Codec.size_readArray _ _ _ _, ?_, ⟨Codec.size_readArray _ _ _ _, Codec.size_readArray _ _ _ _,
      Codec.size_readArray _ _ _ _, ?_, Codec.fits_readArray Codec.exact_link insideNext,
      Codec.fits_readArray Codec.exact_link insideBuckets⟩,
    Codec.size_readArray _ _ _ _, Codec.size_readArray _ _ _ _, ?_⟩
  · refine Eq.trans ?_ placed.data
    show (bytes.extract layout.data.offset layout.data.stop).size = _
    rw [Array.size_extract, Segment.stop]
    omega
  · intro key inKeys
    exact Codec.fits_cell_iff.mp (Codec.fits_readArray (Codec.exact_cell _) insideKeys key inKeys)
  · intro size inSizes
    exact (Codec.fits_readArray (Codec.exact_nat 2) insideSizes size inSizes).nat_lt

/-! ### Saved images -/

/-- The segments of a map with what stands in them. -/
def Image.contents (key : KeyType) (image : Image) : List (Segment × List UInt8) :=
  [(image.layout.header, image.header.words.flatMap (Bytes.littleEndian 4)),
    (image.layout.values, Codec.word32.encodeArray image.cells.words),
    (image.layout.keys, (Codec.cell key.size).encodeArray image.chains.keys),
    (image.layout.next, Link.codec.encodeArray image.chains.next),
    (image.layout.buckets, Link.codec.encodeArray image.chains.buckets),
    (image.layout.types, TypeTag.codec.encodeArray image.types),
    (image.layout.sizes, (Codec.nat 2).encodeArray image.sizes),
    (image.layout.data, image.cells.arena.toList)]

theorem Image.save_eq :
    save key.toElementType image bytes = Segment.writeAll bytes (image.contents key) := rfl

/-- Saving the image that a block holds changes no byte. -/
theorem Image.save_of_load (wellFormed : key.toElementType.WellFormed)
    (loaded : load key.toElementType bytes = .ok image) :
    save key.toElementType image bytes = bytes := by
  obtain ⟨header, layout, loadedHeader, computed, size, rfl⟩ := load_eq_ok.mp loaded
  obtain ⟨words, loadedWords, rfl⟩ := Header.load_eq_ok.mp loadedHeader
  obtain ⟨room, rfl⟩ := HeaderWords.load_eq_ok.mp loadedWords
  have placed := Layout.placed_of_compute wellFormed computed
  have stands {α : Type} {codec : Codec α} (exact : Codec.Exact codec) {segment : Segment}
      (member : segment ∈ layout.segments) {count : Nat}
      (length : segment.length = count * codec.width) :
      bytes.Stands segment.offset
        (codec.encodeArray (codec.readArray bytes segment.offset count)) := by
    refine Codec.stands_readArray exact ?_
    rw [← length]
    exact Nat.le_trans (placed.stop_le member) size
  rw [save_eq]
  refine Segment.writeAll_of_stands fun entry member => ?_
  simp only [contents, List.mem_cons, List.not_mem_nil, or_false] at member
  rcases member with rfl | rfl | rfl | rfl | rfl | rfl | rfl | rfl
  · show bytes.Stands layout.header.offset _
    rw [Image.at, Header.words_ofWords (by rw [Array.length_toList, Codec.size_readArray]; rfl)]
    have there := @stands _ _ (Codec.exact_nat 4) layout.header (by simp [Layout.segments])
      headerWords (by rw [placed.header]; rfl)
    rw [placed.header] at there ⊢
    exact there
  · exact stands Codec.exact_word32 (by simp [Image.at, Layout.segments]) placed.values
  · exact stands (Codec.exact_cell _) (by simp [Image.at, Layout.segments]) placed.keys
  · exact stands Codec.exact_link (by simp [Image.at, Layout.segments]) placed.next
  · exact stands Codec.exact_link (by simp [Image.at, Layout.segments]) placed.buckets
  · exact stands Codec.exact_typeTag (by simp [Image.at, Layout.segments]) placed.types
  · exact stands (Codec.exact_nat 2) (by simp [Image.at, Layout.segments]) placed.sizes
  · exact Segment.stands_extract

section

variable (sound : image.Sound key) (wellFormed : key.toElementType.WellFormed)

include sound

theorem Image.Sound.fits_keys : ∀ content ∈ image.chains.keys,
    Codec.Fits (Codec.cell key.size) content :=
  fun content member => Codec.fits_cell_iff.mpr (sound.chains.keys content member)

theorem Image.Sound.fits_sizes : ∀ size ∈ image.sizes, Codec.Fits (Codec.nat 2) size :=
  fun size member => Codec.fits_nat (sound.sizes size member)

include wellFormed

theorem Image.Sound.fitted_contents : Segment.Fitted (image.contents key) := by
  have placed := sound.placed wellFormed
  intro entry member
  simp only [contents, List.mem_cons, List.not_mem_nil, or_false] at member
  rcases member with rfl | rfl | rfl | rfl | rfl | rfl | rfl | rfl
  · rw [placed.header]
    exact Nat.le_of_eq (HeaderWords.length_encoded rfl)
  · exact Nat.le_of_eq ((Codec.length_encodeArray fun word _ => Codec.fits_word32 word).trans
      ((congrArg (· * 4) sound.size_words).trans placed.values.symm))
  · exact Nat.le_of_eq ((Codec.length_encodeArray sound.fits_keys).trans
      ((congrArg (· * key.size) sound.chains.size_keys).trans
        ((Codec.arraySize_mul _ _).trans placed.keys.symm)))
  · exact Nat.le_of_eq ((Codec.length_encodeArray sound.chains.next).trans
      ((congrArg (· * 4) sound.chains.size_next).trans placed.next.symm))
  · exact Nat.le_of_eq ((Codec.length_encodeArray sound.chains.buckets).trans
      ((congrArg (· * 4) sound.chains.size_buckets).trans placed.buckets.symm))
  · exact Nat.le_of_eq ((Codec.length_encodeArray fun tag _ => Codec.fits_typeTag tag).trans
      ((congrArg (· * 4) sound.size_types).trans placed.types.symm))
  · exact Nat.le_of_eq ((Codec.length_encodeArray sound.fits_sizes).trans
      ((congrArg (· * 2) sound.size_sizes).trans placed.sizes.symm))
  · exact Nat.le_of_eq (Array.length_toList.trans (sound.size_arena.trans placed.data.symm))

/-- What a sound image holds stands in the block it is saved to. -/
theorem Image.Sound.stands_save (size : image.layout.total ≤ bytes.size) {segment : Segment}
    {content : List UInt8} (member : (segment, content) ∈ image.contents key) :
    (save key.toElementType image bytes).Stands segment.offset content := by
  have placed := sound.placed wellFormed
  rw [save_eq]
  refine Segment.stands_writeAll ?_ (sound.fitted_contents wellFormed) ?_ member
  · exact placed.spans.disjoint
  · intro entry inContents
    have inSegments : entry.1 ∈ image.layout.segments := List.mem_map_of_mem inContents
    exact Nat.le_trans (placed.stop_le inSegments) size

/-- A sound image is read back from the block it was saved to. -/
theorem Image.Sound.load_save (size : image.layout.total ≤ bytes.size) :
    load key.toElementType (save key.toElementType image bytes) = .ok image := by
  have placed := sound.placed wellFormed
  have stands {segment : Segment} {content : List UInt8} :=
    @Image.Sound.stands_save key image bytes sound wellFormed size segment content
  have standsHeader : (save key.toElementType image bytes).Stands 0
      (image.header.words.flatMap (Bytes.littleEndian 4)) := by
    have there := stands List.mem_cons_self
    rwa [placed.header] at there
  have loadedHeader : Header.load (save key.toElementType image bytes) = .ok image.header :=
    Header.load_eq_ok.mpr ⟨image.header.words,
      HeaderWords.load_of_stands rfl sound.header standsHeader, rfl⟩
  have standsAt (position : Nat) {segment : Segment} {content : List UInt8}
      (there : (image.contents key)[position]? = some (segment, content)) :=
    stands (List.mem_of_getElem? there)
  have values := Codec.readArray_of_stands sound.size_words (fun word _ => Codec.fits_word32 word)
    (standsAt 1 rfl)
  have keys := Codec.readArray_of_stands sound.chains.size_keys sound.fits_keys (standsAt 2 rfl)
  have next := Codec.readArray_of_stands sound.chains.size_next sound.chains.next (standsAt 3 rfl)
  have buckets := Codec.readArray_of_stands sound.chains.size_buckets sound.chains.buckets
    (standsAt 4 rfl)
  have types := Codec.readArray_of_stands sound.size_types (fun tag _ => Codec.fits_typeTag tag)
    (standsAt 5 rfl)
  have sizes := Codec.readArray_of_stands sound.size_sizes sound.fits_sizes (standsAt 6 rfl)
  have arena := (standsAt 7 rfl).extract_eq
  rw [sound.size_arena, ← placed.data] at arena
  refine load_eq_ok.mpr ⟨image.header, image.layout, loadedHeader, sound.computed, ?_, ?_⟩
  · rw [save_eq, Segment.size_writeAll]
    exact size
  · obtain ⟨layout, header, ⟨words, arenaBytes⟩, ⟨chainKeys, chainNext, chainBuckets⟩, tags,
      counts⟩ := image
    refine (Image.mk.injEq ..).mpr ⟨rfl, rfl, ?_, ?_, types.symm, sizes.symm⟩
    · exact (ValueCells.mk.injEq ..).mpr ⟨values.symm, arena.symm⟩
    · exact (HashChains.mk.injEq ..).mpr ⟨keys.symm, next.symm, buckets.symm⟩

end

end PackedStore.UntypedMap
