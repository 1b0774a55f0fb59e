/-
This file says that the image of an untyped sequence is read back as it was saved.
An image is sound when its layout is the one for its header, its arrays have the
sizes the header says, and every record fits its word. Every image read from a
block is sound, and a sound image that is saved is the image of the block.
-/

import PackedStore.Proofs.Layout.Headers
import PackedStore.Proofs.UntypedSequence.Layouts
import PackedStore.UntypedSequence.Image

namespace PackedStore.UntypedSequence

/-! ### Headers -/

/-- The words of a header fit into four bytes each. -/
def Header.Fits (header : Header) : Prop :=
  ∀ word ∈ header.words, word < 2 ^ 32

theorem Header.fits_ofWords {words : HeaderWords} (bound : ∀ word ∈ words, word < 2 ^ 32) :
    (ofWords words).Fits := by
  have each (position : Nat) : words.getD position 0 < 2 ^ 32 := by
    rw [List.getD_eq_getElem?_getD]
    cases there : words[position]? with
    | none => decide
    | some word => exact bound word (List.mem_of_getElem? there)
  intro word member
  simp only [Header.words, ofWords, List.mem_cons, List.not_mem_nil, or_false] at member
  rcases member with rfl | rfl | rfl | rfl | rfl | rfl | rfl | rfl
  all_goals exact each _

theorem Header.words_ofWords {words : HeaderWords} (length : words.length = headerWords) :
    (ofWords words).words = words := by
  match words, length with
  | [_, _, _, _, _, _, _, _], _ => rfl

theorem Header.load_eq_ok {bytes : Bytes} {header : Header} :
    load bytes = .ok header ↔ ∃ words, HeaderWords.load bytes = .ok words ∧ ofWords words = header := by
  simp [load, Checked.bind_eq_ok, pure, Except.pure]

/-! ### Images of blocks -/

variable {image : Image} {bytes : Bytes}

/-- The image that stands in a block at the places of a layout. -/
def Image.at (layout : Layout) (header : Header) (bytes : Bytes) : Image where
  layout := layout
  header := header
  offsets := (Codec.nat 4).readArray bytes layout.offsets.offset header.capacity
  sizes := (Codec.nat 4).readArray bytes layout.sizes.offset header.capacity
  types := TypeTag.codec.readArray bytes layout.types.offset header.capacity
  aligns := (Codec.nat 4).readArray bytes layout.aligns.offset header.capacity
  data := bytes.extract layout.data.offset layout.data.stop

theorem Image.load_eq_ok :
    load bytes = .ok image ↔
      ∃ header layout, Header.load bytes = .ok header ∧
        Layout.compute header.capacity header.dataCapacity = .ok layout ∧
        layout.total ≤ bytes.size ∧ image = Image.at layout header bytes := by
  simp only [load, Layout.ofHeader, Checked.bind_eq_ok, recorded_eq_ok, require_eq_ok, pure,
    Except.pure, Except.ok.injEq]
  constructor
  · rintro ⟨header, loaded, layout, computed, -, size, rfl⟩
    exact ⟨header, layout, loaded, computed, size, rfl⟩
  · rintro ⟨header, layout, loaded, computed, size, rfl⟩
    exact ⟨header, loaded, layout, computed, (), size, rfl⟩

/-- The layout of an image is the one for its header, its arrays have the sizes the header says,
and its records fit their words. -/
structure Image.Sound (image : Image) : Prop where
  computed : Layout.compute image.header.capacity image.header.dataCapacity = .ok image.layout
  header : image.header.Fits
  size_offsets : image.offsets.size = image.header.capacity
  size_sizes : image.sizes.size = image.header.capacity
  size_types : image.types.size = image.header.capacity
  size_aligns : image.aligns.size = image.header.capacity
  size_data : image.data.size = image.header.dataCapacity
  offsets : ∀ offset ∈ image.offsets, offset < 2 ^ 32
  sizes : ∀ size ∈ image.sizes, size < 2 ^ 32
  aligns : ∀ align ∈ image.aligns, align < 2 ^ 32

theorem Image.Sound.placed (sound : image.Sound) :
    image.layout.Placed image.header.capacity image.header.dataCapacity :=
  Layout.placed_of_compute sound.computed

/-- Every image that a block holds is sound. -/
theorem Image.sound_of_load (loaded : load bytes = .ok image) : image.Sound := by
  obtain ⟨header, layout, loadedHeader, computed, size, rfl⟩ := load_eq_ok.mp loaded
  obtain ⟨words, loadedWords, rfl⟩ := Header.load_eq_ok.mp loadedHeader
  have placed := Layout.placed_of_compute computed
  have words_lt {segment : Segment} (member : segment ∈ layout.segments) {count : Nat}
      (length : segment.length = count * 4) :
      ∀ word ∈ (Codec.nat 4).readArray bytes segment.offset count, word < 2 ^ 32 := by
    have inside : segment.offset + segment.length ≤ bytes.size :=
      Nat.le_trans (placed.stop_le member) size
    rw [length] at inside
    exact fun word inArray => (Codec.fits_readArray (Codec.exact_nat 4) inside word inArray).nat_lt
  refine ⟨computed, Header.fits_ofWords (HeaderWords.lt_of_load loadedWords),
    Codec.size_readArray _ _ _ _, Codec.size_readArray _ _ _ _, Codec.size_readArray _ _ _ _,
    Codec.size_readArray _ _ _ _, ?_, words_lt (by simp [Layout.segments]) placed.offsets,
    words_lt (by simp [Layout.segments]) placed.sizes,
    words_lt (by simp [Layout.segments]) placed.aligns⟩
  have inside : layout.data.offset + layout.data.length ≤ bytes.size :=
    Nat.le_trans (placed.stop_le (by simp [Layout.segments])) size
  refine Eq.trans ?_ placed.data
  show (bytes.extract layout.data.offset layout.data.stop).size = _
  rw [Array.size_extract, Segment.stop]
  omega

/-! ### Saved images -/

/-- The segments of a sequence with what stands in them. -/
def Image.contents (image : Image) : List (Segment × List UInt8) :=
  [(image.layout.header, image.header.words.flatMap (Bytes.littleEndian 4)),
    (image.layout.offsets, (Codec.nat 4).encodeArray image.offsets),
    (image.layout.sizes, (Codec.nat 4).encodeArray image.sizes),
    (image.layout.types, TypeTag.codec.encodeArray image.types),
    (image.layout.aligns, (Codec.nat 4).encodeArray image.aligns),
    (image.layout.data, image.data.toList)]

theorem Image.save_eq : save image bytes = Segment.writeAll bytes image.contents := rfl

/-- Saving the image that a block holds changes no byte. -/
theorem Image.save_of_load (loaded : load bytes = .ok image) : save image bytes = bytes := by
  obtain ⟨header, layout, loadedHeader, computed, size, rfl⟩ := load_eq_ok.mp loaded
  obtain ⟨words, loadedWords, rfl⟩ := Header.load_eq_ok.mp loadedHeader
  obtain ⟨room, rfl⟩ := HeaderWords.load_eq_ok.mp loadedWords
  have placed := Layout.placed_of_compute computed
  have stands {α : Type} {codec : Codec α} (exact : Codec.Exact codec) {segment : Segment}
      (member : segment ∈ layout.segments) {count : Nat}
      (length : segment.length = count * codec.width) :
      bytes.Stands segment.offset
        (codec.encodeArray (codec.readArray bytes segment.offset count)) := by
    refine Codec.stands_readArray exact ?_
    rw [← length]
    exact Nat.le_trans (placed.stop_le member) size
  rw [save_eq]
  refine Segment.writeAll_of_stands fun entry member => ?_
  simp only [contents, List.mem_cons, List.not_mem_nil, or_false] at member
  rcases member with rfl | rfl | rfl | rfl | rfl | rfl
  · show bytes.Stands layout.header.offset _
    rw [Image.at, Header.words_ofWords (by rw [Array.length_toList, Codec.size_readArray]; rfl)]
    have there := @stands _ _ (Codec.exact_nat 4) layout.header (by simp [Layout.segments])
      headerWords (by rw [placed.header]; rfl)
    rw [placed.header] at there ⊢
    exact there
  · exact stands (Codec.exact_nat 4) (by simp [Image.at, Layout.segments]) placed.offsets
  · exact stands (Codec.exact_nat 4) (by simp [Image.at, Layout.segments]) placed.sizes
  · exact stands Codec.exact_typeTag (by simp [Image.at, Layout.segments]) placed.types
  · exact stands (Codec.exact_nat 4) (by simp [Image.at, Layout.segments]) placed.aligns
  · exact Segment.stands_extract

/-- Words below the limit fit into four bytes each. -/
theorem fits_words {words : Array Nat} (bound : ∀ word ∈ words, word < 2 ^ 32) :
    ∀ word ∈ words, Codec.Fits (Codec.nat 4) word :=
  fun word member => Codec.fits_nat (bound word member)

namespace Image.Sound

variable (sound : image.Sound)

include sound

theorem fitted_contents : Segment.Fitted image.contents := by
  have placed := sound.placed
  intro entry member
  simp only [contents, List.mem_cons, List.not_mem_nil, or_false] at member
  rcases member with rfl | rfl | rfl | rfl | rfl | rfl
  · rw [placed.header]
    exact Nat.le_of_eq (HeaderWords.length_encoded rfl)
  · exact Nat.le_of_eq ((Codec.length_encodeArray (fits_words sound.offsets)).trans
      ((congrArg (· * 4) sound.size_offsets).trans placed.offsets.symm))
  · exact Nat.le_of_eq ((Codec.length_encodeArray (fits_words sound.sizes)).trans
      ((congrArg (· * 4) sound.size_sizes).trans placed.sizes.symm))
  · exact Nat.le_of_eq ((Codec.length_encodeArray fun tag _ => Codec.fits_typeTag tag).trans
      ((congrArg (· * 4) sound.size_types).trans placed.types.symm))
  · exact Nat.le_of_eq ((Codec.length_encodeArray (fits_words sound.aligns)).trans
      ((congrArg (· * 4) sound.size_aligns).trans placed.aligns.symm))
  · exact Nat.le_of_eq (Array.length_toList.trans (sound.size_data.trans placed.data.symm))

/-- What a sound image holds stands in the block it is saved to. -/
theorem stands_save (size : image.layout.total ≤ bytes.size) {segment : Segment}
    {content : List UInt8} (member : (segment, content) ∈ image.contents) :
    (save image bytes).Stands segment.offset content := by
  have placed := sound.placed
  rw [save_eq]
  refine Segment.stands_writeAll ?_ sound.fitted_contents ?_ member
  · exact placed.spans.disjoint
  · intro entry inContents
    have inSegments : entry.1 ∈ image.layout.segments := List.mem_map_of_mem inContents
    exact Nat.le_trans (placed.stop_le inSegments) size

/-- A sound image is read back from the block it was saved to. -/
theorem load_save (size : image.layout.total ≤ bytes.size) :
    load (save image bytes) = .ok image := by
  have placed := sound.placed
  have standsAt (position : Nat) {segment : Segment} {content : List UInt8}
      (there : image.contents[position]? = some (segment, content)) :
      (save image bytes).Stands segment.offset content :=
    sound.stands_save size (List.mem_of_getElem? there)
  have standsHeader := standsAt 0 rfl
  rw [placed.header] at standsHeader
  have loadedHeader : Header.load (save image bytes) = .ok image.header :=
    Header.load_eq_ok.mpr ⟨image.header.words,
      HeaderWords.load_of_stands rfl sound.header standsHeader, rfl⟩
  have offsets :=
    Codec.readArray_of_stands sound.size_offsets (fits_words sound.offsets) (standsAt 1 rfl)
  have sizes :=
    Codec.readArray_of_stands sound.size_sizes (fits_words sound.sizes) (standsAt 2 rfl)
  have types := Codec.readArray_of_stands sound.size_types (fun tag _ => Codec.fits_typeTag tag)
    (standsAt 3 rfl)
  have aligns :=
    Codec.readArray_of_stands sound.size_aligns (fits_words sound.aligns) (standsAt 4 rfl)
  have data := (standsAt 5 rfl).extract_eq
  rw [sound.size_data, ← placed.data] at data
  refine load_eq_ok.mpr ⟨image.header, image.layout, loadedHeader, sound.computed, ?_, ?_⟩
  · rw [save_eq, Segment.size_writeAll]
    exact size
  · exact (Image.mk.injEq ..).mpr
      ⟨rfl, rfl, offsets.symm, sizes.symm, types.symm, aligns.symm, data.symm⟩

end Image.Sound

end PackedStore.UntypedSequence
