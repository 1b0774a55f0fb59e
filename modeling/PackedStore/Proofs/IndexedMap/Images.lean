/-
This file says that the image of an indexed map is read back as it was saved. An
image is sound when its layout is the one for its header, its arrays have the
sizes the header says, and all records fit the bytes they take. Every image read
from a block is sound, and a sound image that is saved is the image of the block.
-/

import PackedStore.IndexedMap.Image
import PackedStore.Proofs.IndexedMap.Layouts
import PackedStore.Proofs.Slots.KeyTables

namespace PackedStore

namespace IndexedMap

/-! ### Headers -/

/-- The words of a header fit into four bytes each. -/
structure Header.Fits (header : Header) : Prop where
  words : ∀ word ∈ header.words, word < 2 ^ 32
  firstFree : Codec.Fits Link.codec header.firstFree

theorem Header.ofWords_words {header : Header} (fits : header.Fits) :
    ofWords header.words = header := by
  have link := Codec.fits_link_iff.mp fits.firstFree
  simp [ofWords, words, link]

theorem Header.fits_ofWords {words : HeaderWords} (bound : ∀ word ∈ words, word < 2 ^ 32) :
    (ofWords words).Fits := by
  have each (position : Nat) : words.getD position 0 < 2 ^ 32 := by
    rw [List.getD_eq_getElem?_getD]
    cases there : words[position]? with
    | none => decide
    | some word => exact bound word (List.mem_of_getElem? there)
  have link := Codec.fits_ofWord (each 5)
  refine ⟨?_, link⟩
  intro word member
  simp only [Header.words, ofWords, List.mem_cons, List.not_mem_nil, or_false] at member
  rcases member with rfl | rfl | rfl | rfl | rfl | rfl | rfl | rfl
  case inr.inr.inr.inr.inr.inl => exact Link.toWord_lt _
  all_goals exact each _

theorem Header.load_eq_ok {bytes : Bytes} {header : Header} :
    load bytes = .ok header ↔ ∃ words, HeaderWords.load bytes = .ok words ∧ ofWords words = header := by
  simp [load, Checked.bind_eq_ok, pure, Except.pure]

/-! ### Images of blocks -/

variable {shape : Shape} {image : Image} {bytes : Bytes}

/-- The hash tables of an image, the key's in front. -/
def Image.dimensions (image : Image) : List (HashChains Bytes) :=
  image.key :: image.indices

theorem Image.eq_of_parts {other : Image} (layout : image.layout = other.layout)
    (header : image.header = other.header) (values : image.values = other.values)
    (dimensions : image.dimensions = other.dimensions) : image = other := by
  obtain ⟨key, indices⟩ := List.cons.inj dimensions
  obtain ⟨_, _, _, _, _⟩ := image
  subst layout header values key indices
  rfl

/-- The image that stands in a block at the places of a layout. -/
def Image.at (shape : Shape) (layout : Layout) (header : Header) (bytes : Bytes) : Image where
  layout := layout
  header := header
  values := (Codec.cell shape.value.size).readArray bytes layout.values.offset header.capacity
  key := layout.key.load shape.key header bytes
  indices := (shape.indices.zip layout.indices).map fun pair => pair.2.load pair.1 header bytes

theorem Image.load_eq_ok :
    load shape bytes = .ok image ↔
      ∃ header layout, Header.load bytes = .ok header ∧
        Layout.compute shape header.capacity header.bucketCapacity = .ok layout ∧
        layout.total ≤ bytes.size ∧ image = Image.at shape layout header bytes := by
  simp only [load, Layout.ofHeader, Checked.bind_eq_ok, recorded_eq_ok, require_eq_ok, pure,
    Except.pure, Except.ok.injEq]
  constructor
  · rintro ⟨header, loaded, layout, computed, -, size, rfl⟩
    exact ⟨header, layout, loaded, computed, size, rfl⟩
  · rintro ⟨header, layout, loaded, computed, size, rfl⟩
    exact ⟨header, loaded, layout, computed, (), size, rfl⟩

theorem Image.dimensions_at (layout : Layout) (header : Header) :
    (Image.at shape layout header bytes).dimensions =
      (shape.kinds.zip layout.dimensions).map fun pair => pair.2.load pair.1 header bytes := rfl

theorem Image.getElem?_dimensions_at {layout : Layout} {header : Header} {position : Nat}
    {chains : HashChains Bytes} :
    (Image.at shape layout header bytes).dimensions[position]? = some chains ↔
      ∃ kind dimension, shape.kinds[position]? = some kind ∧
        layout.dimensions[position]? = some dimension ∧
        chains = dimension.load kind header bytes := by
  rw [dimensions_at, List.getElem?_map, Option.map_eq_some_iff]
  constructor
  · rintro ⟨⟨kind, dimension⟩, there, rfl⟩
    obtain ⟨thereKind, thereDimension⟩ := List.getElem?_zip_eq_some.mp there
    exact ⟨kind, dimension, thereKind, thereDimension, rfl⟩
  · rintro ⟨kind, dimension, thereKind, thereDimension, rfl⟩
    exact ⟨(kind, dimension), List.getElem?_zip_eq_some.mpr ⟨thereKind, thereDimension⟩, rfl⟩

/-- The layout of an image is the one for its header, its arrays have the sizes the header says,
and its records fit their bytes. -/
structure Image.Sound (shape : Shape) (image : Image) : Prop where
  computed : Layout.compute shape image.header.capacity image.header.bucketCapacity =
    .ok image.layout
  header : image.header.Fits
  size_values : image.values.size = Codec.arraySize shape.value.size image.header.capacity
  values : ∀ value ∈ image.values, value.size = shape.value.size
  length_dimensions : image.dimensions.length = shape.kinds.length
  dimensions : ∀ (position : Nat) (kind : KeyType) (chains : HashChains Bytes),
    shape.kinds[position]? = some kind → image.dimensions[position]? = some chains →
    chains.Sound kind image.header.capacity image.header.bucketCapacity

theorem Image.Sound.placed (sound : image.Sound shape) (wellFormed : shape.WellFormed) :
    image.layout.Placed shape image.header.capacity image.header.bucketCapacity :=
  Layout.placed_of_compute wellFormed sound.computed

/-- The segments of a placed dimension lie inside the layout. -/
theorem Layout.Placed.stop_le {layout : Layout} {capacity buckets : Nat}
    (placed : layout.Placed shape capacity buckets) {segment : Segment}
    (member : segment ∈ layout.segments) : segment.stop ≤ layout.total :=
  (placed.spans.mem member).2

theorem Layout.mem_segments {layout : Layout} {position : Nat} {dimension : DimensionLayout}
    (there : layout.dimensions[position]? = some dimension) {segment : Segment}
    (member : segment ∈ dimension.segments) : segment ∈ layout.segments :=
  List.mem_cons_of_mem _ (List.mem_cons_of_mem _
    (List.mem_flatMap.mpr ⟨dimension, List.mem_of_getElem? there, member⟩))

/-- Every image that a block holds is sound. -/
theorem Image.sound_of_load (wellFormed : shape.WellFormed) (loaded : load shape bytes = .ok image) :
    image.Sound shape := by
  obtain ⟨header, layout, loadedHeader, computed, size, rfl⟩ := load_eq_ok.mp loaded
  obtain ⟨words, loadedWords, rfl⟩ := Header.load_eq_ok.mp loadedHeader
  have placed := Layout.placed_of_compute wellFormed computed
  have room {segment : Segment} (member : segment ∈ layout.segments) :
      segment.offset + segment.length ≤ bytes.size := Nat.le_trans (placed.stop_le member) size
  refine ⟨computed, Header.fits_ofWords (HeaderWords.lt_of_load loadedWords),
    Codec.size_readArray _ _ _ _, ?_, ?_, ?_⟩
  · intro value member
    have inside := room (List.mem_cons_of_mem _ List.mem_cons_self)
    rw [placed.values] at inside
    exact Codec.fits_cell_iff.mp (Codec.fits_readArray (Codec.exact_cell _) inside value member)
  · rw [dimensions_at, List.length_map, List.length_zip, placed.length_dimensions, Nat.min_self]
  · intro position kind chains thereKind thereChains
    obtain ⟨kind', dimension, thereKind', thereDimension, rfl⟩ :=
      getElem?_dimensions_at.mp thereChains
    obtain rfl : kind = kind' := Option.some.inj (thereKind.symm.trans thereKind')
    have sized := placed.sized position kind dimension thereKind thereDimension
    have member {segment : Segment} (here : segment ∈ dimension.segments) :=
      room (Layout.mem_segments thereDimension here)
    have insideKeys := member List.mem_cons_self
    have insideNext := member (List.mem_cons_of_mem _ List.mem_cons_self)
    have insideBuckets :=
      member (List.mem_cons_of_mem _ (List.mem_cons_of_mem _ List.mem_cons_self))
    rw [sized.keys] at insideKeys
    rw [sized.next] at insideNext
    rw [sized.buckets] at insideBuckets
    refine ⟨Codec.size_readArray _ _ _ _, Codec.size_readArray _ _ _ _,
      Codec.size_readArray _ _ _ _, ?_, ?_, ?_⟩
    · intro key inKeys
      exact Codec.fits_cell_iff.mp (Codec.fits_readArray (Codec.exact_cell _) insideKeys key inKeys)
    · exact Codec.fits_readArray Codec.exact_link insideNext
    · exact Codec.fits_readArray Codec.exact_link insideBuckets

/-! ### Saved images -/

/-- The segments of a map with what stands in them. -/
def Image.contents (shape : Shape) (image : Image) : List (Segment × List UInt8) :=
  (image.layout.header, image.header.words.flatMap (Bytes.littleEndian 4)) ::
    (image.layout.values, (Codec.cell shape.value.size).encodeArray image.values) ::
    (shape.kinds.zip (image.layout.dimensions.zip image.dimensions)).flatMap fun part =>
      part.2.1.contents part.1 part.2.2

theorem Image.save_eq : save shape image bytes = Segment.writeAll bytes (image.contents shape) :=
  rfl

theorem Image.mem_dimension_contents {position : Nat} {kind : KeyType}
    {dimension : DimensionLayout} {chains : HashChains Bytes}
    (thereKind : shape.kinds[position]? = some kind)
    (thereDimension : image.layout.dimensions[position]? = some dimension)
    (thereChains : image.dimensions[position]? = some chains) {entry : Segment × List UInt8}
    (member : entry ∈ dimension.contents kind chains) : entry ∈ image.contents shape := by
  refine List.mem_cons_of_mem _ (List.mem_cons_of_mem _
    (List.mem_flatMap.mpr ⟨(kind, dimension, chains), ?_, member⟩))
  exact List.mem_of_getElem? (List.getElem?_zip_eq_some.mpr
    ⟨thereKind, List.getElem?_zip_eq_some.mpr ⟨thereDimension, thereChains⟩⟩)

/-- Every content of a map is the header, the values, or one of a dimension. -/
theorem Image.mem_contents {entry : Segment × List UInt8} (member : entry ∈ image.contents shape) :
    entry = (image.layout.header, image.header.words.flatMap (Bytes.littleEndian 4)) ∨
    entry = (image.layout.values, (Codec.cell shape.value.size).encodeArray image.values) ∨
    ∃ (position : Nat) (kind : KeyType) (dimension : DimensionLayout) (chains : HashChains Bytes),
      shape.kinds[position]? = some kind ∧ image.layout.dimensions[position]? = some dimension ∧
      image.dimensions[position]? = some chains ∧ entry ∈ dimension.contents kind chains := by
  rcases List.mem_cons.mp member with header | member
  · exact Or.inl header
  rcases List.mem_cons.mp member with values | member
  · exact Or.inr (Or.inl values)
  obtain ⟨⟨kind, dimension, chains⟩, inZip, inContents⟩ := List.mem_flatMap.mp member
  obtain ⟨position, there⟩ := List.getElem?_of_mem inZip
  obtain ⟨thereKind, therePair⟩ := List.getElem?_zip_eq_some.mp there
  obtain ⟨thereDimension, thereChains⟩ := List.getElem?_zip_eq_some.mp therePair
  exact Or.inr (Or.inr ⟨position, kind, dimension, chains, thereKind, thereDimension, thereChains,
    inContents⟩)

section

variable (sound : image.Sound shape) (wellFormed : shape.WellFormed)

include sound wellFormed

theorem Image.Sound.segments_contents :
    (image.contents shape).map Prod.fst = image.layout.segments := by
  have lengthLayouts := (sound.placed wellFormed).length_dimensions
  have lengths := sound.length_dimensions
  have zipped : (shape.kinds.zip (image.layout.dimensions.zip image.dimensions)).map
      (fun part => part.2.1) = image.layout.dimensions := by
    have outer : (shape.kinds.zip (image.layout.dimensions.zip image.dimensions)).map Prod.snd =
        image.layout.dimensions.zip image.dimensions :=
      List.map_snd_zip (by simp [lengthLayouts, lengths])
    have inner : (image.layout.dimensions.zip image.dimensions).map Prod.fst =
        image.layout.dimensions := List.map_fst_zip (by omega)
    calc
      _ = ((shape.kinds.zip (image.layout.dimensions.zip image.dimensions)).map Prod.snd).map
          Prod.fst := by rw [List.map_map]; rfl
      _ = image.layout.dimensions := by rw [outer, inner]
  unfold contents Layout.segments
  rw [List.map_cons, List.map_cons, List.map_flatMap]
  congr 2
  calc
    _ = ((shape.kinds.zip (image.layout.dimensions.zip image.dimensions)).map
        fun part => part.2.1).flatMap DimensionLayout.segments := by rw [List.flatMap_map]; rfl
    _ = _ := by rw [zipped]

theorem Image.Sound.fitted_contents : Segment.Fitted (image.contents shape) := by
  have placed := sound.placed wellFormed
  intro entry member
  rcases mem_contents member with rfl | rfl |
    ⟨position, kind, dimension, chains, thereKind, thereDimension, thereChains, inContents⟩
  · rw [placed.header]
    exact Nat.le_of_eq (HeaderWords.length_encoded rfl)
  · have fits : ∀ value ∈ image.values, Codec.Fits (Codec.cell shape.value.size) value :=
      fun value member => Codec.fits_cell_iff.mpr (sound.values value member)
    exact Nat.le_of_eq ((Codec.length_encodeArray fits).trans
      ((congrArg (· * shape.value.size) sound.size_values).trans
        ((Codec.arraySize_mul _ _).trans placed.values.symm)))
  · have sized := placed.sized position kind dimension thereKind thereDimension
    have soundChains := sound.dimensions position kind chains thereKind thereChains
    have fits : ∀ key ∈ chains.keys, Codec.Fits (Codec.cell kind.size) key :=
      fun key member => Codec.fits_cell_iff.mpr (soundChains.keys key member)
    simp only [DimensionLayout.contents, List.mem_cons, List.not_mem_nil, or_false] at inContents
    rcases inContents with rfl | rfl | rfl
    · exact Nat.le_of_eq ((Codec.length_encodeArray fits).trans
        ((congrArg (· * kind.size) soundChains.size_keys).trans
          ((Codec.arraySize_mul _ _).trans sized.keys.symm)))
    · exact Nat.le_of_eq ((Codec.length_encodeArray soundChains.next).trans
        ((congrArg (· * 4) soundChains.size_next).trans sized.next.symm))
    · exact Nat.le_of_eq ((Codec.length_encodeArray soundChains.buckets).trans
        ((congrArg (· * 4) soundChains.size_buckets).trans sized.buckets.symm))

/-- What a sound image holds stands in the block it is saved to. -/
theorem Image.Sound.stands_save (size : image.layout.total ≤ bytes.size) {segment : Segment}
    {content : List UInt8} (member : (segment, content) ∈ image.contents shape) :
    (save shape image bytes).Stands segment.offset content := by
  have placed := sound.placed wellFormed
  have segments := sound.segments_contents wellFormed
  rw [save_eq]
  refine Segment.stands_writeAll ?_ (sound.fitted_contents wellFormed) ?_ member
  · rw [segments]
    exact placed.spans.disjoint
  · intro entry inContents
    have inSegments : entry.1 ∈ image.layout.segments := by
      rw [← segments]
      exact List.mem_map_of_mem inContents
    exact Nat.le_trans (placed.stop_le inSegments) size

/-- A sound image is read back from the block it was saved to. -/
theorem Image.Sound.load_save (size : image.layout.total ≤ bytes.size) :
    load shape (save shape image bytes) = .ok image := by
  have placed := sound.placed wellFormed
  have stands {segment : Segment} {content : List UInt8} :=
    @Image.Sound.stands_save shape image bytes sound wellFormed size segment content
  have standsHeader : (save shape image bytes).Stands 0
      (image.header.words.flatMap (Bytes.littleEndian 4)) := by
    have there := stands List.mem_cons_self
    rwa [placed.header] at there
  have loadedHeader : Header.load (save shape image bytes) = .ok image.header :=
    Header.load_eq_ok.mpr ⟨image.header.words,
      HeaderWords.load_of_stands rfl sound.header.words standsHeader,
      Header.ofWords_words sound.header⟩
  refine load_eq_ok.mpr ⟨image.header, image.layout, loadedHeader, sound.computed, ?_, ?_⟩
  · rw [save_eq, Segment.size_writeAll]
    exact size
  have values : (Image.at shape image.layout image.header (save shape image bytes)).values =
      image.values :=
    Codec.readArray_of_stands sound.size_values
      (fun value member => Codec.fits_cell_iff.mpr (sound.values value member))
      (stands (List.mem_cons_of_mem _ List.mem_cons_self))
  refine Image.eq_of_parts rfl rfl values.symm (List.ext_getElem? fun position => ?_)
  cases thereChains : image.dimensions[position]? with
  | none =>
    have beyond := List.getElem?_eq_none_iff.mp thereChains
    refine (List.getElem?_eq_none_iff.mpr ?_).symm
    rw [dimensions_at, List.length_map, List.length_zip, placed.length_dimensions, Nat.min_self,
      ← sound.length_dimensions]
    exact beyond
  | some chains =>
    have inside := (List.getElem?_eq_some_iff.mp thereChains).1
    have thereKind := List.getElem?_eq_getElem (sound.length_dimensions ▸ inside)
    have thereDimension := List.getElem?_eq_getElem
      ((placed.length_dimensions.trans sound.length_dimensions.symm) ▸ inside)
    have soundChains := sound.dimensions position _ chains thereKind thereChains
    have member {entry : Segment × List UInt8} :=
      @mem_dimension_contents shape image position _ _ chains thereKind thereDimension thereChains
        entry
    have keys := Codec.readArray_of_stands soundChains.size_keys
      (fun key inKeys => Codec.fits_cell_iff.mpr (soundChains.keys key inKeys))
      (stands (member List.mem_cons_self))
    have next := Codec.readArray_of_stands soundChains.size_next soundChains.next
      (stands (member (List.mem_cons_of_mem _ List.mem_cons_self)))
    have buckets := Codec.readArray_of_stands soundChains.size_buckets soundChains.buckets
      (stands (member (List.mem_cons_of_mem _ (List.mem_cons_of_mem _ List.mem_cons_self))))
    refine (getElem?_dimensions_at.mpr ⟨_, _, thereKind, thereDimension, ?_⟩).symm
    obtain ⟨_, _, _⟩ := chains
    exact (HashChains.mk.injEq ..).mpr ⟨keys.symm, next.symm, buckets.symm⟩

end

end IndexedMap

end PackedStore
