/-
This file says what the changes of a whole map do to the entries that an image
stands for. Clearing removes all of them, whatever was there. A larger block with
the old records in front, and one with more arena or with more of it allocated,
hold the same entries.
-/

import PackedStore.Proofs.UntypedMap.Representation

namespace PackedStore.UntypedMap

variable {known : ElementType → Prop} {key : KeyType} {image : Image} {entries : List Entry}
  {order : Nat → List Nat}

/-- A sound image with a regular header is framed. -/
theorem Image.Sound.framed (sound : image.Sound key) (regular : image.header.Regular key) :
    image.Framed key :=
  ⟨sound.computed, regular, sound.size_arena, sound.size_types, sound.size_sizes, sound.sizes⟩

/-! ### Emptying -/

/-- A header without entries. -/
def Header.emptied (header : Header) : Header :=
  { header with count := 0, dataAllocated := 0 }

theorem Header.Regular.emptied {header : Header} (regular : header.Regular key) :
    header.emptied.Regular key :=
  ⟨regular.magic, regular.keySize, regular.keySize_lt, regular.bucketCapacity, regular.reached,
    regular.dataReached, Nat.zero_le _, Nat.zero_le _⟩

/-- A map whose header counts no entries is empty when its links are cleared. -/
theorem clearLinks_spec (sound : image.Sound key) (regular : image.header.Regular key)
    (empty : image.header.emptied = image.header) :
    ∃ changed, onChains HashChains.clear image = .ok () changed ∧
      changed.layout = image.layout ∧ changed.header = image.header ∧
      Represents known key changed [] fun _ => [] := by
  have framed := sound.framed regular
  have soundChains := sound.chains
  rw [regular.bucketCapacity] at soundChains
  obtain ⟨chains, run, table⟩ :=
    KeyTable.clear_spec soundChains regular.reached.pos regular.reached.named
  have count := congrArg Header.count empty
  have allocated := congrArg Header.dataAllocated empty
  have cells := @ValueTable.empty known _ _ sound.size_words
  refine ⟨{ image with chains }, run_onChains run, rfl, rfl,
    ⟨⟨framed.computed, framed.header, framed.size_arena, framed.size_types, framed.size_sizes,
      framed.sizes⟩, List.nodup_nil, count.symm, table, ⟨?_, ?_⟩, ?_⟩⟩
  · exact fun slot value absurdity => absurd absurdity (by simp [Entries.stored])
  · exact fun slot value absurdity => absurd absurdity (by simp [Entries.stored])
  · show ValueTable known _ image.header.dataAllocated _ _
    rw [← allocated]
    exact cells

/-- Clearing removes all entries. -/
theorem clear_spec (sound : image.Sound key) (regular : image.header.Regular key) :
    ∃ changed,
      (do
        putHeader fun header => { header with count := 0, dataAllocated := 0 }
        onChains HashChains.clear : Edit Image Unit) image = .ok () changed ∧
      changed.layout = image.layout ∧ changed.header = image.header.emptied ∧
      Represents known key changed [] fun _ => [] := by
  let begun : Image := { image with header := image.header.emptied }
  have fits := regular.emptied.fits
  have soundBegun : begun.Sound key :=
    ⟨sound.computed, fits, sound.size_words, sound.size_arena, sound.chains, sound.size_types,
      sound.size_sizes, sound.sizes⟩
  obtain ⟨changed, run, layout, header, represents⟩ :=
    @clearLinks_spec known key begun soundBegun regular.emptied rfl
  refine ⟨changed, ?_, layout, header, represents⟩
  simp only [putHeader, Edit.run_bind, Edit.run_modify]
  exact run

/-! ### More slots -/

/-- A header with other numbers of slots and buckets. -/
def Header.resized (header : Header) (capacity : Nat) : Header :=
  { header with capacity, bucketCapacity := 2 * capacity }

theorem Header.Regular.resized {header : Header} (regular : header.Regular key) {capacity : Nat}
    (reached : IsCapacity header.log2MinGrowth capacity) (grows : header.capacity ≤ capacity) :
    (header.resized capacity).Regular key :=
  ⟨regular.magic, regular.keySize, regular.keySize_lt, rfl, reached, regular.dataReached,
    Nat.le_trans regular.count_le grows, regular.allocated_le⟩

/-- An image with at least as many slots that starts with the same records and has the same
arena. -/
structure Image.Extends (image grown : Image) : Prop where
  words : ∀ slot, slot < image.header.capacity →
    grown.cells.words[slot]? = image.cells.words[slot]?
  keys : ∀ slot, slot < image.header.capacity →
    grown.chains.keys[slot]? = image.chains.keys[slot]?
  next : ∀ slot, slot < image.header.capacity →
    grown.chains.next[slot]? = image.chains.next[slot]?
  types : ∀ slot, slot < image.header.capacity → grown.types[slot]? = image.types[slot]?
  sizes : ∀ slot, slot < image.header.capacity → grown.sizes[slot]? = image.sizes[slot]?
  arena : ∀ position, position < image.header.dataCapacity * 4 →
    grown.cells.arena[position]? = image.cells.arena[position]?

/-- A larger map holds the same entries when its links have been built anew. -/
theorem Represents.regrow (represents : Represents known key image entries order) {grown : Image}
    {capacity : Nat} (sound : grown.Sound key) (extension : image.Extends grown)
    (header : grown.header = image.header.resized capacity)
    (regular : grown.header.Regular key) (grows : image.header.capacity ≤ capacity) :
    ∃ changed relinked,
      onChains (do
        HashChains.endLinksFrom image.header.capacity
        HashChains.rehash key.hash image.chains.buckets) grown = .ok () changed ∧
      changed.layout = grown.layout ∧ changed.header = grown.header ∧
      changed.cells = grown.cells ∧ Represents known key changed entries relinked := by
  have framed := sound.framed regular
  have size : grown.header.capacity = capacity := congrArg Header.capacity header
  have allocated : grown.header.dataAllocated = image.header.dataAllocated := by
    rw [header]
    rfl
  have data : grown.header.dataCapacity = image.header.dataCapacity := by
    rw [header]
    rfl
  have soundChains := sound.chains
  rw [regular.bucketCapacity, size] at soundChains
  obtain ⟨chains, run, table, -⟩ :=
    represents.chains.grow_spec soundChains grows (size ▸ regular.reached.named) extension.keys
      extension.next
  rw [← size] at table
  have below {slot : Nat} {value : Value} (there : Entries.stored entries slot = some value) :
      slot < image.header.capacity := represents.values.lt_capacity slot value there
  refine ⟨{ grown with chains }, _, run_onChains run, rfl, rfl, rfl,
    ⟨⟨framed.computed, framed.header, framed.size_arena, framed.size_types, framed.size_sizes,
      framed.sizes⟩, represents.distinct, ?_, table, ⟨?_, ?_⟩, ?_⟩⟩
  · exact (congrArg Header.count header).trans represents.count
  · intro slot value there
    exact (extension.types slot (below there)).trans (represents.described.tags slot value there)
  · intro slot value there
    exact (extension.sizes slot (below there)).trans (represents.described.sizes slot value there)
  · have used := represents.framed.header.allocated_le
    rw [size, allocated]
    refine represents.values.extend (sound.size_words.trans size) grows extension.words ?_ ?_
    · rw [sound.size_arena, data]
      exact Nat.mul_le_mul_right _ used
    · intro position inside
      exact extension.arena position (Nat.lt_of_lt_of_le inside (Nat.mul_le_mul_right _ used))

/-! ### More arena -/

/-- A header with other numbers of arena words. -/
def Header.withData (header : Header) (dataCapacity dataAllocated : Nat) : Header :=
  { header with dataCapacity, dataAllocated }

theorem Header.Regular.withData {header : Header} (regular : header.Regular key)
    {dataCapacity dataAllocated : Nat}
    (reached : IsArenaCapacity header.log2MinGrowth dataCapacity)
    (allocated : dataAllocated ≤ dataCapacity) :
    (header.withData dataCapacity dataAllocated).Regular key :=
  ⟨regular.magic, regular.keySize, regular.keySize_lt, regular.bucketCapacity, regular.reached,
    reached, regular.count_le, allocated⟩

/-- An image with the same records whose arena starts with the same bytes. -/
structure Image.Widens (image wide : Image) : Prop where
  words : wide.cells.words = image.cells.words
  chains : wide.chains = image.chains
  types : wide.types = image.types
  sizes : wide.sizes = image.sizes
  arena : ∀ position, position < image.header.dataCapacity * 4 →
    wide.cells.arena[position]? = image.cells.arena[position]?

/-- The values stand in the old words of a wider arena. -/
theorem Represents.values_of_widens (represents : Represents known key image entries order)
    {wide : Image} {dataCapacity dataAllocated : Nat} (sound : wide.Sound key)
    (widens : image.Widens wide)
    (header : wide.header = image.header.withData dataCapacity dataAllocated)
    (more : image.header.dataCapacity ≤ dataCapacity) :
    ValueTable known image.header.capacity image.header.dataAllocated (Entries.stored entries)
      wide.cells := by
  have used := represents.framed.header.allocated_le
  refine represents.values.extend ?_ (Nat.le_refl _) ?_ ?_ ?_
  · rw [widens.words]
    exact represents.values.size_words
  · intro slot _
    rw [widens.words]
  · rw [sound.size_arena, header]
    exact Nat.mul_le_mul_right _ (Nat.le_trans used more)
  · intro position inside
    exact widens.arena position (Nat.lt_of_lt_of_le inside (Nat.mul_le_mul_right _ used))

/-- A map with more arena, or with more of it allocated, holds the same entries. -/
theorem Represents.widen (represents : Represents known key image entries order) {wide : Image}
    {dataCapacity dataAllocated : Nat} (sound : wide.Sound key) (widens : image.Widens wide)
    (header : wide.header = image.header.withData dataCapacity dataAllocated)
    (regular : wide.header.Regular key) (more : image.header.dataCapacity ≤ dataCapacity)
    (raised : image.header.dataAllocated ≤ dataAllocated) :
    Represents known key wide entries order := by
  have values := represents.values_of_widens sound widens header more
  have room : dataAllocated * wordSize ≤ wide.cells.arena.size := by
    have allocated := regular.allocated_le
    rw [header] at allocated
    rw [sound.size_arena, header]
    exact Nat.mul_le_mul_right _ allocated
  have described := represents.described
  refine ⟨sound.framed regular, represents.distinct, ?_, ?_, ⟨?_, ?_⟩, ?_⟩
  · rw [header]
    exact represents.count
  · rw [header, widens.chains]
    exact represents.chains
  · rw [widens.types]
    exact described.tags
  · rw [widens.sizes]
    exact described.sizes
  · rw [header]
    exact values.raise raised room

end PackedStore.UntypedMap
