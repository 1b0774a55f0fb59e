/-
This file says which list of entries the image of an untyped map stands for, and
what the changes of single entries do to it. The hash table is a key table of the
entries' keys, the value cells are a table of their values, and a tag and a size
stand beside each. A new entry comes behind all others; another value of the same
size changes the entry of its slot.
-/

import PackedStore.Proofs.Slots.ValueTables
import PackedStore.Proofs.UntypedMap.EntryLists
import PackedStore.Proofs.UntypedMap.Images
import PackedStore.UntypedMap.Basic

namespace PackedStore.UntypedMap

variable {known : ElementType → Prop} {key : KeyType} {image : Image} {entries : List Entry}
  {order : Nat → List Nat}

/-! ### What an image stands for -/

/-- The numbers of a header are those of a map with keys of the type, in capacities that growth can
reach. -/
structure Header.Regular (key : KeyType) (header : Header) : Prop where
  magic : header.magic = UntypedMap.magic
  keySize : header.keySize = key.size
  keySize_lt : key.size < 2 ^ 32
  bucketCapacity : header.bucketCapacity = 2 * header.capacity
  reached : IsCapacity header.log2MinGrowth header.capacity
  dataReached : IsArenaCapacity header.log2MinGrowth header.dataCapacity
  count_le : header.count ≤ header.capacity
  allocated_le : header.dataAllocated ≤ header.dataCapacity

theorem Header.Regular.fits {header : Header} (regular : header.Regular key) : header.Fits := by
  have magic : UntypedMap.magic < 2 ^ 32 := Codec.word32_bound rfl
  have small := regular.reached.le_max
  have step := regular.reached.le_log2
  have data := regular.dataReached.le_max
  have isMagic := regular.magic
  have isSize := regular.keySize
  have size := regular.keySize_lt
  have buckets := regular.bucketCapacity
  have count := regular.count_le
  have allocated := regular.allocated_le
  unfold maxCapacity at small data
  intro other member
  simp only [words, List.mem_cons, List.not_mem_nil, or_false] at member
  rcases member with rfl | rfl | rfl | rfl | rfl | rfl | rfl | rfl <;> omega

/-- The parts of an image besides the hash table and the values are as its header says. -/
structure Image.Framed (key : KeyType) (image : Image) : Prop where
  computed : Layout.compute key.toElementType image.header.capacity image.header.bucketCapacity
    image.header.dataCapacity = .ok image.layout
  header : image.header.Regular key
  size_arena : image.cells.arena.size = image.header.dataCapacity * 4
  size_types : image.types.size = image.header.capacity
  size_sizes : image.sizes.size = image.header.capacity
  sizes : ∀ size ∈ image.sizes, size < 2 ^ 16

/-- The tags and sizes beside the values. -/
structure Described (stored : Nat → Option Value) (types : Array TypeTag) (sizes : Array Nat) :
    Prop where
  tags : ∀ slot value, stored slot = some value → types[slot]? = some value.tag
  sizes : ∀ slot value, stored slot = some value → sizes[slot]? = some value.bytes.size

/-- The image of a map stands for a list of entries, with the slots linked in the given order. -/
structure Represents (known : ElementType → Prop) (key : KeyType) (image : Image)
    (entries : List Entry) (order : Nat → List Nat) : Prop where
  framed : image.Framed key
  distinct : Entries.Distinct entries
  count : image.header.count = entries.length
  chains : KeyTable key image.header.capacity (Entries.cell entries) order image.chains
  described : Described (Entries.stored entries) image.types image.sizes
  values : ValueTable known image.header.capacity image.header.dataAllocated
    (Entries.stored entries) image.cells

namespace Represents

theorem capacity_le (represents : Represents known key image entries order) :
    image.header.capacity ≤ maxCapacity :=
  represents.framed.header.reached.le_max

theorem length_le (represents : Represents known key image entries order) :
    entries.length ≤ image.header.capacity := by
  rw [← represents.count]
  exact represents.framed.header.count_le

/-- An image that stands for a list of entries is sound. -/
theorem sound (represents : Represents known key image entries order) : image.Sound key := by
  have framed := represents.framed
  refine ⟨framed.computed, framed.header.fits, represents.values.size_words, framed.size_arena, ?_,
    framed.size_types, framed.size_sizes, framed.sizes⟩
  rw [framed.header.bucketCapacity]
  exact represents.chains.sound

end Represents

/-! ### Changing parts of the image -/

theorem run_onChains {α : Type} {edit : Edit (HashChains Bytes) α} {answer : α}
    {chains : HashChains Bytes} (run : edit image.chains = .ok answer chains) :
    onChains edit image = .ok answer { image with chains } :=
  Edit.run_onPart_ok run

theorem run_onCells {α : Type} {edit : Edit ValueCells α} {answer : α} {cells : ValueCells}
    (run : edit image.cells = .ok answer cells) :
    onCells edit image = .ok answer { image with cells } :=
  Edit.run_onPart_ok run

theorem run_putType {slot : Nat} (below : slot < image.types.size) (tag : TypeTag) :
    putType slot tag image = .ok () { image with types := image.types.setIfInBounds slot tag } := by
  simp only [putType, Edit.run_bind, Edit.run_get, require_of below, Edit.run_lift_ok, Edit.run_set]

theorem run_putSize {slot : Nat} (below : slot < image.sizes.size) (size : Nat) :
    putSize slot size image = .ok () { image with sizes := image.sizes.setIfInBounds slot size } := by
  simp only [putSize, Edit.run_bind, Edit.run_get, require_of below, Edit.run_lift_ok, Edit.run_set]

/-- A value is described by its own tag and size. -/
theorem Described.update {stored : Nat → Option Value} {types : Array TypeTag} {sizes : Array Nat}
    (described : Described stored types sizes) {slot : Nat} {value : Value}
    (inTypes : slot < types.size) (inSizes : slot < sizes.size) :
    Described (Function.update stored slot (some value)) (types.setIfInBounds slot value.tag)
      (sizes.setIfInBounds slot value.bytes.size) := by
  refine ⟨?_, ?_⟩ <;> intro other found there <;> by_cases same : other = slot
  · rw [same, Function.update_self] at there
    rw [same, ← Option.some.inj there]
    exact Array.getElem?_setIfInBounds_self_of_lt inTypes
  · rw [Function.update_of_ne same] at there
    exact (Array.getElem?_setIfInBounds_ne fun equal => same equal.symm).trans
      (described.tags other found there)
  · rw [same, Function.update_self] at there
    rw [same, ← Option.some.inj there]
    exact Array.getElem?_setIfInBounds_self_of_lt inSizes
  · rw [Function.update_of_ne same] at there
    exact (Array.getElem?_setIfInBounds_ne fun equal => same equal.symm).trans
      (described.sizes other found there)

/-! ### A new entry -/

/-- How the value of a new entry is written. -/
def writeNew (slot : Nat) (content : Bytes) : Option Nat → Edit ValueCells Unit
  | some offset => ValueCells.writeLarge slot offset content
  | none => ValueCells.writeInline slot content

theorem run_place {slot : Nat} (count : image.header.count = slot) {entryKey : Bytes}
    {chains : HashChains Bytes}
    (runInsert : HashChains.insert key.hash slot entryKey image.chains = .ok () chains)
    (inTypes : slot < image.types.size) (inSizes : slot < image.sizes.size)
    (word : slot + 1 < 2 ^ 32) {payload : Payload} {offset : Option Nat} {cells : ValueCells}
    (run : writeNew slot payload.bytes offset image.cells = .ok () cells) :
    place key entryKey payload offset image = .ok slot { image with
      header := { image.header with count := slot + 1 }
      cells, chains
      types := image.types.setIfInBounds slot payload.tag
      sizes := image.sizes.setIfInBounds slot payload.bytes.size } := by
  let linked : Image := { image with chains }
  let tagged : Image := { linked with types := image.types.setIfInBounds slot payload.tag }
  let sized : Image := { tagged with sizes := image.sizes.setIfInBounds slot payload.bytes.size }
  have stepType := @run_putType linked slot inTypes payload.tag
  have stepSize := @run_putSize tagged slot inSizes payload.bytes.size
  have stepCells := @run_onCells sized _ _ _ _ run
  have begun : place key entryKey payload offset image = ((do
      putType slot payload.tag
      putSize slot payload.bytes.size
      onCells (writeNew slot payload.bytes offset)
      let count ← successor slot
      putHeader fun header => { header with count }
      return slot : Edit Image Nat) linked) := by
    cases offset <;>
      simp only [place, Edit.run_bind, Edit.run_get, count, run_onChains runInsert] <;>
      rfl
  rw [begun, Edit.run_bind, stepType]
  show ((putSize slot payload.bytes.size >>= _ : Edit Image Nat) tagged) = _
  rw [Edit.run_bind, stepSize]
  show ((onCells (writeNew slot payload.bytes offset) >>= _ : Edit Image Nat) sized) = _
  rw [Edit.run_bind, stepCells, successor_of word]
  rfl

namespace Represents

/-- A new entry is linked and described in the slot behind all others, and its value is stored
there. -/
theorem place_spec (represents : Represents known key image entries order)
    (room : entries.length < image.header.capacity) {entryKey : Bytes}
    (fits : key.Fits entryKey) (absent : ∀ slot, Entries.cell entries slot ≠ some entryKey)
    {payload : Payload} (size : payload.bytes.size < 2 ^ 16) {offset : Option Nat}
    {cells : ValueCells}
    (run : writeNew entries.length payload.bytes offset image.cells = .ok () cells)
    (size_arena : cells.arena.size = image.cells.arena.size)
    (values : ValueTable known image.header.capacity image.header.dataAllocated
      (Function.update (Entries.stored entries) entries.length
        (some payload.value)) cells) :
    ∃ changed, place key entryKey payload offset image = .ok entries.length changed ∧
      changed.layout = image.layout ∧
      changed.header = { image.header with count := entries.length + 1 } ∧
      changed.cells = cells ∧ Represents known key changed (entries ++ [⟨entryKey, payload.value⟩])
        (HashChains.enter order (key.home image.header.capacity entryKey) entries.length) := by
  have framed := represents.framed
  have inTypes : entries.length < image.types.size := framed.size_types ▸ room
  have inSizes : entries.length < image.sizes.size := framed.size_sizes ▸ room
  have vacant : Entries.cell entries entries.length = none := by
    rw [Entries.cell, List.getElem?_eq_none (Nat.le_refl _), Option.map_none]
  have word : entries.length + 1 < 2 ^ 32 := by
    have small := framed.header.reached.lt_word
    omega
  obtain ⟨chains, runInsert, linked, -⟩ := represents.chains.insert_spec room vacant fits
  refine ⟨{ image with
    header := { image.header with count := entries.length + 1 }
    cells, chains
    types := image.types.setIfInBounds entries.length payload.tag
    sizes := image.sizes.setIfInBounds entries.length payload.bytes.size }, ?_, rfl, rfl, rfl,
    ⟨⟨framed.computed, ?_, size_arena.trans framed.size_arena,
      Array.size_setIfInBounds.trans framed.size_types,
      Array.size_setIfInBounds.trans framed.size_sizes, ?_⟩, represents.distinct.concat absent, ?_,
      ?_, ?_, ?_⟩⟩
  · exact run_place represents.count runInsert inTypes inSizes word run
  · have regular := framed.header
    exact ⟨regular.magic, regular.keySize, regular.keySize_lt, regular.bucketCapacity,
      regular.reached, regular.dataReached, room, regular.allocated_le⟩
  · intro other member
    rcases Array.mem_or_eq_of_mem_setIfInBounds member with old | rfl
    · exact framed.sizes other old
    · exact size
  · rw [List.length_append]
    rfl
  · rw [Entries.cell_concat]
    exact linked
  · rw [Entries.stored_concat]
    exact represents.described.update inTypes inSizes
  · rw [Entries.stored_concat]
    exact values

/-! ### Another value -/

/-- Another value of the same size changes the entry of its slot. -/
theorem setValue (represents : Represents known key image entries order) {slot : Nat} {old : Value}
    (there : Entries.stored entries slot = some old) {value : Value}
    (size : value.bytes.size = old.bytes.size) {cells : ValueCells}
    (size_arena : cells.arena.size = image.cells.arena.size)
    (values : ValueTable known image.header.capacity image.header.dataAllocated
      (Function.update (Entries.stored entries) slot (some value)) cells) :
    Represents known key
      { image with cells, types := image.types.setIfInBounds slot value.tag }
      (Entries.put entries slot value) order := by
  have framed := represents.framed
  have inside := Entries.stored_lt there
  have isSize := represents.described.sizes slot old there
  have inTypes := (Array.getElem?_eq_some_iff.mp (represents.described.tags slot old there)).1
  have inSizes := (Array.getElem?_eq_some_iff.mp isSize).1
  refine ⟨⟨framed.computed, framed.header, size_arena.trans framed.size_arena,
    Array.size_setIfInBounds.trans framed.size_types, framed.size_sizes, framed.sizes⟩,
    represents.distinct.put slot value, ?_, ?_, ?_, ?_⟩
  · rw [Entries.length_put]
    exact represents.count
  · rw [Entries.cell_put]
    exact represents.chains
  · have described := @Described.update _ _ _ represents.described slot value inTypes inSizes
    rw [size, setIfInBounds_of_there isSize] at described
    rw [Entries.stored_put inside]
    exact described
  · rw [Entries.stored_put inside]
    exact values

end Represents

end PackedStore.UntypedMap
