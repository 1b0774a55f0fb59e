/-
This file says which list of values the image of an untyped sequence stands for,
and what appending a value and writing another one in its place do to it. Each
element has a descriptor and its bytes in the arena; the elements are packed, so
the place of each one is where the one before it ends, raised to its alignment.
-/

import PackedStore.Proofs.Layout.Growth
import PackedStore.Proofs.UntypedSequence.ElementLists
import PackedStore.Proofs.UntypedSequence.Images

namespace PackedStore.UntypedSequence

/-! ### Single elements -/

/-- What the arrays of an image say about an element: offset, size, tag and alignment. -/
def Image.descriptor (image : Image) (index : Nat) :
    Option Nat × Option Nat × Option TypeTag × Option Nat :=
  (image.offsets[index]?, image.sizes[index]?, image.types[index]?, image.aligns[index]?)

/-- An element with an index is described, and its bytes stand at an offset of the arena. -/
structure Stored (image : Image) (index offset : Nat) (datum : Datum) : Prop where
  descriptor : image.descriptor index =
    (some offset, some datum.bytes.size, some datum.type.tag, some (elementAlign datum.type))
  content : image.data.slice? offset datum.bytes.size = some datum.bytes

namespace Stored

variable {image changed : Image} {index other offset : Nat} {datum : Datum}

section

variable (stored : Stored image index offset datum)

include stored

theorem offset_eq : image.offsets[index]? = some offset :=
  congrArg (·.1) stored.descriptor

theorem size_eq : image.sizes[index]? = some datum.bytes.size :=
  congrArg (·.2.1) stored.descriptor

theorem tag_eq : image.types[index]? = some datum.type.tag :=
  congrArg (·.2.2.1) stored.descriptor

theorem align_eq : image.aligns[index]? = some (elementAlign datum.type) :=
  congrArg (·.2.2.2) stored.descriptor

theorem inside : offset + datum.bytes.size ≤ image.data.size :=
  (Bytes.slice?_eq_some.mp stored.content).1

/-- An image that describes an element in the same way and has the same bytes there stores it. -/
theorem congr (described : changed.descriptor other = image.descriptor index)
    (room : image.data.size ≤ changed.data.size)
    (same : ∀ position, offset ≤ position → position < offset + datum.bytes.size →
      changed.data[position]? = image.data[position]?) : Stored changed other offset datum :=
  ⟨described.trans stored.descriptor,
    Bytes.slice?_of_same stored.content (Nat.le_trans stored.inside room) same⟩

end

end Stored

/-! ### Packed elements -/

/-- Elements are stored from an index on, one behind another from a position of the arena on. -/
def Packs (image : Image) : Nat → Nat → List Datum → Prop
  | _, _, [] => True
  | index, cursor, datum :: rest =>
    Stored image index (startFrom cursor datum) datum ∧
      Packs image (index + 1) (stopFrom cursor datum) rest

namespace Packs

variable {image changed : Image} {index other cursor : Nat} {datum : Datum}
  {elements front back : List Datum}

theorem append_iff :
    Packs image index cursor (front ++ back) ↔
      Packs image index cursor front ∧
        Packs image (index + front.length) (packedFrom cursor front) back := by
  induction front generalizing index cursor with
  | nil => exact Iff.symm (true_and _).to_iff
  | cons datum rest inductionHypothesis =>
    rw [List.cons_append, Packs, Packs, inductionHypothesis, and_assoc, packedFrom_cons,
      List.length_cons, Nat.add_assoc, Nat.add_comm 1]

/-- Packed elements are stored in any image that describes them in the same way, under the same
or other indices, and has the same bytes between where they start and end. -/
theorem congr (packs : Packs image index cursor elements)
    (described : ∀ place, place < elements.length →
      changed.descriptor (other + place) = image.descriptor (index + place))
    (room : image.data.size ≤ changed.data.size)
    (same : ∀ position, cursor ≤ position → position < packedFrom cursor elements →
      changed.data[position]? = image.data[position]?) : Packs changed other cursor elements := by
  induction elements generalizing index other cursor with
  | nil => trivial
  | cons datum rest inductionHypothesis =>
    rw [packedFrom_cons] at same
    have behind := @le_packedFrom (stopFrom cursor datum) rest
    refine ⟨packs.1.congr (described 0 (Nat.succ_pos _)) room fun position above below =>
      same position (Nat.le_trans le_startFrom above) (Nat.lt_of_lt_of_le below behind), ?_⟩
    refine inductionHypothesis packs.2 (fun place below => ?_) fun position above below =>
      same position (Nat.le_trans le_stopFrom above) below
    have next := described (place + 1) (Nat.succ_lt_succ below)
    rwa [Nat.add_comm place, ← Nat.add_assoc, ← Nat.add_assoc] at next

theorem stored (packs : Packs image index cursor elements) {place : Nat}
    (there : elements[place]? = some datum) :
    Stored image (index + place) (startFrom (packedFrom cursor (elements.take place)) datum)
      datum := by
  obtain ⟨inside, rfl⟩ := List.getElem?_eq_some_iff.mp there
  have split : elements = elements.take place ++ elements[place] :: elements.drop (place + 1) := by
    rw [← List.drop_eq_getElem_cons, List.take_append_drop]
  rw [split, append_iff, List.length_take, Nat.min_eq_left (Nat.le_of_lt inside)] at packs
  exact packs.2.1

end Packs

/-! ### What an image stands for -/

/-- The numbers of a header are those of a sequence, in capacities that growth can reach. -/
structure Header.Regular (header : Header) : Prop where
  magic : header.magic = UntypedSequence.magic
  reached : IsCapacity header.log2MinGrowth header.capacity
  dataReached : IsArenaCapacity header.log2MinGrowth header.dataCapacity
  count_le : header.count ≤ header.capacity
  allocated_le : header.dataAllocated ≤ header.dataCapacity
  spare : header.spare = (0, 0)

theorem Header.Regular.fits {header : Header} (regular : header.Regular) : header.Fits := by
  have magic : UntypedSequence.magic < 2 ^ 32 := Codec.word32_bound rfl
  have isMagic := regular.magic
  have small := regular.reached.le_max
  have step := regular.reached.le_log2
  have data := regular.dataReached.le_max
  have count := regular.count_le
  have allocated := regular.allocated_le
  have first : header.spare.1 = 0 := congrArg Prod.fst regular.spare
  have second : header.spare.2 = 0 := congrArg Prod.snd regular.spare
  unfold maxCapacity at small data
  intro other member
  simp only [words, List.mem_cons, List.not_mem_nil, or_false] at member
  rcases member with rfl | rfl | rfl | rfl | rfl | rfl | rfl | rfl <;> omega

theorem Header.Regular.cleared {header : Header} (regular : header.Regular) :
    Header.Regular { header with count := 0, dataAllocated := 0 } :=
  ⟨regular.magic, regular.reached, regular.dataReached, Nat.zero_le _, Nat.zero_le _, regular.spare⟩

/-- The image of a sequence stands for a list of values. -/
structure Represents (image : Image) (elements : List Datum) : Prop where
  sound : image.Sound
  regular : image.header.Regular
  count : image.header.count = elements.length
  allocated : image.header.dataAllocated = packedFrom 0 elements
  packs : Packs image 0 0 elements
  storable : ∀ datum ∈ elements, Storable datum.type

namespace Represents

variable {image : Image} {elements : List Datum} {index : Nat} {datum : Datum}

section

variable (represents : Represents image elements)

include represents

theorem length_le : elements.length ≤ image.header.capacity := by
  rw [← represents.count]
  exact represents.regular.count_le

theorem packed_le : packedFrom 0 elements ≤ image.header.dataCapacity := by
  rw [← represents.allocated]
  exact represents.regular.allocated_le

theorem packed_le_max : packedFrom 0 elements ≤ maxCapacity :=
  Nat.le_trans represents.packed_le represents.regular.dataReached.le_max

theorem stored (there : elements[index]? = some datum) :
    Stored image index (startFrom (packedFrom 0 (elements.take index)) datum) datum := by
  have stored := represents.packs.stored there
  rwa [Nat.zero_add] at stored

end

/-! ### Reading -/

section

variable (represents : Represents image elements)

include represents

theorem contentAt_eq (there : elements[index]? = some datum) :
    contentAt image index = .ok datum.bytes := by
  have stored := represents.stored there
  rw [contentAt, fetch_of stored.offset_eq, Checked.bind_ok, fetch_of stored.size_eq,
    Checked.bind_ok, stored.content, orFail]

/-- An access to an element answers what the values say. -/
theorem readAt_eq (there : elements[index]? = some datum) (type : ElementType) :
    readAt index type image = Elements.access elements index type := by
  have stored := represents.stored there
  unfold readAt Elements.access
  rw [fetch_of stored.size_eq, Checked.bind_ok, fetch_of stored.tag_eq, Checked.bind_ok,
    represents.contentAt_eq there, Checked.bind_ok, Elements.element_of there, Checked.bind_ok]
  cases demandType (.index index) datum.type.tag datum.bytes.size type with
  | error failure => rfl
  | ok => rw [Checked.bind_ok, Checked.bind_ok, fetch_of stored.offset_eq, Checked.bind_ok]

end

end Represents

/-! ### Appending -/

section

variable {image : Image} {index : Nat}

theorem run_putElement (inside : index < image.offsets.size) (offset size : Nat) (tag : TypeTag)
    (align : Nat) :
    putElement index offset size tag align image = .ok () { image with
      offsets := image.offsets.setIfInBounds index offset
      sizes := image.sizes.setIfInBounds index size
      types := image.types.setIfInBounds index tag
      aligns := image.aligns.setIfInBounds index align } := by
  simp only [putElement, Edit.run_bind, Edit.run_get, require_of inside, Edit.run_lift_ok,
    Edit.run_set]

theorem run_putData {offset : Nat} {content : Bytes}
    (inside : offset + content.size ≤ image.data.size) :
    putData offset content image =
      .ok () { image with data := image.data.patch offset content.toList } := by
  simp only [putData, Edit.run_bind, Edit.run_get, require_of inside, Edit.run_lift_ok, Edit.run_set]

/-- The image with a new element. -/
def Image.withElement (image : Image) (index offset : Nat) (datum : Datum) (align : Nat) : Image :=
  { image with
    header := { image.header with
      dataAllocated := offset + datum.bytes.size
      count := index + 1 }
    offsets := image.offsets.setIfInBounds index offset
    sizes := image.sizes.setIfInBounds index datum.type.size
    types := image.types.setIfInBounds index datum.type.tag
    aligns := image.aligns.setIfInBounds index align
    data := image.data.patch offset datum.bytes.toList }

theorem run_place {offset align : Nat} {datum : Datum} (count : image.header.count = index)
    (room : index < image.offsets.size) (inside : offset + datum.bytes.size ≤ image.data.size)
    (word : index + 1 < 2 ^ 32) :
    place datum offset align image =
      .ok index (image.withElement index offset datum align) := by
  simp only [place, Edit.run_bind, Edit.run_get, count, run_putElement room, successor_of word,
    Edit.run_lift_ok, Edit.run_modify, Edit.run_pure]
  rw [run_putData (by exact inside)]
  rfl

theorem descriptor_withElement_of_ne {offset align other : Nat} {datum : Datum}
    (different : other ≠ index) :
    (image.withElement index offset datum align).descriptor other = image.descriptor other := by
  have unchanged {α : Type} (array : Array α) (value : α) :
      (array.setIfInBounds index value)[other]? = array[other]? :=
    Array.getElem?_setIfInBounds_ne fun equal => different equal.symm
  simp only [Image.descriptor, Image.withElement, unchanged]

theorem descriptor_withElement_self (sound : image.Sound) (room : index < image.header.capacity)
    {offset align : Nat} {datum : Datum} :
    (image.withElement index offset datum align).descriptor index =
      (some offset, some datum.type.size, some datum.type.tag, some align) := by
  have written {α : Type} {array : Array α} (size : array.size = image.header.capacity) (value : α) :
      (array.setIfInBounds index value)[index]? = some value :=
    Array.getElem?_setIfInBounds_self_of_lt (by rw [size]; exact room)
  simp only [Image.descriptor, Image.withElement, written sound.size_offsets,
    written sound.size_sizes, written sound.size_types, written sound.size_aligns]

/-- A bound of all words still holds when one more is written. -/
theorem lt_of_mem_setIfInBounds {words : Array Nat} {value bound : Nat}
    (below : ∀ word ∈ words, word < bound) (small : value < bound) :
    ∀ word ∈ words.setIfInBounds index value, word < bound := by
  intro word member
  rcases Array.mem_or_eq_of_mem_setIfInBounds member with old | rfl
  · exact below word old
  · exact small

theorem Image.Sound.withElement (sound : image.Sound) {offset align : Nat} {datum : Datum}
    (header : (image.withElement index offset datum align).header.Fits) (start : offset < 2 ^ 32)
    (size : datum.type.size < 2 ^ 32) (small : align < 2 ^ 32) :
    (image.withElement index offset datum align).Sound where
  computed := sound.computed
  header := header
  size_offsets := Array.size_setIfInBounds.trans sound.size_offsets
  size_sizes := Array.size_setIfInBounds.trans sound.size_sizes
  size_types := Array.size_setIfInBounds.trans sound.size_types
  size_aligns := Array.size_setIfInBounds.trans sound.size_aligns
  size_data := (Bytes.size_patch _ _ _).trans sound.size_data
  offsets := lt_of_mem_setIfInBounds sound.offsets start
  sizes := lt_of_mem_setIfInBounds sound.sizes size
  aligns := lt_of_mem_setIfInBounds sound.aligns small

/-- An element behind the others is stored there and leaves them where they are. -/
theorem Packs.concat {elements : List Datum} (packs : Packs image 0 0 elements)
    (sound : image.Sound) {datum : Datum} (room : elements.length < image.header.capacity)
    (inside : startFrom (packedFrom 0 elements) datum + datum.bytes.size ≤ image.data.size) :
    Packs (image.withElement elements.length (startFrom (packedFrom 0 elements) datum) datum
      (elementAlign datum.type)) 0 0 (elements ++ [datum]) := by
  rw [Packs.append_iff]
  refine ⟨packs.congr (fun place below => ?_) (Nat.le_of_eq (Bytes.size_patch _ _ _).symm)
    (fun position _ below => ?_), ⟨?_, ?_⟩, trivial⟩
  · exact descriptor_withElement_of_ne (by omega)
  · have before := @le_startFrom (packedFrom 0 elements) datum
    exact Bytes.getElem?_patch_outside (Or.inl (Nat.lt_of_lt_of_le below before))
  · rw [Nat.zero_add, descriptor_withElement_self sound room, datum.size_bytes]
  · exact Bytes.slice?_patch inside

theorem Represents.place_spec {elements : List Datum} (represents : Represents image elements)
    {datum : Datum} (room : elements.length < image.header.capacity) (storable : Storable datum.type)
    (fits : packedFrom 0 (elements ++ [datum]) ≤ image.header.dataCapacity) :
    ∃ changed,
      place datum (startFrom (packedFrom 0 elements) datum) (elementAlign datum.type) image =
        .ok elements.length changed ∧
      changed.layout = image.layout ∧ Represents changed (elements ++ [datum]) ∧
      changed.header.log2MinGrowth = image.header.log2MinGrowth := by
  have sound := represents.sound
  have regular := represents.regular
  have bound := regular.dataReached.le_max
  unfold maxCapacity at bound
  rw [packedFrom_append, packedFrom_cons, packedFrom_nil, stopFrom] at fits
  have inside : startFrom (packedFrom 0 elements) datum + datum.bytes.size ≤ image.data.size := by
    rw [sound.size_data]
    exact fits
  have start : startFrom (packedFrom 0 elements) datum < 2 ^ 32 := by omega
  have word : elements.length + 1 < 2 ^ 32 := by
    have small := regular.reached.lt_word
    omega
  have size : datum.type.size < 2 ^ 32 := by
    rw [← datum.size_bytes]
    omega
  have small : elementAlign datum.type < 2 ^ 32 :=
    Nat.lt_of_le_of_lt storable.isAlign.le (by decide)
  have regularWith : (image.withElement elements.length (startFrom (packedFrom 0 elements) datum) datum
      (elementAlign datum.type)).header.Regular :=
    ⟨regular.magic, regular.reached, regular.dataReached, room, fits, regular.spare⟩
  refine ⟨_, run_place represents.count (by rw [sound.size_offsets]; exact room) inside word, rfl,
    ⟨sound.withElement regularWith.fits start size small, regularWith, ?_, ?_,
      represents.packs.concat sound room inside, ?_⟩, rfl⟩
  · rw [List.length_append]
    rfl
  · rw [packedFrom_append]
    rfl
  · intro other member
    rcases List.mem_append.mp member with old | new
    · exact represents.storable other old
    · rw [List.mem_singleton.mp new]
      exact storable

/-! ### Another value -/

/-- Another arena of the same length keeps an image sound. -/
theorem Image.Sound.withData (sound : image.Sound) {data : Bytes}
    (size : data.size = image.data.size) : Image.Sound { image with data } :=
  ⟨sound.computed, sound.header, sound.size_offsets, sound.size_sizes, sound.size_types,
    sound.size_aligns, size.trans sound.size_data, sound.offsets, sound.sizes, sound.aligns⟩

/-- Other bytes of an element are stored where the old ones were, and all others stay where they
are. -/
theorem Packs.replaced {front back : List Datum} {datum : Datum}
    (packs : Packs image 0 0 (front ++ datum :: back)) {content : Bytes}
    (size : content.size = datum.bytes.size)
    (inside : startFrom (packedFrom 0 front) datum + content.size ≤ image.data.size) :
    Packs { image with
      data := image.data.patch (startFrom (packedFrom 0 front) datum) content.toList } 0 0
      (front ++ rewritten content datum :: back) := by
  have fits : content.size = datum.type.size := size.trans datum.size_bytes
  have room : image.data.size ≤
      (image.data.patch (startFrom (packedFrom 0 front) datum) content.toList).size :=
    Nat.le_of_eq (Bytes.size_patch _ _ _).symm
  rw [Packs.append_iff, Packs] at packs
  rw [Packs.append_iff, Packs, startFrom_rewritten, stopFrom_rewritten size]
  refine ⟨packs.1.congr (fun _ _ => rfl) room fun position _ before => ?_, ⟨?_, ?_⟩,
    packs.2.2.congr (fun _ _ => rfl) room fun position behind _ => ?_⟩
  · exact Bytes.getElem?_patch_outside (Or.inl (Nat.lt_of_lt_of_le before le_startFrom))
  · rw [rewritten_type, rewritten_of fits, size]
    exact packs.2.1.descriptor
  · rw [rewritten_of fits]
    exact Bytes.slice?_patch inside
  · refine Bytes.getElem?_patch_outside (Or.inr ?_)
    rw [Array.length_toList, size]
    exact behind

/-- Other bytes of an element stand where the old ones did, and no other element changes. -/
theorem Represents.write_spec {elements : List Datum} (represents : Represents image elements)
    {datum : Datum} (there : elements[index]? = some datum) {content : Bytes}
    (size : content.size = datum.bytes.size) :
    ∃ changed,
      putData (startFrom (packedFrom 0 (elements.take index)) datum) content image =
        .ok () changed ∧
      changed.layout = image.layout ∧ Represents changed (Elements.write elements index content) ∧
      changed.header.log2MinGrowth = image.header.log2MinGrowth := by
  have packs := represents.packs
  have allocated := represents.allocated
  have inside := (represents.stored there).inside
  rw [← size] at inside
  obtain ⟨below, rfl⟩ := List.getElem?_eq_some_iff.mp there
  have split : elements = elements.take index ++ elements[index] :: elements.drop (index + 1) := by
    rw [← List.drop_eq_getElem_cons, List.take_append_drop]
  have written : Elements.write elements index content =
      elements.take index ++ rewritten content elements[index] :: elements.drop (index + 1) := by
    have length : (elements.take index).length = index :=
      List.length_take.trans (Nat.min_eq_left (Nat.le_of_lt below))
    have written := @Elements.write_append (elements.take index) (elements.drop (index + 1))
      elements[index] content
    rwa [← split, length] at written
  refine ⟨_, run_putData inside, rfl,
    ⟨represents.sound.withData (Bytes.size_patch _ _ _), represents.regular, ?_, ?_, ?_, ?_⟩, rfl⟩
  · rw [Elements.length_write]
    exact represents.count
  · rw [split, packedFrom_append, packedFrom_cons] at allocated
    rw [written, packedFrom_append, packedFrom_cons, stopFrom_rewritten size]
    exact allocated
  · rw [split] at packs
    rw [written]
    exact packs.replaced size inside
  · intro other member
    rw [written, List.mem_append, List.mem_cons] at member
    rcases member with front | rfl | back
    · exact represents.storable other (List.mem_of_mem_take front)
    · rw [rewritten_type]
      exact represents.storable _ (List.getElem_mem below)
    · exact represents.storable other (List.mem_of_mem_drop back)

end

end PackedStore.UntypedSequence
