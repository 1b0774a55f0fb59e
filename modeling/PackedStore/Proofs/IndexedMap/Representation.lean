/-
This file says which slot table the image of an indexed map stands for, and what
the changes of single rows do to it. Every dimension is a key table of the rows'
keys in that dimension; the list of free slots runs through the links of the
first one, which have no other use there. A change of all dimensions is run one
dimension after another, so what holds of each holds of all.
-/

import PackedStore.Proofs.IndexedMap.Images
import PackedStore.Proofs.IndexedMap.SlotTables
import PackedStore.Proofs.Slots.FreeSlots

namespace PackedStore.IndexedMap

variable {shape : Shape} {image : Image} {capacity : Nat}

/-! ### Dimensions -/

/-- Hash tables that are key tables, each for the keys of its own dimension. -/
structure Tabled (shape : Shape) (capacity : Nat) (cell : Nat → Nat → Option Bytes)
    (orders : Nat → Nat → List Nat) (tables : List (HashChains Bytes)) : Prop where
  length_eq : tables.length = shape.kinds.length
  table : ∀ (position : Nat) (kind : KeyType) (chains : HashChains Bytes),
    shape.kinds[position]? = some kind → tables[position]? = some chains →
    KeyTable kind capacity (cell position) (orders position) chains

theorem Tabled.key {cell : Nat → Nat → Option Bytes} {orders : Nat → Nat → List Nat}
    (tabled : Tabled shape capacity cell orders image.dimensions) :
    KeyTable shape.key capacity (cell 0) (orders 0) image.key :=
  tabled.table 0 shape.key image.key rfl rfl

/-- Another link of a slot without a key in the key's table keeps all tables as they are. -/
theorem Tabled.set_next {cell : Nat → Nat → Option Bytes} {orders : Nat → Nat → List Nat}
    {key : HashChains Bytes} {indices : List (HashChains Bytes)}
    (tabled : Tabled shape capacity cell orders (key :: indices)) {slot : Nat}
    (vacant : cell 0 slot = none) {link : Link}
    (below : ∀ other, link = some other → other < capacity) :
    Tabled shape capacity cell orders
      ({ key with next := key.next.setIfInBounds slot link } :: indices) := by
  refine ⟨tabled.length_eq, ?_⟩
  intro position kind chains thereKind thereChains
  cases position with
  | zero =>
    obtain rfl := Option.some.inj thereChains
    exact (tabled.table 0 kind key thereKind rfl).set_next vacant below
  | succ position => exact tabled.table (position + 1) kind chains thereKind thereChains

theorem run_onKey {α : Type} {edit : Edit (HashChains Bytes) α} {answer : α}
    {key : HashChains Bytes} (run : edit image.key = .ok answer key) :
    onKey edit image = .ok answer { image with key } :=
  Edit.run_onPart_ok run

theorem run_onIndices {edits : List (Edit (HashChains Bytes) Unit)}
    {indices : List (HashChains Bytes)}
    (run : Edit.onEach edits image.indices = .ok () indices) :
    onIndices edits image = .ok () { image with indices } :=
  Edit.run_onPart_ok run

theorem run_onFree {α : Type} {edit : Edit FreeSlots α} {answer : α} {free : FreeSlots}
    (run : edit { head := image.header.firstFree, next := image.key.next } = .ok answer free) :
    onFree edit image = .ok answer { image with
      header := { image.header with firstFree := free.head }
      key := { image.key with next := free.next } } :=
  Edit.run_onPart_ok run

/-- Edits of the key's table and of the other tables that succeed one by one succeed together. -/
theorem run_dimensions {keyEdit : Edit (HashChains Bytes) Unit}
    {edits : List (Edit (HashChains Bytes) Unit)} {Changed : Nat → HashChains Bytes → Prop}
    (lengths : (keyEdit :: edits).length = image.dimensions.length)
    (each : ∀ (position : Nat) (edit : Edit (HashChains Bytes) Unit) (chains : HashChains Bytes),
      (keyEdit :: edits)[position]? = some edit → image.dimensions[position]? = some chains →
      ∃ changed, edit chains = .ok () changed ∧ Changed position changed) :
    ∃ key indices, keyEdit image.key = .ok () key ∧
      Edit.onEach edits image.indices = .ok () indices ∧
      (key :: indices).length = image.dimensions.length ∧
      ∀ position chains, (key :: indices)[position]? = some chains → Changed position chains := by
  obtain ⟨key, runKey, changedKey⟩ := each 0 keyEdit image.key rfl rfl
  obtain ⟨indices, runIndices, length, changedIndices⟩ :=
    @Edit.run_onEach_ok _ edits image.indices (fun position => Changed (position + 1))
      (Nat.succ.inj lengths) (fun position edit chains thereEdit thereChains =>
        each (position + 1) edit chains thereEdit thereChains)
  refine ⟨key, indices, runKey, runIndices, congrArg (· + 1) length, ?_⟩
  intro position chains there
  cases position with
  | zero =>
    obtain rfl : key = chains := Option.some.inj there
    exact changedKey
  | succ position => exact changedIndices position chains there

/-- Edits that lead each key table to another one lead all of them together to tables again. -/
theorem Tabled.run_each {cell after : Nat → Nat → Option Bytes} {orders linked : Nat → Nat → List Nat}
    (tabled : Tabled shape capacity cell orders image.dimensions)
    {keyEdit : Edit (HashChains Bytes) Unit} {edits : List (Edit (HashChains Bytes) Unit)}
    {Kept : Nat → HashChains Bytes → HashChains Bytes → Prop}
    (lengths : (keyEdit :: edits).length = shape.kinds.length)
    (each : ∀ (position : Nat) (kind : KeyType) (edit : Edit (HashChains Bytes) Unit)
      (chains : HashChains Bytes), shape.kinds[position]? = some kind →
      (keyEdit :: edits)[position]? = some edit →
      KeyTable kind capacity (cell position) (orders position) chains →
      ∃ changed, edit chains = .ok () changed ∧
        KeyTable kind capacity (after position) (linked position) changed ∧
        Kept position chains changed) :
    ∃ key indices, keyEdit image.key = .ok () key ∧
      Edit.onEach edits image.indices = .ok () indices ∧
      Tabled shape capacity after linked (key :: indices) ∧ Kept 0 image.key key := by
  obtain ⟨key, indices, runKey, runIndices, length, changed⟩ :=
    @run_dimensions image keyEdit edits
      (fun position chains => ∃ kind before, shape.kinds[position]? = some kind ∧
        image.dimensions[position]? = some before ∧
        KeyTable kind capacity (after position) (linked position) chains ∧
        Kept position before chains)
      (lengths.trans tabled.length_eq.symm)
      (by
        intro position edit chains thereEdit thereChains
        have inside : position < shape.kinds.length := by
          rw [← lengths]
          exact (List.getElem?_eq_some_iff.mp thereEdit).1
        have thereKind := List.getElem?_eq_getElem inside
        obtain ⟨changed, run, table, kept⟩ := each position _ edit chains thereKind thereEdit
          (tabled.table position _ chains thereKind thereChains)
        exact ⟨changed, run, _, chains, thereKind, thereChains, table, kept⟩)
  refine ⟨key, indices, runKey, runIndices, ⟨length.trans tabled.length_eq, ?_⟩, ?_⟩
  · intro position kind chains thereKind thereChains
    obtain ⟨kind', before, thereKind', -, table, -⟩ := changed position chains thereChains
    obtain rfl : kind = kind' := Option.some.inj (thereKind.symm.trans thereKind')
    exact table
  · obtain ⟨_, before, -, thereBefore, -, kept⟩ := changed 0 key rfl
    obtain rfl : image.key = before := Option.some.inj thereBefore
    exact kept

/-! ### What an image stands for -/

/-- The parts of an image that stay as long as the capacity stays. -/
structure Image.Framed (shape : Shape) (image : Image) : Prop where
  computed : Layout.compute shape image.header.capacity image.header.bucketCapacity =
    .ok image.layout
  magic : image.header.magic = shape.magic
  rowSize : image.header.rowSize = shape.rowSize
  rowSize_lt : shape.rowSize < 2 ^ 32
  bucketCapacity : image.header.bucketCapacity = 2 * image.header.capacity
  reached : IsCapacity image.header.log2MinGrowth image.header.capacity

theorem Image.Framed.named (framed : image.Framed shape) :
    image.header.capacity ≤ Link.slotLimit :=
  framed.reached.named

/-- Values that are those of the rows of a table, in their slots. -/
structure Valued (shape : Shape) (capacity : Nat) (table : SlotTable) (values : Array Bytes) :
    Prop where
  size_eq : values.size = Codec.arraySize shape.value.size capacity
  fits : ∀ value ∈ values, value.size = shape.value.size
  getElem?_eq : ∀ slot row, table.rowAt slot = some row → values[slot]? = some row.value

/-- Changing the row in a slot changes its value. -/
theorem Valued.set {table changed : SlotTable} {values : Array Bytes} {slot : Nat} {row : Row}
    (valued : Valued shape capacity table values)
    (update : changed.rowAt = Function.update table.rowAt slot (some row))
    (below : slot < values.size) (size : row.value.size = shape.value.size) :
    Valued shape capacity changed (values.setIfInBounds slot row.value) := by
  refine ⟨Array.size_setIfInBounds.trans valued.size_eq, ?_, ?_⟩
  · intro value member
    rcases Array.mem_or_eq_of_mem_setIfInBounds member with old | rfl
    · exact valued.fits value old
    · exact size
  · intro other content there
    rw [update] at there
    by_cases equal : other = slot
    · rw [equal, Function.update_self] at there
      rw [← Option.some.inj there, equal]
      exact Array.getElem?_setIfInBounds_self_of_lt below
    · rw [Function.update_of_ne equal] at there
      exact (Array.getElem?_setIfInBounds_ne fun same => equal same.symm).trans
        (valued.getElem?_eq other content there)

/-- The image of a map stands for a slot table, with the slots of each dimension linked in the
given order. -/
structure Represents (shape : Shape) (image : Image) (table : SlotTable)
    (orders : Nat → Nat → List Nat) : Prop where
  framed : image.Framed shape
  wellFormed : table.WellFormed shape
  allocated : image.header.allocatedIndex = table.slots.length
  room : table.slots.length ≤ image.header.capacity
  count : image.header.count = table.count
  free : FreeSlots.Stacked { head := image.header.firstFree, next := image.key.next } table.free
  valued : Valued shape image.header.capacity table image.values
  tabled : Tabled shape image.header.capacity table.cell orders image.dimensions

/-- A header without what changes from row to row. -/
def Header.fixed (header : Header) : Header :=
  { header with count := 0, allocatedIndex := 0, firstFree := none }

/-- The second image has the layout of the first one, and its header differs in the counts and the
first free slot only. -/
structure Image.SameFrame (image other : Image) : Prop where
  layout : other.layout = image.layout
  header : other.header.fixed = image.header.fixed

theorem Image.SameFrame.capacity_eq {other : Image} (same : image.SameFrame other) :
    other.header.capacity = image.header.capacity := by
  have fixed := congrArg Header.capacity same.header
  exact fixed

theorem Image.SameFrame.log2MinGrowth_eq {other : Image} (same : image.SameFrame other) :
    other.header.log2MinGrowth = image.header.log2MinGrowth := by
  have fixed := congrArg Header.log2MinGrowth same.header
  exact fixed

theorem Image.SameFrame.trans {other last : Image} (first : image.SameFrame other)
    (second : other.SameFrame last) : image.SameFrame last :=
  ⟨second.layout.trans first.layout, second.header.trans first.header⟩

theorem Image.Framed.of_same {other : Image} (framed : image.Framed shape)
    (same : image.SameFrame other) : other.Framed shape := by
  have magic := congrArg Header.magic same.header
  have rowSize := congrArg Header.rowSize same.header
  have buckets : other.header.fixed.bucketCapacity = image.header.fixed.bucketCapacity := by
    rw [same.header]
  refine ⟨?_, magic.trans framed.magic, rowSize.trans framed.rowSize, framed.rowSize_lt,
    buckets.trans ?_, ?_⟩
  · rw [same.capacity_eq, same.layout]
    exact (congrArg (Layout.compute shape image.header.capacity) buckets).trans framed.computed
  · rw [same.capacity_eq]
    exact framed.bucketCapacity
  · rw [same.log2MinGrowth_eq, same.capacity_eq]
    exact framed.reached

theorem magic_lt (first second third fourth : Char) :
    HeaderWords.magic first second third fourth < 2 ^ 32 :=
  Codec.word32_bound rfl

namespace Represents

variable {table : SlotTable} {orders : Nat → Nat → List Nat}

theorem capacity_le (represents : Represents shape image table orders) :
    image.header.capacity ≤ maxCapacity :=
  represents.framed.reached.le_max

theorem count_le (represents : Represents shape image table orders) :
    table.count ≤ image.header.capacity := by
  have counted := represents.wellFormed.count
  have room := represents.room
  omega

theorem firstFree_lt (represents : Represents shape image table orders) {slot : Nat}
    (isFirst : image.header.firstFree = some slot) : slot < image.header.capacity := by
  have stacked := represents.free
  have room := represents.room
  cases isFree : table.free with
  | nil =>
    rw [isFree] at stacked
    exact absurd (stacked.symm.trans isFirst) (by simp)
  | cons first rest =>
    rw [isFree] at stacked
    obtain rfl : first = slot := Option.some.inj (stacked.1.symm.trans isFirst)
    have inside : first < table.slots.length :=
      represents.wellFormed.free_lt (by rw [isFree]; exact List.mem_cons_self)
    omega

/-- An image that stands for a table is sound. -/
theorem sound (represents : Represents shape image table orders) : image.Sound shape := by
  have framed := represents.framed
  have small := represents.capacity_le
  have word := framed.reached.lt_word
  have counted := represents.count_le
  have room := represents.room
  have step := framed.reached.le_log2
  have allocated := represents.allocated
  have rowsCounted := represents.count
  have magic := magic_lt 'D' 'I' 'M' (Char.ofNat ('0'.toNat + shape.indices.length))
  have firstFree : Codec.Fits Link.codec image.header.firstFree :=
    Codec.fits_link fun slot isFirst =>
      Nat.lt_of_lt_of_le (represents.firstFree_lt isFirst) framed.named
  refine ⟨framed.computed, ⟨?_, firstFree⟩, represents.valued.size_eq, represents.valued.fits,
    represents.tabled.length_eq, ?_⟩
  · intro word member
    have link := image.header.firstFree.toWord_lt
    have magicWord : image.header.magic < 2 ^ 32 := by rw [framed.magic]; exact magic
    have rowWord : image.header.rowSize < 2 ^ 32 := by rw [framed.rowSize]; exact framed.rowSize_lt
    have buckets := framed.bucketCapacity
    simp only [Header.words, List.mem_cons, List.not_mem_nil, or_false] at member
    rcases member with rfl | rfl | rfl | rfl | rfl | rfl | rfl | rfl <;> omega
  · intro position kind chains thereKind thereChains
    rw [framed.bucketCapacity]
    exact (represents.tabled.table position kind chains thereKind thereChains).sound

end Represents

end PackedStore.IndexedMap
