/-
This file says how rows with a unique key and some repeatable indices stand in a
byte block: a header, one value per slot, and one hash table per dimension. The
first dimension is the key, the others are the indices. All dimensions share the
slots, so a row is reached by its key and by each index.
-/

import PackedStore.Layout.Placement
import PackedStore.Sizing
import PackedStore.Slots.FreeSlots

namespace PackedStore.IndexedMap

/-- The types of a row. -/
structure Shape where
  value : ElementType
  /-- The type of the unique keys. -/
  key : KeyType
  /-- The types of the indices, which may repeat. -/
  indices : List KeyType

namespace Shape

/-- The first word of the header, which counts the indices with its last character. -/
def magic (shape : Shape) : Nat :=
  HeaderWords.magic 'D' 'I' 'M' (Char.ofNat ('0'.toNat + shape.indices.length))

/-- The bytes of a row. -/
def rowSize (shape : Shape) : Nat :=
  shape.value.size + shape.key.size + (shape.indices.map (·.size)).sum

/-- The number of hash tables. -/
def dimensionCount (shape : Shape) : Nat :=
  shape.indices.length + 1

end Shape

/-- The header of an indexed map. -/
structure Header where
  magic : Nat
  /-- Rows. -/
  count : Nat
  capacity : Nat
  bucketCapacity : Nat
  /-- Slots handed out so far, in use or free again. -/
  allocatedIndex : Nat
  /-- The slot freed last. -/
  firstFree : Link
  log2MinGrowth : Nat
  rowSize : Nat
deriving DecidableEq, Repr

namespace Header

def words (header : Header) : HeaderWords :=
  [header.magic, header.count, header.capacity, header.bucketCapacity, header.allocatedIndex,
    header.firstFree.toWord, header.log2MinGrowth, header.rowSize]

def ofWords (words : HeaderWords) : Header where
  magic := words.getD 0 0
  count := words.getD 1 0
  capacity := words.getD 2 0
  bucketCapacity := words.getD 3 0
  allocatedIndex := words.getD 4 0
  firstFree := Link.ofWord (words.getD 5 0)
  log2MinGrowth := words.getD 6 0
  rowSize := words.getD 7 0

/-- The header of the indexed map in a block. -/
def load (bytes : Bytes) : Checked Header := do
  return ofWords (← HeaderWords.load bytes)

end Header

/-- Where the arrays of one hash table stand. -/
structure DimensionLayout where
  keys : Segment
  /-- One link per slot. -/
  next : Segment
  /-- One link per bucket. -/
  buckets : Segment
deriving DecidableEq, Repr

/-- Where the parts of an indexed map stand. -/
structure Layout where
  header : Segment
  values : Segment
  key : DimensionLayout
  indices : List DimensionLayout
  /-- The length of the whole map. -/
  total : Nat
deriving DecidableEq, Repr

namespace DimensionLayout

/-- Places the arrays of a hash table. -/
def place (capacity buckets : Nat) (kind : KeyType) : Edit Placement DimensionLayout := do
  let keys ← Placement.arrayOf capacity kind.toElementType
  let next ← Placement.arrayOf capacity .word32
  let buckets ← Placement.arrayOf buckets .word32
  return { keys, next, buckets }

/-- The segments that keep their contents when the number of slots grows, in both layouts. -/
def moves (old new : DimensionLayout) : List (Segment × Segment) :=
  [(old.keys, new.keys), (old.next, new.next)]

end DimensionLayout

namespace Layout

/-- The layout for rows of a shape and given numbers of slots and buckets. -/
def compute (shape : Shape) (capacity buckets : Nat) : Checked Layout :=
  Placement.total do
    let header ← Placement.arrayOf headerWords .word32
    let values ← Placement.arrayOf capacity shape.value
    let key ← DimensionLayout.place capacity buckets shape.key
    let indices ← shape.indices.mapM (DimensionLayout.place capacity buckets)
    return fun total => { header, values, key, indices, total }

/-- The layout of the map that a header describes. -/
def ofHeader (shape : Shape) (header : Header) : Checked Layout :=
  recorded (compute shape header.capacity header.bucketCapacity)

/-- The segments that keep their contents when the number of slots grows, in both layouts. -/
def moves (old new : Layout) : List (Segment × Segment) :=
  (old.header, new.header) :: (old.values, new.values) ::
    (old.key.moves new.key ++
      (old.indices.zip new.indices).flatMap fun pair => pair.1.moves pair.2)

end Layout

/-- Where the parts of a table with any number of hash tables stand. -/
structure TableLayout where
  header : Segment
  values : Segment
  dimensions : List DimensionLayout
  /-- The length of the whole table. -/
  total : Nat
deriving DecidableEq, Repr

/-- The layout for values of a type and any number of hash tables, of which an indexed map has at
least one. -/
def TableLayout.compute (value : ElementType) (kinds : List KeyType) (capacity buckets : Nat) :
    Checked TableLayout :=
  Placement.total do
    let header ← Placement.arrayOf headerWords .word32
    let values ← Placement.arrayOf capacity value
    let dimensions ← kinds.mapM (DimensionLayout.place capacity buckets)
    return fun total => { header, values, dimensions, total }

/-- The listing of a dimension's key type. -/
def kindListing (kind : KeyType) : String :=
  s!"DimensionKind \x7b key: \"{kind.name}\", size: {kind.size}, align: {kind.align} \x7d"

end PackedStore.IndexedMap
