/-
This file says how a map from keys of one type to values of any type stands in a
byte block: its header, and the order of its arrays. The value words, the keys,
the links, the tags and the sizes have one member per slot, the buckets have
their own number, and the arena comes last, so that it can grow in place.
-/

import PackedStore.Layout.Placement
import PackedStore.Sizing

namespace PackedStore.UntypedMap

/-- The first word of a map's header. -/
def magic : Nat := HeaderWords.magic 'D' 'U' 'H' 'M'

/-- The header of a map. -/
structure Header where
  magic : Nat
  /-- Entries, in slots from zero on. -/
  count : Nat
  capacity : Nat
  bucketCapacity : Nat
  /-- Words of the arena. -/
  dataCapacity : Nat
  /-- Words of the arena in use. -/
  dataAllocated : Nat
  log2MinGrowth : Nat
  keySize : Nat
deriving DecidableEq, Repr

namespace Header

def words (header : Header) : HeaderWords :=
  [header.magic, header.count, header.capacity, header.bucketCapacity, header.dataCapacity,
    header.dataAllocated, header.log2MinGrowth, header.keySize]

def ofWords (words : HeaderWords) : Header where
  magic := words.getD 0 0
  count := words.getD 1 0
  capacity := words.getD 2 0
  bucketCapacity := words.getD 3 0
  dataCapacity := words.getD 4 0
  dataAllocated := words.getD 5 0
  log2MinGrowth := words.getD 6 0
  keySize := words.getD 7 0

/-- The header of the map in a block. -/
def load (bytes : Bytes) : Checked Header := do
  return ofWords (← HeaderWords.load bytes)

end Header

/-- Where the parts of a map stand. -/
structure Layout where
  header : Segment
  /-- One value word per slot. -/
  values : Segment
  keys : Segment
  /-- One link per slot. -/
  next : Segment
  /-- One link per bucket. -/
  buckets : Segment
  types : Segment
  sizes : Segment
  /-- The arena. -/
  data : Segment
  /-- The length of the whole map. -/
  total : Nat
deriving DecidableEq, Repr

namespace Layout

/-- The layout for keys of a type and given numbers of slots, buckets and arena words. -/
def compute (key : ElementType) (capacity buckets dataCapacity : Nat) : Checked Layout :=
  Placement.total do
    let header ← Placement.arrayOf headerWords .word32
    let values ← Placement.arrayOf capacity .word32
    let keys ← Placement.arrayOf capacity key
    let next ← Placement.arrayOf capacity .word32
    let buckets ← Placement.arrayOf buckets .word32
    let types ← Placement.arrayOf capacity .word32
    let sizes ← Placement.arrayOf capacity .word16
    let dataLength ← orFail (size? (dataCapacity * 4)) (.overflow .arenaSize)
    let data ← Placement.arena dataLength
    return fun total => { header, values, keys, next, buckets, types, sizes, data, total }

/-- The layout of the map that a header describes. -/
def ofHeader (key : ElementType) (header : Header) : Checked Layout :=
  recorded (compute key header.capacity header.bucketCapacity header.dataCapacity)

/-- The segments that keep their contents when the number of slots grows, in both layouts. -/
def moves (old new : Layout) : List (Segment × Segment) :=
  [(old.header, new.header), (old.values, new.values), (old.keys, new.keys),
    (old.next, new.next), (old.types, new.types), (old.sizes, new.sizes), (old.data, new.data)]

end Layout

end PackedStore.UntypedMap
