/-
This file says how a sequence of values of any type stands in a byte block: its
header, one offset, size, tag and alignment per element, and the arena with the
values, which comes last so that it can grow in place.
-/

import PackedStore.Layout.Placement
import PackedStore.Sizing

namespace PackedStore.UntypedSequence

/-- The first word of a sequence's header. -/
def magic : Nat := HeaderWords.magic 'D' 'U' 'S' 'B'

/-- The header of a sequence. -/
structure Header where
  magic : Nat
  count : Nat
  capacity : Nat
  /-- Bytes of the arena. -/
  dataCapacity : Nat
  /-- Bytes of the arena in use, padding included. -/
  dataAllocated : Nat
  log2MinGrowth : Nat
  /-- Two words without a meaning. -/
  spare : Nat × Nat
deriving DecidableEq, Repr

namespace Header

def words (header : Header) : HeaderWords :=
  [header.magic, header.count, header.capacity, header.dataCapacity, header.dataAllocated,
    header.log2MinGrowth, header.spare.1, header.spare.2]

def ofWords (words : HeaderWords) : Header where
  magic := words.getD 0 0
  count := words.getD 1 0
  capacity := words.getD 2 0
  dataCapacity := words.getD 3 0
  dataAllocated := words.getD 4 0
  log2MinGrowth := words.getD 5 0
  spare := (words.getD 6 0, words.getD 7 0)

/-- The header of the sequence in a block. -/
def load (bytes : Bytes) : Checked Header := do
  return ofWords (← HeaderWords.load bytes)

end Header

/-- Where the parts of a sequence stand. -/
structure Layout where
  header : Segment
  offsets : Segment
  sizes : Segment
  types : Segment
  aligns : Segment
  /-- The arena. -/
  data : Segment
  /-- The length of the whole sequence. -/
  total : Nat
deriving DecidableEq, Repr

namespace Layout

/-- The layout for given numbers of elements and arena bytes. -/
def compute (capacity dataCapacity : Nat) : Checked Layout :=
  Placement.total do
    let header ← Placement.arrayOf headerWords .word32
    let offsets ← Placement.arrayOf capacity .word32
    let sizes ← Placement.arrayOf capacity .word32
    let types ← Placement.arrayOf capacity .word32
    let aligns ← Placement.arrayOf capacity .word32
    let data ← Placement.arena dataCapacity
    return fun total => { header, offsets, sizes, types, aligns, data, total }

/-- The layout of the sequence that a header describes. -/
def ofHeader (header : Header) : Checked Layout :=
  recorded (compute header.capacity header.dataCapacity)

/-- The segments that keep their contents when the capacity grows, in both layouts. -/
def moves (old new : Layout) : List (Segment × Segment) :=
  [(old.header, new.header), (old.offsets, new.offsets), (old.sizes, new.sizes),
    (old.types, new.types), (old.aligns, new.aligns), (old.data, new.data)]

end Layout

end PackedStore.UntypedSequence
