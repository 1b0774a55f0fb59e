/-
This file holds the operations that change an indexed map. A row stays in its
slot until it is removed; its slot is then handed out again before any other. A
map whose slots have all been handed out and are in use grows. Flattening moves
the rows to the slots from zero on and gives up the slots that are not needed;
after that, whole ranges of rows can be taken out at once.
-/

import PackedStore.IndexedMap.Image
import PackedStore.Sizing

namespace PackedStore.IndexedMap

variable {Buffer : Type} [Host Buffer]

/-! ### Creating and attaching -/

/-- The header of the map in the block. -/
def header : Store Buffer Header := do
  Header.load (← Store.bytes)

/-- Replaces the header of the map in the block. -/
def writeHeader (header : Header) : Store Buffer Unit := do
  Store.write (header.words.save (← Store.bytes))

/-- Creates an empty map for rows of a shape in an empty block. -/
def init (shape : Shape) (sizing : Sizing) : Store Buffer Unit := do
  let length ← Store.length
  demand (length = 0) (.blockInUse .indexedMap length)
  let log2MinGrowth := sizing.log2MinGrowth
  let capacity ← grownCapacity 0 sizing.capacity log2MinGrowth
  let bucketCapacity ← bucketCapacityFor capacity
  let layout ← Layout.compute shape capacity bucketCapacity
  let header : Header := {
    magic := shape.magic
    count := 0
    capacity := ← toWord32 capacity .slotCapacity
    bucketCapacity := ← toWord32 bucketCapacity .bucketCapacity
    allocatedIndex := 0
    firstFree := none
    log2MinGrowth
    rowSize := ← toWord32 shape.rowSize .rowSize }
  Store.resize layout.total
  writeHeader header
  Store.edit (format shape) (clearRows shape)

/-- Attaches to a map in the block, which must have been created for rows of the shape. -/
def attach (shape : Shape) : Store Buffer Unit := do
  let content ← Store.bytes
  demand (headerLength ≤ content.size) (.noHeader .indexedMap content.size)
  let header ← Header.load content
  demand (header.magic = shape.magic) (.otherContent .indexedMap)
  demand (header.rowSize = shape.rowSize) .otherRowTypes
  let layout ← Layout.ofHeader shape header
  demand (layout.total ≤ content.size) .truncatedBlock

/-- Gives the storage of the block back. -/
def dispose : Store Buffer Unit :=
  Store.resize 0

/-! ### Growth -/

/-- Ends the links of the slots from `capacity` on and links the slots of the old chains anew. -/
def relink (kind : KeyType) (capacity : Nat) (oldBuckets : Array Link) :
    Edit (HashChains Bytes) Unit := do
  HashChains.endLinksFrom capacity
  HashChains.rehash kind.hash oldBuckets

/-- Moves the map to a larger number of slots. Rows and free slots stay in their places. -/
def grow (shape : Shape) (capacity : Nat) : Store Buffer Unit := do
  let before ← header
  require (before.capacity < capacity) .brokenInvariant
  let bucketCapacity ← bucketCapacityFor capacity
  let capacityWord ← toWord32 capacity .slotCapacity
  let bucketCapacityWord ← toWord32 bucketCapacity .bucketCapacity
  let old ← Layout.ofHeader shape before
  let new ← Layout.compute shape capacity bucketCapacity
  let (keyBuckets, indexBuckets) ← Store.view (format shape) fun image =>
    return (image.key.buckets, image.indices.map (·.buckets))
  Store.relocate (old.moves new) new.total
  writeHeader
    { ← header with capacity := capacityWord, bucketCapacity := bucketCapacityWord }
  Store.edit (format shape) do
    onKey (relink shape.key before.capacity keyBuckets)
    onIndices ((shape.indices.zip indexBuckets).map fun part =>
      relink part.1 before.capacity part.2)
  Store.report (.slotsGrow .indexedMap before.capacity capacity)
  Store.report (.dimensionsRehashed shape.dimensionCount before.bucketCapacity bucketCapacity)

/-- Makes room for at least `capacity` slots. -/
def setCapacity (shape : Shape) (capacity : Nat) : Store Buffer Unit := do
  let header ← header
  if header.capacity < capacity then
    grow shape (← grownCapacity header.count capacity header.log2MinGrowth)

/-! ### Adding and removing -/

/-- The slot of the row with a key. -/
def find (shape : Shape) (key : Bytes) : Store Buffer (Option Nat) :=
  Store.view (format shape) fun image => image.key.find shape.key.hash key

/-- Whether there is a row with a key. -/
def contains (shape : Shape) (key : Bytes) : Store Buffer Bool := do
  return (← find shape key).isSome

/-- Inserts a row whose key is not present and answers its slot. -/
def insertNew (shape : Shape) (row : Row) : Store Buffer Nat := do
  let before ← header
  if before.firstFree = none ∧ before.allocatedIndex = before.capacity then
    grow shape (← nextCapacity before.count before.capacity before.log2MinGrowth)
  Store.edit (format shape) (insertRow shape row)

/-- Inserts a row unless its key is present, and says whether it did. -/
def tryAdd (shape : Shape) (row : Row) : Store Buffer Bool := do
  if ← contains shape row.key then
    return false
  else
    discard (insertNew shape row)
    return true

/-- Inserts a row whose key must not be present and answers its slot. -/
def add (shape : Shape) (row : Row) : Store Buffer Nat := do
  let present ← contains shape row.key
  demand (present = false) .duplicateKey
  insertNew shape row

/-- Removes the row with a key and says whether there was one. -/
def remove (shape : Shape) (key : Bytes) : Store Buffer Bool := do
  match ← find shape key with
  | none => return false
  | some slot =>
    Store.edit (format shape) (removeRow shape slot)
    return true

/-- Removes all rows and keeps the capacity. -/
def clear (shape : Shape) : Store Buffer Unit :=
  Store.edit (format shape) (clearRows shape)

/-- Replaces the value of the row with a key and answers the old one. -/
def exchange (shape : Shape) (key value : Bytes) : Store Buffer (Option Bytes) := do
  match ← find shape key with
  | none => return none
  | some slot =>
    Store.edit (format shape) do
      let image ← get
      let old ← fetch image.values slot
      set { image with values := image.values.setIfInBounds slot value }
      return some old

/-! ### Whole ranges -/

/-- All rows with their slots, in the order of the key's buckets. -/
def entries (shape : Shape) : Store Buffer (List Entry) :=
  Store.view (format shape) fun image => do
    (← image.key.linkedSlots).mapM image.entry

/-- Resizes the map to the least capacity for its rows and empties it. -/
def compact (shape : Shape) : Store Buffer Unit := do
  let before ← header
  let holes ← Store.view (format shape) fun image =>
    FreeSlots.count { head := image.header.firstFree, next := image.key.next }
  require (before.count + holes = before.allocatedIndex) .brokenInvariant
  let capacity ← grownCapacity before.count before.count before.log2MinGrowth
  let bucketCapacity ← bucketCapacityFor capacity
  let capacityWord ← toWord32 capacity .slotCapacity
  let bucketCapacityWord ← toWord32 bucketCapacity .bucketCapacity
  let new ← Layout.compute shape capacity bucketCapacity
  Store.resize new.total
  writeHeader
    { ← header with capacity := capacityWord, bucketCapacity := bucketCapacityWord }
  Store.edit (format shape) (clearRows shape)
  Store.report (.flattened before.count holes capacity)

/-- Moves all rows to the slots from zero on, in the order of `entries`, and reduces the capacity
to the least one that holds them. -/
def flatten (shape : Shape) : Store Buffer Unit := do
  let count := (← header).count
  let rows := (← entries shape).map (·.row)
  compact shape
  Store.edit (format shape) do
    putHeader fun header => { header with count := count, allocatedIndex := count }
    storeRows shape 0 rows

/-- Removes the rows in `count` slots from `start` on and moves all later rows down. There must
be no free slots among the rows. -/
def removeRange (shape : Shape) (start count : Nat) : Store Buffer Unit := do
  let before ← header
  let rows := before.count
  demand (before.firstFree = none) .holes
  demand (start ≤ rows ∧ count ≤ rows - start) (.rowsOutOfRange start count rows)
  if 0 < count then
    Store.edit (format shape) do
      let image ← get
      set { image with values := ← moveDown? image.values start count rows }
      onKey (HashChains.removeRange shape.key.hash start count rows)
      onIndices (shape.indices.map fun kind =>
        HashChains.removeRange kind.hash start count rows)
      putHeader fun header =>
        { header with count := rows - count, allocatedIndex := rows - count }
    Store.report (.rowsShifted count start)

end PackedStore.IndexedMap
