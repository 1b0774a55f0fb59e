/-
This file reads an indexed map out of its byte block and writes it back, and
holds the changes of single rows: a row takes the slot freed last, or the first
slot never used; a row that goes is taken out of every hash table, and its slot
is put on the list of free slots, which runs through the links of the key's
table.
-/

import PackedStore.Host.Store
import PackedStore.IndexedMap.Layout
import PackedStore.Slots.FreeSlots
import PackedStore.Slots.HashChains

namespace PackedStore.IndexedMap

/-- A row of an indexed map. -/
structure Row where
  key : Bytes
  indices : List Bytes
  value : Bytes
deriving DecidableEq, Repr

/-- A row and the slot it stands in. -/
structure Entry where
  slot : Nat
  row : Row
deriving DecidableEq, Repr

/-- The parts of an indexed map. -/
structure Image where
  layout : Layout
  header : Header
  /-- The value of each slot. -/
  values : Array Bytes
  /-- The hash table of the unique keys. -/
  key : HashChains Bytes
  /-- The hash tables of the indices. -/
  indices : List (HashChains Bytes)

namespace DimensionLayout

/-- The hash table that a block holds at a place. -/
def load (kind : KeyType) (layout : DimensionLayout) (header : Header) (bytes : Bytes) :
    HashChains Bytes where
  keys := (Codec.cell kind.size).readArray bytes layout.keys.offset header.capacity
  next := Link.codec.readArray bytes layout.next.offset header.capacity
  buckets := Link.codec.readArray bytes layout.buckets.offset header.bucketCapacity

/-- The contents of the segments of a hash table. -/
def contents (kind : KeyType) (layout : DimensionLayout) (chains : HashChains Bytes) :
    List (Segment × List UInt8) :=
  [(layout.keys, (Codec.cell kind.size).encodeArray chains.keys),
    (layout.next, Link.codec.encodeArray chains.next),
    (layout.buckets, Link.codec.encodeArray chains.buckets)]

end DimensionLayout

namespace Image

/-- The map with rows of a shape that a block holds. -/
def load (shape : Shape) (bytes : Bytes) : Checked Image := do
  let header ← Header.load bytes
  let layout ← Layout.ofHeader shape header
  require (layout.total ≤ bytes.size) .outOfRange
  return {
    layout
    header
    values := (Codec.cell shape.value.size).readArray bytes layout.values.offset header.capacity
    key := layout.key.load shape.key header bytes
    indices := (shape.indices.zip layout.indices).map fun pair =>
      pair.2.load pair.1 header bytes }

/-- The block with the parts of the map replaced. -/
def save (shape : Shape) (image : Image) (bytes : Bytes) : Bytes :=
  Segment.writeAll bytes <|
    (image.layout.header, image.header.words.flatMap (Bytes.littleEndian 4)) ::
    (image.layout.values, (Codec.cell shape.value.size).encodeArray image.values) ::
    (image.layout.key.contents shape.key image.key ++
      (shape.indices.zip (image.layout.indices.zip image.indices)).flatMap fun part =>
        part.2.1.contents part.1 part.2.2)

/-- The row in a slot, live or not. -/
def entry (image : Image) (slot : Nat) : Checked Entry := do
  let key ← fetch image.key.keys slot
  let indices ← image.indices.mapM fun chains => fetch chains.keys slot
  let value ← fetch image.values slot
  return { slot, row := { key, indices, value } }

/-- Whether a slot holds a row: its key is found there. A slot that is free again keeps its key,
but is not found by it. -/
def isLive (shape : Shape) (image : Image) (slot : Nat) : Checked Bool := do
  if slot < image.header.allocatedIndex then
    let key ← fetch image.key.keys slot
    return (← image.key.find shape.key.hash key) == some slot
  else
    return false

end Image

/-- How an indexed map with rows of a shape stands in a block. -/
def format (shape : Shape) : ImageFormat Image where
  load := Image.load shape
  save := Image.save shape

/-! ### Changing parts of the image -/

variable {α : Type}

/-- Changes the hash table of the keys. -/
def onKey (change : Edit (HashChains Bytes) α) : Edit Image α :=
  change.onPart Image.key fun key image => { image with key }

/-- Changes the hash tables of the indices one after another. -/
def onIndices (changes : List (Edit (HashChains Bytes) Unit)) : Edit Image Unit :=
  (Edit.onEach changes).onPart Image.indices fun indices image => { image with indices }

/-- Changes the list of free slots. -/
def onFree (change : Edit FreeSlots α) : Edit Image α :=
  change.onPart
    (fun image => { head := image.header.firstFree, next := image.key.next })
    fun free image => { image with
      header := { image.header with firstFree := free.head }
      key := { image.key with next := free.next } }

/-- Changes the header. -/
def putHeader (change : Header → Header) : Edit Image Unit :=
  modify fun image => { image with header := change image.header }

/-! ### Single rows -/

/-- Writes a row into a slot and links the slot into every hash table. -/
def storeRow (shape : Shape) (slot : Nat) (row : Row) : Edit Image Unit := do
  let image ← get
  require (slot < image.values.size) .outOfRange
  set { image with values := image.values.setIfInBounds slot row.value }
  onKey (HashChains.insert shape.key.hash slot row.key)
  onIndices ((shape.indices.zip row.indices).map fun part =>
    HashChains.insert part.1.hash slot part.2)

/-- Hands out a slot: the one freed last, or the first one never used. -/
def takeSlot : Edit Image Nat := do
  let slot ← match ← onFree FreeSlots.pop with
    | some slot => pure slot
    | none =>
      let slot := (← get).header.allocatedIndex
      let allocatedIndex ← successor slot
      putHeader fun header => { header with allocatedIndex }
      pure slot
  let count ← successor (← get).header.count
  putHeader fun header => { header with count }
  return slot

/-- Writes a new row and answers its slot. -/
def insertRow (shape : Shape) (row : Row) : Edit Image Nat := do
  let slot ← takeSlot
  storeRow shape slot row
  return slot

/-- Takes a slot that is linked out of a hash table. -/
def unlinkLinked (kind : KeyType) (slot : Nat) : Edit (HashChains Bytes) Unit := do
  let linked ← HashChains.unlink kind.hash slot
  require (linked = true) .brokenInvariant

/-- Takes the row in a slot out of every hash table and frees the slot. -/
def removeRow (shape : Shape) (slot : Nat) : Edit Image Unit := do
  onKey (unlinkLinked shape.key slot)
  onIndices (shape.indices.map fun kind => unlinkLinked kind slot)
  onFree (FreeSlots.push slot)
  let count := (← get).header.count
  require (0 < count) .overflow
  putHeader fun header => { header with count := count - 1 }

/-- Removes all rows and forgets which slots were used. -/
def clearRows (shape : Shape) : Edit Image Unit := do
  putHeader fun header => { header with count := 0, allocatedIndex := 0, firstFree := none }
  onKey HashChains.clear
  onIndices (shape.indices.map fun _ => HashChains.clear)

/-- Writes rows into the slots from `slot` on. -/
def storeRows (shape : Shape) : Nat → List Row → Edit Image Unit
  | _, [] => return ()
  | slot, row :: rest => do
    storeRow shape slot row
    storeRows shape (slot + 1) rest

end PackedStore.IndexedMap
