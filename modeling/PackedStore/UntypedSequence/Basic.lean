/-
This file holds the operations on a sequence of values of any type. The values
stand in an arena in the order of the elements, each at the first offset behind
the one before that is a multiple of four and of its type's alignment. Removing
an element moves all later ones down by the same rule, so the arena has no gaps
but padding. A value is read only as the type it was stored with.
-/

import PackedStore.Sizing
import PackedStore.UntypedSequence.Image

namespace PackedStore.UntypedSequence

variable {Buffer : Type} [Host Buffer]

/-- The least alignment of an element in the arena. -/
def minElementAlign : Nat := 4

/-! ### Creating and attaching -/

/-- The header of the sequence in the block. -/
def header : Store Buffer Header := do
  Header.load (← Store.bytes)

/-- Replaces the header of the sequence in the block. -/
def writeHeader (header : Header) : Store Buffer Unit := do
  Store.write (header.words.save (← Store.bytes))

/-- Creates an empty sequence in an empty block. -/
def init (sizing : Sizing) : Store Buffer Unit := do
  let length ← Store.length
  demand (length = 0) (.blockInUse .untypedSequence length)
  let log2MinGrowth := sizing.log2MinGrowth
  let capacity ← grownCapacity 0 sizing.capacity log2MinGrowth
  let dataCapacity ←
    if sizing.dataCapacity = 0 then pure 0
    else grownCapacity 0 sizing.dataCapacity log2MinGrowth
  let layout ← Layout.compute capacity dataCapacity
  let header : Header := {
    magic
    count := 0
    capacity := ← toWord32 capacity .slotCapacity
    dataCapacity := ← toWord32 dataCapacity .arenaCapacity
    dataAllocated := 0
    log2MinGrowth
    spare := (0, 0) }
  Store.resize layout.total
  writeHeader header

/-- Attaches to a sequence in the block. -/
def attach : Store Buffer Unit := do
  let content ← Store.bytes
  demand (headerLength ≤ content.size) (.noHeader .untypedSequence content.size)
  let header ← Header.load content
  demand (header.magic = magic) (.otherContent .untypedSequence)
  let layout ← Layout.ofHeader header
  demand (layout.total ≤ content.size) .truncatedBlock

/-- Gives the storage of the block back. -/
def dispose : Store Buffer Unit :=
  Store.resize 0

/-! ### Growth -/

/-- Moves the sequence to a larger number of elements. -/
def grow (capacity : Nat) : Store Buffer Unit := do
  let before ← header
  require (before.capacity < capacity) .brokenInvariant
  let capacityWord ← toWord32 capacity .slotCapacity
  let old ← Layout.ofHeader before
  let new ← Layout.compute capacity before.dataCapacity
  Store.relocate (old.moves new) new.total
  writeHeader { ← header with capacity := capacityWord }
  Store.report (.slotsGrow .untypedSequence before.capacity capacity)

/-- Makes room for at least `capacity` elements. -/
def setCapacity (capacity : Nat) : Store Buffer Unit := do
  let header ← header
  if header.capacity < capacity then
    grow (← grownCapacity header.count capacity header.log2MinGrowth)

/-- Makes room for at least `required` bytes in the arena. -/
def ensureData (required : Nat) : Store Buffer Unit := do
  let before ← header
  if before.dataCapacity < required then
    let dataCapacity ← grownDataCapacity before.dataCapacity required before.log2MinGrowth
    let dataCapacityWord ← toWord32 dataCapacity .arenaCapacity
    let new ← Layout.compute before.capacity dataCapacity
    Store.resize new.total
    writeHeader { ← header with dataCapacity := dataCapacityWord }
    Store.report (.arenaGrows .untypedSequence before.dataCapacity dataCapacity)

/-! ### Adding -/

/-- Writes a new element behind all others and answers its index. -/
def place (datum : Datum) (offset align : Nat) : Edit Image Nat := do
  let index := (← get).header.count
  putElement index offset datum.type.size datum.type.tag align
  putData offset datum.bytes
  let count ← successor index
  modify fun image => { image with
    header := { image.header with dataAllocated := offset + datum.bytes.size, count } }
  return index

/-- Appends a value and answers its index. -/
def add (datum : Datum) : Store Buffer Nat := do
  demandStorable datum.type
  let before ← header
  let align := max datum.type.align minElementAlign
  let offset ← orFail (alignUp? before.dataAllocated align) (.overflow .arenaSize)
  let stop ← orFail (size? (offset + datum.type.size)) (.overflow .arenaSize)
  let offset ← toWord32 offset .arenaSize
  let stop ← toWord32 stop .arenaSize
  if before.count = before.capacity then
    grow (← nextCapacity before.count before.capacity before.log2MinGrowth)
  ensureData stop
  Store.edit format (place datum offset align)

/-! ### Reading and writing -/

/-- An index of an element. -/
def demandIndex (index : Nat) : Store Buffer Unit := do
  let count := (← header).count
  demand (index < count) (.indexOutOfRange index count)

/-- The tag of an element. -/
def tagAt (index : Nat) : Store Buffer TypeTag := do
  demandIndex index
  Store.view format fun image => fetch image.types index

/-- The size of an element. -/
def sizeAt (index : Nat) : Store Buffer Nat := do
  demandIndex index
  Store.view format fun image => fetch image.sizes index

/-- The bytes of an element. -/
def contentAt (image : Image) (index : Nat) : Checked Bytes := do
  let offset ← fetch image.offsets index
  let size ← fetch image.sizes index
  orFail (image.data.slice? offset size) (.fault .outOfRange)

/-- The tag and the bytes of an element. -/
def bytesAt (index : Nat) : Store Buffer (TypeTag × Bytes) := do
  demandIndex index
  Store.view format fun image => do
    let content ← contentAt image index
    return (← fetch image.types index, content)

/-- The value of an element as a type. -/
def readAt (index : Nat) (type : ElementType) (image : Image) : Checked Bytes := do
  let size ← fetch image.sizes index
  demandType (.index index) (← fetch image.types index) size type
  let content ← contentAt image index
  require ((← fetch image.offsets index) % type.align = 0) .misaligned
  return content

/-- The value of an element, which must have been stored as a value of the type. -/
def elementAt (index : Nat) (type : ElementType) : Store Buffer Bytes := do
  demandIndex index
  Store.view format (readAt index type)

/-- Replaces the value of an element by another one of its type and answers the old one. -/
def exchange (index : Nat) (datum : Datum) : Store Buffer Bytes := do
  demandIndex index
  Store.edit format do
    let image ← get
    let old ← readAt index datum.type image
    putData (← fetch image.offsets index) datum.bytes
    return old

/-! ### Removing -/

/-- Removes an element and moves all later ones down by one. -/
def removeAt (index : Nat) : Store Buffer Unit := do
  demandIndex index
  let length ← Store.edit format do
    let count := (← get).header.count
    removeDescriptor index count
    let start ← endBefore (← get) index
    let length ← repack (List.range' index (count - 1 - index)) start
    modify fun image => { image with
      header := { image.header with count := count - 1, dataAllocated := length % 2 ^ 32 } }
    return length
  Store.report (.elementRemoved index length)

/-- Removes all elements and keeps the capacities. -/
def clear : Store Buffer Unit := do
  writeHeader { ← header with count := 0, dataAllocated := 0 }

/-! ### Listing -/

/-- The listing of the counts and the tags, with a text for each tag. -/
def listing (tagText : TypeTag → String) : Store Buffer String :=
  Store.view format fun image => do
    let header := image.header
    let tags ← takeFront? image.types header.count
    let types := ", ".intercalate (tags.map (TypeTag.listing tagText))
    return s!"UntypedSeq \x7b len: {header.count}, capacity: {header.capacity}, "
      ++ s!"data_allocated: {header.dataAllocated}, data_capacity: {header.dataCapacity}, "
      ++ s!"types: [{types}] \x7d"

end PackedStore.UntypedSequence
