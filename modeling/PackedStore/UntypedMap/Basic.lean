/-
This file holds the operations on a map from keys of one type to values of any
type. Entries take the slots from zero on in the order of their insertion, and
stay there; there is no removal of single entries. A value remembers the tag and
the size it was stored with, and is read only as the type they stand for. When
the slots or the arena run out, the block is resized and laid out anew; a resize
that the host refuses leaves all entries as they were.
-/

import PackedStore.Sizing
import PackedStore.Slots.ValueCells
import PackedStore.UntypedMap.Image

namespace PackedStore.UntypedMap

variable {Buffer : Type} [Host Buffer]

/-! ### Creating and attaching -/

/-- The header of the map in the block. -/
def header : Store Buffer Header := do
  Header.load (← Store.bytes)

/-- Replaces the header of the map in the block. -/
def writeHeader (header : Header) : Store Buffer Unit := do
  Store.write (header.words.save (← Store.bytes))

/-- Creates an empty map with keys of a type in an empty block. -/
def init (key : KeyType) (sizing : Sizing) : Store Buffer Unit := do
  let length ← Store.length
  demand (length = 0) (.blockInUse .untypedMap length)
  let log2MinGrowth := sizing.log2MinGrowth
  let capacity ← grownCapacity 0 sizing.capacity log2MinGrowth
  let bucketCapacity ← bucketCapacityFor capacity
  let dataCapacity ←
    if sizing.dataCapacity = 0 then pure 0
    else grownCapacity 0 sizing.dataCapacity log2MinGrowth
  let layout ← Layout.compute key.toElementType capacity bucketCapacity dataCapacity
  let header : Header := {
    magic
    count := 0
    capacity := ← toWord32 capacity .slotCapacity
    bucketCapacity := ← toWord32 bucketCapacity .bucketCapacity
    dataCapacity := ← toWord32 dataCapacity .arenaCapacity
    dataAllocated := 0
    log2MinGrowth
    keySize := ← toWord32 key.size .keySize }
  Store.resize layout.total
  writeHeader header
  Store.edit (format key.toElementType) (onChains HashChains.clear)

/-- Attaches to a map in the block, which must have been created with keys of the type. -/
def attach (key : KeyType) : Store Buffer Unit := do
  let content ← Store.bytes
  demand (headerLength ≤ content.size) (.noHeader .untypedMap content.size)
  let header ← Header.load content
  demand (header.magic = magic) (.otherContent .untypedMap)
  demand (header.keySize = key.size) (.otherKeyType key.toElementType)
  let layout ← Layout.ofHeader key.toElementType header
  demand (layout.total ≤ content.size) .truncatedBlock

/-- Gives the storage of the block back. -/
def dispose : Store Buffer Unit :=
  Store.resize 0

/-! ### Growth -/

/-- Moves the map to a larger number of slots and links all entries anew. -/
def grow (key : KeyType) (capacity : Nat) : Store Buffer Unit := do
  let before ← header
  require (before.capacity < capacity) .brokenInvariant
  let bucketCapacity ← bucketCapacityFor capacity
  let capacityWord ← toWord32 capacity .slotCapacity
  let bucketCapacityWord ← toWord32 bucketCapacity .bucketCapacity
  let old ← Layout.ofHeader key.toElementType before
  let new ← Layout.compute key.toElementType capacity bucketCapacity before.dataCapacity
  let oldBuckets ← Store.view (format key.toElementType) fun image => return image.chains.buckets
  Store.relocate (old.moves new) new.total
  writeHeader
    { ← header with capacity := capacityWord, bucketCapacity := bucketCapacityWord }
  Store.edit (format key.toElementType) <| onChains do
    HashChains.endLinksFrom before.capacity
    HashChains.rehash key.hash oldBuckets
  Store.report (.slotsGrow .untypedMap before.capacity capacity)
  Store.report (.rehashed oldBuckets.size bucketCapacity)

/-- Makes room for at least `capacity` slots. -/
def setCapacity (key : KeyType) (capacity : Nat) : Store Buffer Unit := do
  let header ← header
  if header.capacity < capacity then
    grow key (← grownCapacity header.count capacity header.log2MinGrowth)

/-- Makes room for at least `required` words in the arena. The arena is the last segment, so all
other parts stay in place. -/
def ensureData (key : KeyType) (required : Nat) : Store Buffer Unit := do
  let before ← header
  if before.dataCapacity < required then
    let dataCapacity ← grownDataCapacity before.dataCapacity required before.log2MinGrowth
    let dataCapacityWord ← toWord32 dataCapacity .arenaCapacity
    let new ← Layout.compute key.toElementType before.capacity before.bucketCapacity dataCapacity
    Store.resize new.total
    writeHeader { ← header with dataCapacity := dataCapacityWord }
    Store.report (.arenaGrows .untypedMap before.dataCapacity dataCapacity)

/-- Makes room for at least `additional` more words in the arena, padding not counted. -/
def reserveData (key : KeyType) (additional : Nat) : Store Buffer Unit := do
  let header ← header
  let required ← orFail (size? (header.dataAllocated + additional)) (.overflow .arenaCapacity)
  ensureData key required

/-- Takes room for a value from the arena and answers its word offset. -/
def allocate (key : KeyType) (size align : Nat) : Store Buffer Nat := do
  let before ← header
  let allocation ←
    orFail (planAllocation before.dataAllocated size align) (.overflow .arenaCapacity)
  let offset ← toWord32 allocation.offset .arenaOffset
  let stop ← toWord32 allocation.stop .arenaOffset
  ensureData key allocation.stop
  writeHeader { ← header with dataAllocated := stop }
  return offset

/-! ### Searching and reading -/

/-- The slot of a key. -/
def find (key : KeyType) (wanted : Bytes) : Store Buffer (Option Nat) :=
  Store.view (format key.toElementType) fun image => image.chains.find key.hash wanted

/-- Whether a key is present. -/
def contains (key : KeyType) (wanted : Bytes) : Store Buffer Bool := do
  return (← find key wanted).isSome

/-- The value in a slot, which must have been stored as a value of the type. -/
def readSlot (slot : Nat) (type : ElementType) (image : Image) : Checked Bytes := do
  let tag ← fetch image.types slot
  let size ← fetch image.sizes slot
  demandType (.slot slot) tag size type
  image.cells.read slot type

/-- The value of a key, which must have been stored as a value of the type. -/
def get? (key : KeyType) (wanted : Bytes) (type : ElementType) : Store Buffer (Option Bytes) :=
  Store.view (format key.toElementType) fun image => do
    match ← image.chains.find key.hash wanted with
    | none => return none
    | some slot => return some (← readSlot slot type image)

/-- The tag and the bytes of the value of a key. -/
def getBytes? (key : KeyType) (wanted : Bytes) : Store Buffer (Option (TypeTag × Bytes)) :=
  Store.view (format key.toElementType) fun image => do
    match ← image.chains.find key.hash wanted with
    | none => return none
    | some slot =>
      let content ← image.cells.bytes slot (← fetch image.sizes slot)
      return some (← fetch image.types slot, content)

/-- All keys in the order of their insertion. -/
def keys (key : KeyType) : Store Buffer (List Bytes) :=
  Store.view (format key.toElementType) fun image =>
    takeFront? image.chains.keys image.header.count

/-! ### Storing -/

/-- Writes a new entry behind all others. A large value goes to the arena offset taken for it. -/
def place (key : KeyType) (entryKey : Bytes) (payload : Payload) (offset : Option Nat) :
    Edit Image Nat := do
  let slot := (← get).header.count
  onChains (HashChains.insert key.hash slot entryKey)
  putType slot payload.tag
  putSize slot payload.bytes.size
  match offset with
  | some offset => onCells (ValueCells.writeLarge slot offset payload.bytes)
  | none => onCells (ValueCells.writeInline slot payload.bytes)
  let count ← successor slot
  putHeader fun header => { header with count }
  return slot

/-- Inserts a key that is not present and answers its slot. -/
def insertNew (key : KeyType) (entryKey : Bytes) (payload : Payload) : Store Buffer Nat := do
  let size := payload.bytes.size
  demand (size < 2 ^ 16) (.valueTooLarge size)
  let before ← header
  if before.count = before.capacity then
    grow key (← nextCapacity before.count before.capacity before.log2MinGrowth)
  let offset ←
    if isLarge size then some <$> allocate key size payload.align else pure none
  Store.edit (format key.toElementType) (place key entryKey payload offset)

/-- Stores a value for a key that has one of the same size. The place is kept unless it is not
aligned for the new value, which then moves to a new place in the arena. -/
def replace (key : KeyType) (slot : Nat) (payload : Payload) : Store Buffer Unit := do
  let size := payload.bytes.size
  let (stored, word) ← Store.view (format key.toElementType) fun image =>
    return (← fetch image.sizes slot, ← fetch image.cells.words slot)
  demand (stored = size) (.sizeMismatch slot stored payload.type size)
  let aligned ← if isLarge size then isAligned word.toNat payload.align else pure true
  if aligned then
    Store.edit (format key.toElementType) do
      putType slot payload.tag
      onCells (ValueCells.overwrite slot payload.bytes)
  else
    let offset ← allocate key size payload.align
    Store.edit (format key.toElementType) (putType slot payload.tag)
    Store.report (.valueMoved slot offset)
    Store.edit (format key.toElementType)
      (onCells (ValueCells.writeLarge slot offset payload.bytes))

/-- Stores a value for a key, whether it is present or not. -/
def store (key : KeyType) (entryKey : Bytes) (payload : Payload) : Store Buffer Unit := do
  match ← find key entryKey with
  | some slot => replace key slot payload
  | none => discard (insertNew key entryKey payload)

/-- Inserts a key that must not be present. -/
def insertUnique (key : KeyType) (entryKey : Bytes) (payload : Payload) : Store Buffer Nat := do
  let present ← contains key entryKey
  demand (present = false) .duplicateKey
  insertNew key entryKey payload

/-- Inserts a key that must not be present and answers its slot. -/
def add (key : KeyType) (entryKey : Bytes) (datum : Datum) : Store Buffer Nat := do
  demandStorable datum.type
  insertUnique key entryKey datum.payload

/-- Stores a value for a key. A present value must have the same size. -/
def addOrSet (key : KeyType) (entryKey : Bytes) (datum : Datum) : Store Buffer Unit := do
  demandStorable datum.type
  store key entryKey datum.payload

/-- Inserts a key that must not be present with the raw bytes of a value. -/
def addBytes (key : KeyType) (entryKey : Bytes) (tag : TypeTag) (content : Bytes) :
    Store Buffer Nat := do
  demand (content.size ≠ 0) .emptyValue
  insertUnique key entryKey (Payload.raw tag content)

/-- Stores the raw bytes of a value for a key. A present value must have the same size. -/
def addOrSetBytes (key : KeyType) (entryKey : Bytes) (tag : TypeTag) (content : Bytes) :
    Store Buffer Unit := do
  demand (content.size ≠ 0) .emptyValue
  store key entryKey (Payload.raw tag content)

/-- The value of a key, which is inserted with a default value if it is not present. -/
def getOrAdd (key : KeyType) (entryKey : Bytes) (default : Datum) : Store Buffer Bytes := do
  demandStorable default.type
  let slot ← match ← find key entryKey with
    | some slot => pure slot
    | none => insertNew key entryKey default.payload
  Store.view (format key.toElementType) (readSlot slot default.type)

/-- Replaces the value of a key by another one of its type and answers the old one. -/
def exchange (key : KeyType) (wanted : Bytes) (datum : Datum) : Store Buffer (Option Bytes) := do
  match ← find key wanted with
  | none => return none
  | some slot =>
    Store.edit (format key.toElementType) do
      let old ← readSlot slot datum.type (← get)
      onCells (ValueCells.overwrite slot datum.bytes)
      return some old

/-- Removes all entries and keeps the capacities. -/
def clear (key : KeyType) : Store Buffer Unit :=
  Store.edit (format key.toElementType) do
    putHeader fun header => { header with count := 0, dataAllocated := 0 }
    onChains HashChains.clear

/-- Adds the entries of a map in another host, as raw bytes and in the order of their insertion,
and answers their slots. The other host is only read. -/
def copyFrom {Source : Type} [Host Source] (key : KeyType) (source : Site Source) :
    Store Buffer (List Nat) := do
  let present ← Store.readFrom source (keys key)
  present.mapM fun entryKey => do
    match ← Store.readFrom source (getBytes? key entryKey) with
    | none => throw (.fault .brokenInvariant)
    | some (tag, content) => addBytes key entryKey tag content

/-! ### Listing -/

/-- The listing of the counts and the keys, with a text for each key. -/
def listing (key : KeyType) (keyText : Bytes → String) : Store Buffer String := do
  let header ← header
  let keys := ", ".intercalate ((← keys key).map keyText)
  return s!"UntypedHashMap \x7b len: {header.count}, capacity: {header.capacity}, "
    ++ s!"data_allocated: {header.dataAllocated}, data_capacity: {header.dataCapacity}, "
    ++ s!"keys: [{keys}] \x7d"

end PackedStore.UntypedMap
