/-
This file holds values of any size, one per slot. A slot owns one word of four
bytes. A value that fits stands in the word itself; a larger one stands in an
arena, and the word is its offset there, counted in words. The arena is filled
from the front: an allocation takes the first suitably aligned words behind all
earlier ones, and nothing is given back one by one.

What is stored is the bytes of a value, the tag that will stand beside them and the
alignment that their place needs. A typed value brings the alignment of its type;
for raw bytes only the size is known.
-/

import PackedStore.Arithmetic.PowerOfTwo
import PackedStore.Bytes.Codec
import PackedStore.Edit

namespace PackedStore

/-- The bytes of a slot's word, which is also the unit of the arena. -/
def wordSize : Nat := 4

/-- Whether a value of the size stands in the arena. -/
def isLarge (size : Nat) : Bool :=
  wordSize < size

/-- The number of arena words that a size takes. -/
def wordsFor (size : Nat) : Nat :=
  (size + (wordSize - 1)) / wordSize

/-! ### Planning allocations -/

/-- A part of the arena, in words. -/
structure Allocation where
  offset : Nat
  /-- The first word behind the value. -/
  stop : Nat
deriving DecidableEq, Repr

/-- The allocation for a value behind the first `allocated` words, if it is within the sizes. -/
def planAllocation (allocated size align : Nat) : Option Allocation := do
  let offset ← alignUp? allocated (max (align / wordSize) 1)
  let stop ← size? (offset + wordsFor size)
  return { offset, stop }

/-- Whether a word offset is a multiple of an alignment in bytes. -/
def isAligned (offset align : Nat) : Checked Bool := do
  require (0 < align) .overflow
  return offset * wordSize % align == 0

/-- The alignment for a value of which only the size is known. The size of every type is a
multiple of its alignment, so the value is aligned for all types of the size. -/
def erasedAlign (size : Nat) : Nat :=
  if size % 16 = 0 then 16 else if size % 8 = 0 then 8 else 4

/-! ### Reading and writing -/

/-- The words of all slots and the arena. -/
structure ValueCells where
  words : Array UInt32
  arena : Bytes
deriving DecidableEq, Repr

namespace ValueCells

/-- The bytes of a value of a known size. -/
def bytes (cells : ValueCells) (slot size : Nat) : Checked Bytes := do
  let word ← fetch cells.words slot
  if isLarge size then
    orFail (cells.arena.slice? (word.toNat * wordSize) size) (.fault .outOfRange)
  else
    return ((Bytes.littleEndian wordSize word.toNat).take size).toArray

/-- The offset of a value must suit its type. A word suits every type that fits into it. -/
def checkAligned (cells : ValueCells) (slot : Nat) (type : ElementType) : Checked Unit := do
  let word ← fetch cells.words slot
  if isLarge type.size then
    require ((← isAligned word.toNat type.align) = true) .misaligned

/-- The value of a type. The caller knows that a value of the type is there. -/
def read (cells : ValueCells) (slot : Nat) (type : ElementType) : Checked Bytes := do
  let content ← cells.bytes slot type.size
  cells.checkAligned slot type
  return content

/-- Puts bytes into the arena at a byte offset. -/
def putArena (start : Nat) (content : Bytes) : Edit ValueCells Unit := do
  let cells ← get
  require (start + content.size ≤ cells.arena.size) .outOfRange
  set { cells with arena := cells.arena.patch start content.toList }

/-- Sets the word of a slot. -/
def putWord (slot : Nat) (word : UInt32) : Edit ValueCells Unit := do
  let cells ← get
  require (slot < cells.words.size) .outOfRange
  set { cells with words := cells.words.setIfInBounds slot word }

/-- Writes a small value into the word of a slot, the rest of which becomes zero. -/
def writeInline (slot : Nat) (content : Bytes) : Edit ValueCells Unit := do
  demand (isLarge content.size = false) (.wrongPlaceForSize content.size)
  putWord slot (UInt32.ofNat (Bytes.toNat content.toList))

/-- Writes a large value at a word offset of the arena and records the offset. -/
def writeLarge (slot offset : Nat) (content : Bytes) : Edit ValueCells Unit := do
  demand (isLarge content.size = true) (.wrongPlaceForSize content.size)
  putWord slot (UInt32.ofNat offset)
  putArena (offset * wordSize) content

/-- Replaces a value by one of the same size in the same place. -/
def overwrite (slot : Nat) (content : Bytes) : Edit ValueCells Unit := do
  let word ← fetch (← get).words slot
  if isLarge content.size then
    putArena (word.toNat * wordSize) content
  else
    let kept := (Bytes.littleEndian wordSize word.toNat).drop content.size
    putWord slot (UInt32.ofNat (Bytes.toNat (content.toList ++ kept)))

/-- Replaces a value by another one of its type and answers the old one. -/
def exchange (slot : Nat) (datum : Datum) : Edit ValueCells Bytes := do
  let old ← (← get).read slot datum.type
  overwrite slot datum.bytes
  return old

end ValueCells

/-! ### Payloads -/

/-- A value to be stored without its type. -/
structure Payload where
  tag : TypeTag
  bytes : Bytes
  align : Nat
  /-- The type, where it is known. -/
  type : Option ElementType

/-- A typed value to be stored. -/
def Datum.payload (datum : Datum) : Payload where
  tag := datum.type.tag
  bytes := datum.bytes
  align := datum.type.align
  type := some datum.type

/-- Raw bytes to be stored for a type that is only known by its tag. -/
def Payload.raw (tag : TypeTag) (bytes : Bytes) : Payload where
  tag := tag
  bytes := bytes
  align := erasedAlign bytes.size
  type := none

/-- Values of a type can be stored if a block is aligned for them and they have bytes. -/
def demandStorable (type : ElementType) : Checked Unit := do
  demand (type.align ≤ blockAlign) (.overAligned type)
  demand (0 < type.size) (.zeroSized type)

/-- A stored value is read as a type only if its tag and its size are those of the type. -/
def demandType (place : Place) (stored : TypeTag) (size : Nat) (type : ElementType) :
    Checked Unit :=
  demand (stored = type.tag ∧ size = type.size) (.typeMismatch place stored size type)

end PackedStore
