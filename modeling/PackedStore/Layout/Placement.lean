/-
This file holds ranges of a byte block and how they are placed one behind another.
A placement keeps the first free position; each array starts at the next multiple
of its alignment, each arena at the next multiple of the block's alignment. A
segment that does not fit into the sizes is not placed and leaves the placement as
it was. Taken in order, segments do not overlap, so writing to one never changes
another. In front of every container stands a header of eight words of four bytes,
the first of which names the kind of content.
-/

import PackedStore.Arithmetic.PowerOfTwo
import PackedStore.Bytes.Codec
import PackedStore.Edit

namespace PackedStore

/-! ### Segments -/

/-- A range of a byte block. -/
structure Segment where
  offset : Nat
  length : Nat
deriving DecidableEq, Repr

namespace Segment

/-- The first position behind the segment. -/
def stop (segment : Segment) : Nat :=
  segment.offset + segment.length

/-- The content of the segment, which must lie inside the block. -/
def slice (segment : Segment) (bytes : Bytes) : Checked Bytes :=
  orFail (bytes.slice? segment.offset segment.length) (.fault .outOfRange)

/-- The contents of segments taken in order, none of which may start before a position. -/
def carveFrom (bytes : Bytes) (position : Nat) : List Segment → Checked (List Bytes)
  | [] => .ok []
  | segment :: rest => do
    demand (position ≤ segment.offset) .overlappingSegments
    let content ← segment.slice bytes
    let others ← carveFrom bytes segment.stop rest
    return content :: others

/-- The contents of segments taken in order from the front of a block. -/
def carve (bytes : Bytes) (segments : List Segment) : Checked (List Bytes) :=
  carveFrom bytes 0 segments

/-- The block with new contents written through segments. -/
def writeAll (bytes : Bytes) (contents : List (Segment × List UInt8)) : Bytes :=
  contents.foldl (fun block entry => block.patch entry.1.offset entry.2) bytes

end Segment

/-! ### Placing segments -/

/-- The state of placing segments. -/
structure Placement where
  /-- The first position behind all placed segments. -/
  cursor : Nat
deriving DecidableEq, Repr

namespace Placement

/-- Nothing placed. -/
def start : Placement := ⟨0⟩

/-- Places a segment at the next multiple of an alignment. -/
def place (length align : Nat) : Edit Placement Segment := do
  let offset ← orFail (alignUp? (← get).cursor align) (.overflow .layoutSize)
  let stop ← orFail (size? (offset + length)) (.overflow .layoutSize)
  set (Placement.mk stop)
  return { offset, length }

/-- Places an array of `count` members of a size and an alignment, which a block must support. -/
def array (count size align : Nat) : Edit Placement Segment := do
  demand (align ≤ blockAlign) (.arrayAlignment align)
  place (← orFail (size? (count * size)) (.overflow .arraySize)) align

/-- Places an array of values of a type. -/
def arrayOf (count : Nat) (type : ElementType) : Edit Placement Segment :=
  array count type.size type.align

/-- Places an arena, which suits every type that can be stored. -/
def arena (length : Nat) : Edit Placement Segment :=
  place length blockAlign

/-- Runs a placement from the start and hands the total length to its result. -/
def total {α : Type} (placing : Edit Placement (Nat → α)) : Checked α :=
  match placing start with
  | .ok result placed => .ok (result placed.cursor)
  | .error failure _ => .error failure

end Placement

/-- A layout that was valid when its numbers were written to a header. -/
def recorded {α : Type} (layout : Checked α) : Checked α :=
  match layout with
  | .ok layout => .ok layout
  | .error _ => .error (.fault .brokenInvariant)

/-- The words in front of every container. -/
def headerWords : Nat := 8

/-- The byte length of a header. -/
def headerLength : Nat := 4 * headerWords

/-! ### Headers -/

/-- The words of a header. -/
abbrev HeaderWords := List Nat

namespace HeaderWords

/-- The words in front of a block, which must be long enough. -/
def load (bytes : Bytes) : Checked HeaderWords := do
  require (headerLength ≤ bytes.size) .outOfRange
  return ((Codec.nat 4).readArray bytes 0 headerWords).toList

/-- The block with the words of its header replaced. -/
def save (words : HeaderWords) (bytes : Bytes) : Bytes :=
  bytes.patch 0 (words.flatMap (Bytes.littleEndian 4))

/-- The word that four characters spell, the first one in the lowest byte. -/
def magic (first second third fourth : Char) : Nat :=
  Bytes.toNat ([first, second, third, fourth].map fun letter => UInt8.ofNat letter.toNat)

end HeaderWords

/-- Tags stored as words of four bytes. -/
def TypeTag.codec : Codec TypeTag where
  width := 4
  encode tag := Codec.word32.encode tag.word
  decode content := ⟨Codec.word32.decode content⟩

end PackedStore
