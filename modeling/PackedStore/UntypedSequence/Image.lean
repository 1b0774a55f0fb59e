/-
This file reads a sequence out of its byte block and writes it back, and holds
the changes of its parts: appending a descriptor with its value, and closing the
gap that a removed element leaves in the arrays and in the arena.
-/

import PackedStore.Edit
import PackedStore.Host.Store
import PackedStore.Slots.ValueCells
import PackedStore.UntypedSequence.Layout

namespace PackedStore.UntypedSequence

/-- The parts of a sequence. -/
structure Image where
  layout : Layout
  header : Header
  /-- The arena offset of each element. -/
  offsets : Array Nat
  sizes : Array Nat
  types : Array TypeTag
  aligns : Array Nat
  data : Bytes

namespace Image

/-- The sequence that a block holds. -/
def load (bytes : Bytes) : Checked Image := do
  let header ← Header.load bytes
  let layout ← Layout.ofHeader header
  require (layout.total ≤ bytes.size) .outOfRange
  let capacity := header.capacity
  return {
    layout
    header
    offsets := (Codec.nat 4).readArray bytes layout.offsets.offset capacity
    sizes := (Codec.nat 4).readArray bytes layout.sizes.offset capacity
    types := TypeTag.codec.readArray bytes layout.types.offset capacity
    aligns := (Codec.nat 4).readArray bytes layout.aligns.offset capacity
    data := bytes.extract layout.data.offset layout.data.stop }

/-- The block with the parts of the sequence replaced. -/
def save (image : Image) (bytes : Bytes) : Bytes :=
  Segment.writeAll bytes [
    (image.layout.header, image.header.words.flatMap (Bytes.littleEndian 4)),
    (image.layout.offsets, (Codec.nat 4).encodeArray image.offsets),
    (image.layout.sizes, (Codec.nat 4).encodeArray image.sizes),
    (image.layout.types, TypeTag.codec.encodeArray image.types),
    (image.layout.aligns, (Codec.nat 4).encodeArray image.aligns),
    (image.layout.data, image.data.toList)]

end Image

/-- How a sequence stands in a block. -/
def format : ImageFormat Image where
  load := Image.load
  save := Image.save

/-! ### Changing parts of the image -/

/-- Records where an element stands and of what size, type and alignment it is. -/
def putElement (index offset : Nat) (size : Nat) (tag : TypeTag) (align : Nat) :
    Edit Image Unit := do
  let image ← get
  require (index < image.offsets.size) .outOfRange
  set { image with
    offsets := image.offsets.setIfInBounds index offset
    sizes := image.sizes.setIfInBounds index size
    types := image.types.setIfInBounds index tag
    aligns := image.aligns.setIfInBounds index align }

/-- Puts bytes into the arena. -/
def putData (offset : Nat) (content : Bytes) : Edit Image Unit := do
  let image ← get
  require (offset + content.size ≤ image.data.size) .outOfRange
  set { image with data := image.data.patch offset content.toList }

/-- Takes the descriptor of an element out of the first `count` ones. -/
def removeDescriptor (index count : Nat) : Edit Image Unit := do
  let image ← get
  let offsets ← moveDown? image.offsets index 1 count
  let sizes ← moveDown? image.sizes index 1 count
  let types ← moveDown? image.types index 1 count
  let aligns ← moveDown? image.aligns index 1 count
  set { image with offsets, sizes, types, aligns }

/-- Moves the value of an element to the first aligned offset from `cursor` on and answers where
it ends. -/
def repackElement (index cursor : Nat) : Edit Image Nat := do
  let image ← get
  let old ← fetch image.offsets index
  let size ← fetch image.sizes index
  let align ← fetch image.aligns index
  require (align = 2 ^ ceilLog2 align) .brokenInvariant
  let new := (alignUp? cursor align).getD old
  require (new ≤ old) .brokenInvariant
  putData new (← orFail (image.data.slice? old size) (.fault .outOfRange))
  modify fun image => { image with offsets := image.offsets.setIfInBounds index new }
  return new + size

/-- Moves the values of elements down, one behind the other from `cursor` on, and answers where
the last one ends. -/
def repack : List Nat → Nat → Edit Image Nat
  | [], cursor => return cursor
  | index :: rest, cursor => do
    repack rest (← repackElement index cursor)

/-- Where the value in front of an element ends. -/
def endBefore (image : Image) (index : Nat) : Checked Nat := do
  if index = 0 then
    return 0
  else
    let stop := (← fetch image.offsets (index - 1)) + (← fetch image.sizes (index - 1))
    require (stop < 2 ^ 32) .overflow
    return stop

end PackedStore.UntypedSequence
