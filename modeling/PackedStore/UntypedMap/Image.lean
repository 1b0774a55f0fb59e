/-
This file reads a map out of its byte block and writes it back. The image of a
map holds its header, its hash table, its value words with the arena, and for
each slot the tag and the size of the value.
-/

import PackedStore.Host.Store
import PackedStore.Slots.HashChains
import PackedStore.Slots.ValueCells
import PackedStore.UntypedMap.Layout

namespace PackedStore.UntypedMap

/-- The parts of a map. -/
structure Image where
  layout : Layout
  header : Header
  cells : ValueCells
  chains : HashChains Bytes
  types : Array TypeTag
  sizes : Array Nat

namespace Image

/-- The map with keys of a type that a block holds. -/
def load (key : ElementType) (bytes : Bytes) : Checked Image := do
  let header ← Header.load bytes
  let layout ← Layout.ofHeader key header
  require (layout.total ≤ bytes.size) .outOfRange
  let capacity := header.capacity
  return {
    layout
    header
    cells := {
      words := Codec.word32.readArray bytes layout.values.offset capacity
      arena := bytes.extract layout.data.offset layout.data.stop }
    chains := {
      keys := (Codec.cell key.size).readArray bytes layout.keys.offset capacity
      next := Link.codec.readArray bytes layout.next.offset capacity
      buckets := Link.codec.readArray bytes layout.buckets.offset header.bucketCapacity }
    types := TypeTag.codec.readArray bytes layout.types.offset capacity
    sizes := (Codec.nat 2).readArray bytes layout.sizes.offset capacity }

/-- The block with the parts of the map replaced. -/
def save (key : ElementType) (image : Image) (bytes : Bytes) : Bytes :=
  Segment.writeAll bytes [
    (image.layout.header, image.header.words.flatMap (Bytes.littleEndian 4)),
    (image.layout.values, Codec.word32.encodeArray image.cells.words),
    (image.layout.keys, (Codec.cell key.size).encodeArray image.chains.keys),
    (image.layout.next, Link.codec.encodeArray image.chains.next),
    (image.layout.buckets, Link.codec.encodeArray image.chains.buckets),
    (image.layout.types, TypeTag.codec.encodeArray image.types),
    (image.layout.sizes, (Codec.nat 2).encodeArray image.sizes),
    (image.layout.data, image.cells.arena.toList)]

end Image

/-- How a map with keys of a type stands in a block. -/
def format (key : ElementType) : ImageFormat Image where
  load := Image.load key
  save := Image.save key

/-! ### Changing parts of the image -/

variable {α : Type}

/-- Changes the hash table. -/
def onChains (change : Edit (HashChains Bytes) α) : Edit Image α :=
  change.onPart Image.chains fun chains image => { image with chains }

/-- Changes the values. -/
def onCells (change : Edit ValueCells α) : Edit Image α :=
  change.onPart Image.cells fun cells image => { image with cells }

/-- Records the tag of a slot's value. -/
def putType (slot : Nat) (tag : TypeTag) : Edit Image Unit := do
  let image ← get
  require (slot < image.types.size) .outOfRange
  set { image with types := image.types.setIfInBounds slot tag }

/-- Records the size of a slot's value. -/
def putSize (slot size : Nat) : Edit Image Unit := do
  let image ← get
  require (slot < image.sizes.size) .outOfRange
  set { image with sizes := image.sizes.setIfInBounds slot size }

/-- Changes the header. -/
def putHeader (change : Header → Header) : Edit Image Unit :=
  modify fun image => { image with header := change image.header }

end PackedStore.UntypedMap
