/-
This file holds the three ways in which an operation on a container ends without
an answer, and the texts that describe them. A storage error says that a resource
ran out: the host refused a length, or a quantity left its range. A misuse says
that the caller broke a rule of the operation. A fault says that the block does
not hold what a container wrote; a block that only containers wrote shows none.
-/

import PackedStore.Element.Basic

namespace PackedStore

/-! ### Storage errors -/

/-- A quantity that can leave its range. -/
inductive Quantity where
  | layoutSize
  | arraySize
  | bucketCapacity
  | minimalGrowth
  | slotCapacity
  | arenaCapacity
  | arenaOffset
  | arenaSize
  | keySize
  | rowSize
  /-- A number without a role of its own. -/
  | bareValue
deriving DecidableEq, Repr

/-- The name of a quantity in messages. -/
def Quantity.text : Quantity → String
  | .layoutSize => "layout size"
  | .arraySize => "array size"
  | .bucketCapacity => "bucket capacity"
  | .minimalGrowth => "minimal growth"
  | .slotCapacity => "slot capacity"
  | .arenaCapacity => "arena capacity"
  | .arenaOffset => "arena offset"
  | .arenaSize => "arena size"
  | .keySize => "key size"
  | .rowSize => "row size"
  | .bareValue => "the value"

/-- A resource ran out. -/
inductive StorageError where
  /-- The host could not be resized to the requested length. -/
  | allocationFailed (requested : Nat)
  /-- A capacity or byte size does not fit its place. -/
  | capacityOverflow (what : Quantity)
deriving DecidableEq, Repr

/-- The text of a storage error. -/
def StorageError.message : StorageError → String
  | .allocationFailed requested => s!"failed to resize host buffer to {requested} bytes"
  | .capacityOverflow what => s!"capacity overflow: {what.text} exceeds the supported maximum"

/-! ### Misuse -/

/-- The kinds of containers. -/
inductive ContainerKind where
  | untypedMap
  | untypedSequence
  | indexedMap
deriving DecidableEq, Repr

namespace ContainerKind

/-- The container, as the content that a block holds or does not hold. -/
def described : ContainerKind → String
  | .untypedMap => "an untyped map"
  | .untypedSequence => "an untyped sequence"
  | .indexedMap => "an indexed map"

/-- The container, as the thing that a block is to become. -/
def noun : ContainerKind → String
  | .untypedSequence => "sequence"
  | .untypedMap | .indexedMap => "map"

end ContainerKind

/-- Where a container keeps a value. -/
inductive Place where
  | slot (number : Nat)
  | index (number : Nat)
deriving DecidableEq, Repr

def Place.text : Place → String
  | .slot number => s!"slot {number}"
  | .index number => s!"index {number}"

/-- A rule of an operation that the caller broke. -/
inductive Misuse where
  /-- A value of the type would need more alignment than a block has. -/
  | overAligned (type : ElementType)
  /-- A value of the type has no bytes. -/
  | zeroSized (type : ElementType)
  /-- Raw bytes of a value are missing. -/
  | emptyValue
  /-- A value was accessed as another type than the one it was stored with. -/
  | typeMismatch (place : Place) (stored : TypeTag) (size : Nat) (accessed : ElementType)
  /-- A value would be replaced by one of another size; raw bytes come without a type. -/
  | sizeMismatch (slot stored : Nat) (replacement : Option ElementType) (size : Nat)
  /-- The size of a value has no room beside its tag. -/
  | valueTooLarge (size : Nat)
  /-- A key was added that is already there. -/
  | duplicateKey
  /-- A container was to be created in a block that is in use. -/
  | blockInUse (kind : ContainerKind) (length : Nat)
  /-- A block is too short to hold a header. -/
  | noHeader (kind : ContainerKind) (length : Nat)
  /-- A block's header names other content. -/
  | otherContent (kind : ContainerKind)
  /-- A map was created with keys of another type. -/
  | otherKeyType (key : ElementType)
  /-- An indexed map was created with rows of another size. -/
  | otherRowTypes
  /-- A block is shorter than its header says. -/
  | truncatedBlock
  /-- There is no element with the index. -/
  | indexOutOfRange (index length : Nat)
  /-- There are no rows in a part of the slots. -/
  | rowsOutOfRange (start count rows : Nat)
  /-- Rows were to be moved in a map whose slots are not all in use. -/
  | holes
  /-- An array would need more alignment than a block has. -/
  | arrayAlignment (align : Nat)
  /-- A segment was taken that starts before the end of the one taken last. -/
  | overlappingSegments
  /-- A segment was to be moved to a shorter one. -/
  | shorterSegment
  /-- A value was to be written to the wrong one of the two places for its size. -/
  | wrongPlaceForSize (size : Nat)
deriving DecidableEq, Repr

/-- The text of a misuse, with a text for the tag of a stored value. -/
def Misuse.message (tagText : TypeTag → String) : Misuse → String
  | .overAligned type =>
    s!"type {type.name} has alignment {type.align}, at most {blockAlign} is supported"
  | .zeroSized type => s!"zero sized type {type.name} cannot be stored"
  | .emptyValue => "an empty value cannot be stored"
  | .typeMismatch place stored size accessed =>
    s!"type mismatch at {place.text}: stored value has tag {tagText stored} and size {size}, "
      ++ s!"accessed as {accessed.name} with size {accessed.size}"
  | .sizeMismatch slot stored replacement size =>
    let what := match replacement with
      | some type => type.name
      | none => "the new value"
    s!"size mismatch at slot {slot}: stored value has {stored} bytes, {what} has {size}"
  | .valueTooLarge size => s!"value of {size} bytes is too large for an untyped map"
  | .duplicateKey => "an item with the same key has already been added"
  | .blockInUse kind length => s!"cannot initialize a {kind.noun} in a buffer of {length} bytes"
  | .noHeader kind length => s!"buffer of {length} bytes does not hold {kind.described}"
  | .otherContent kind => s!"buffer does not hold {kind.described}"
  | .otherKeyType key =>
    s!"untyped map was created with a different key type than {key.name}"
  | .otherRowTypes => "indexed map was created with different row types"
  | .indexOutOfRange index length =>
    s!"index {index} is out of range for a sequence of length {length}"
  | .rowsOutOfRange start count rows =>
    let stop := min (start + count) (2 ^ 64 - 1)
    s!"range {start}..{stop} is out of bounds for an indexed map with {rows} rows"
  | .holes => "cannot shift rows of an indexed map with holes, flatten it first"
  | .arrayAlignment align => s!"element alignment {align} exceeds buffer alignment {blockAlign}"
  | .overlappingSegments => "overlapping segments"
  | .truncatedBlock | .shorterSegment | .wrongPlaceForSize _ => "assertion failed"

/-! ### Failures -/

/-- What was wrong with the content of a block. -/
inductive Fault where
  /-- A position lies outside its array. -/
  | outOfRange
  /-- A number leaves the range of its place. -/
  | overflow
  /-- A value stands at an offset that its type does not allow. -/
  | misaligned
  /-- A chain of links never ends. -/
  | endlessChain
  /-- A rule that holds of every container is broken. -/
  | brokenInvariant
deriving DecidableEq, Repr

/-- Why an operation has no answer. -/
inductive Failure where
  | storage (error : StorageError)
  | misuse (rule : Misuse)
  | fault (cause : Fault)
deriving DecidableEq, Repr

/-- The failure of a quantity that left its range. -/
def Failure.overflow (what : Quantity) : Failure :=
  .storage (.capacityOverflow what)

end PackedStore
