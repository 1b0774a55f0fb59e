/-
This file holds what a container has to know about the types it stores. An
element type is a name, a size, an alignment and a tag; its values are strings of
exactly that many bytes. The tag stands for the type inside a container, next to the
size of the value it describes, and may be any word of 32 bits. A key type also has
a hash function on the bytes, about which nothing else is assumed; its keys are
compared byte by byte, so a type with another equality is no key type here.
-/

import PackedStore.Bytes.Basic
import PackedStore.Hash.WordHash

namespace PackedStore

/-- A 32-bit identity of a type. -/
structure TypeTag where
  word : UInt32
deriving DecidableEq, Repr, Inhabited

/-- The eight lower-case hexadecimal digits of a tag. -/
def TypeTag.hex (tag : TypeTag) : String :=
  hexText 8 tag.word.toNat

/-- The listing of a tag, with a text for it. -/
def TypeTag.listing (tagText : TypeTag → String) (tag : TypeTag) : String :=
  s!"TypeTag({tagText tag})"

/-- The largest alignment that a container's block guarantees. -/
def blockAlign : Nat := 16

/-- A type of fixed-size values. -/
structure ElementType where
  name : String
  /-- Bytes of one value. -/
  size : Nat
  /-- Byte offsets of values are multiples of this. -/
  align : Nat
  /-- What stands for the type beside its values. -/
  tag : TypeTag
deriving DecidableEq, Repr

namespace ElementType

/-- A type whose tag is the folded hash of its name. -/
def named (name : String) (size align : Nat) : ElementType where
  name := name
  size := size
  align := align
  tag := ⟨foldDigest (WordHash.start.text name).finish⟩

/-- Words of 32 bits, of which headers, links and offsets are made. -/
def word32 : ElementType := named "u32" 4 4

/-- Words of 16 bits. -/
def word16 : ElementType := named "u16" 2 2

@[simp] theorem size_word32 : word32.size = 4 := rfl

@[simp] theorem size_word16 : word16.size = 2 := rfl

end ElementType

/-- A type of keys: fixed-size values with a hash function. Two keys are the same exactly when their
bytes are. -/
structure KeyType extends ElementType where
  hash : Bytes → UInt64

/-- A value together with its type. -/
structure Datum where
  type : ElementType
  bytes : Bytes
  size_bytes : bytes.size = type.size

end PackedStore
