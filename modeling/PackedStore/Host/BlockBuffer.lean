/-
This file says what a host of containers is: something that holds a byte block and
can be asked for another length. What a resize adds is not specified, what lies
below both lengths is kept, and a refused resize changes nothing, because it has no
result. Containers use a host through these operations only.

One host keeps its bytes in blocks of sixteen and may refuse to grow beyond a limit.
The last block is usually not full; its bytes behind the length stay where they are
until the block is given up. Blocks that are added are zero. The reserve is the
largest number of blocks held since the buffer was last resized to nothing, which
gives all storage back.
-/

import PackedStore.Failure

namespace PackedStore

/-- A holder of a byte block whose length can change. -/
class Host (Buffer : Type) where
  /-- The content of the block. -/
  bytes : Buffer → Bytes
  /-- Replaces the content by one of the same length. -/
  write : Buffer → Bytes → Buffer
  /-- Changes the length of the block. -/
  resize : Buffer → Nat → Except StorageError Buffer

/-- What containers rely on in a host. -/
class LawfulHost (Buffer : Type) [Host Buffer] : Prop where
  /-- What is written is there. -/
  bytes_write : ∀ (buffer : Buffer) (content : Bytes),
    content.size = (Host.bytes buffer).size → Host.bytes (Host.write buffer content) = content
  /-- A resized block has the requested length. -/
  size_resize : ∀ (buffer resized : Buffer) (length : Nat),
    Host.resize buffer length = .ok resized → (Host.bytes resized).size = length
  /-- A resized block keeps the bytes below both lengths. -/
  getElem?_resize : ∀ (buffer resized : Buffer) (length position : Nat),
    Host.resize buffer length = .ok resized →
    position < length → position < (Host.bytes buffer).size →
    (Host.bytes resized)[position]? = (Host.bytes buffer)[position]?

/-! ### Buffers of whole blocks -/

/-- The number of blocks that hold a length. -/
def blocksFor (length : Nat) : Nat :=
  (length + (blockAlign - 1)) / blockAlign

/-- The number of bytes that an allocation can never exceed. -/
def allocationLimit : Nat := 2 ^ 63 - 1

/-- A byte block kept in blocks of sixteen bytes. -/
structure BlockBuffer where
  /-- The bytes of all blocks. -/
  storage : Bytes
  length : Nat
  /-- The largest length that is granted. -/
  limit : Option Nat
  /-- The number of blocks that storage is reserved for. -/
  reserve : Nat
  size_storage : storage.size = blocksFor length * blockAlign

namespace BlockBuffer

/-- An empty buffer. -/
def empty (limit : Option Nat) : BlockBuffer where
  storage := #[]
  length := 0
  limit := limit
  reserve := 0
  size_storage := rfl

/-- The content: the bytes below the length. -/
def bytes (buffer : BlockBuffer) : Bytes :=
  buffer.storage.extract 0 buffer.length

/-- Replaces the content. -/
def write (buffer : BlockBuffer) (content : Bytes) : BlockBuffer :=
  { buffer with
    storage := buffer.storage.patch 0 content.toList
    size_storage := by rw [Bytes.size_patch, buffer.size_storage] }

/-- The blocks of a storage cut or filled with zero bytes to a number of bytes. -/
def resizeStorage (storage : Bytes) (size : Nat) : Bytes :=
  storage.extract 0 size ++ Bytes.zeros (size - storage.size)

theorem size_resizeStorage (storage : Bytes) (size : Nat) :
    (resizeStorage storage size).size = size := by
  simp [resizeStorage, Bytes.zeros]
  omega

/-- Changes the length, unless the limit or the size of an allocation forbids it. -/
def resize (buffer : BlockBuffer) (length : Nat) : Except StorageError BlockBuffer :=
  if buffer.limit.any (· < length) then
    .error (.allocationFailed length)
  else if length = 0 then
    .ok (empty buffer.limit)
  else if allocationLimit < blocksFor length * blockAlign then
    .error (.allocationFailed length)
  else
    .ok {
      storage := resizeStorage buffer.storage (blocksFor length * blockAlign)
      length := length
      limit := buffer.limit
      reserve := max buffer.reserve (blocksFor length)
      size_storage := size_resizeStorage _ _ }

/-- The listing of the length, the reserved bytes and the limit. -/
def listing (buffer : BlockBuffer) : String :=
  let limit := match buffer.limit with
    | none => "None"
    | some limit => s!"Some({limit})"
  s!"AlignedBuffer \x7b len: {buffer.length}, reserved: {buffer.reserve * blockAlign}, "
    ++ s!"limit: {limit} \x7d"

instance : Host BlockBuffer where
  bytes := bytes
  write := write
  resize := resize

end BlockBuffer

end PackedStore
