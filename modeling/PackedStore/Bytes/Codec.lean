/-
This file holds fixed-width records inside a byte block. A codec says how wide
one record is and how it is written; an array of records stands at consecutive
multiples of the width. Reading an array is one `decode` per record, and the bytes
of an array are those of its records, one after another. Records are counted by the
bytes that they take, so an array of records without bytes has no members.
-/

import PackedStore.Bytes.Basic

namespace PackedStore

/-- How a record of a fixed byte width is written to and read from bytes. -/
structure Codec (α : Type) where
  width : Nat
  encode : α → List UInt8
  decode : List UInt8 → α

namespace Codec

/-- Natural numbers of `width` bytes, least significant byte first. -/
def nat (width : Nat) : Codec Nat where
  width := width
  encode := Bytes.littleEndian width
  decode := Bytes.toNat

/-- Words of 32 bits. -/
def word32 : Codec UInt32 where
  width := 4
  encode word := Bytes.littleEndian 4 word.toNat
  decode content := UInt32.ofNat (Bytes.toNat content)

/-- Records that are kept as their own bytes. -/
def cell (width : Nat) : Codec Bytes where
  width := width
  encode := Array.toList
  decode := List.toArray

variable {α : Type}

/-- The record that starts at a byte offset. -/
def readAt (codec : Codec α) (bytes : Bytes) (offset : Nat) : α :=
  codec.decode (bytes.extract offset (offset + codec.width)).toList

/-- The number of members that an array for `count` records of a width has. -/
def arraySize (width count : Nat) : Nat :=
  if width = 0 then 0 else count

/-- The array for `count` records that stand one after another from a byte offset on. -/
def readArray (codec : Codec α) (bytes : Bytes) (offset count : Nat) : Array α :=
  Array.ofFn fun position : Fin (arraySize codec.width count) =>
    codec.readAt bytes (offset + position * codec.width)

/-- The bytes of records standing one after another. -/
def encodeArray (codec : Codec α) (records : Array α) : List UInt8 :=
  records.toList.flatMap codec.encode

theorem lt_arraySize {width count position : Nat} :
    position < arraySize width count ↔ 0 < width ∧ position < count := by
  unfold arraySize
  split <;> omega

theorem arraySize_le (width count : Nat) : arraySize width count ≤ count := by
  unfold arraySize
  split <;> omega

/-- Members or not, the bytes are the same. -/
theorem arraySize_mul (width count : Nat) : arraySize width count * width = count * width := by
  unfold arraySize
  split
  · next none => rw [none, Nat.mul_zero, Nat.mul_zero]
  · rfl

@[simp] theorem size_readArray (codec : Codec α) (bytes : Bytes) (offset count : Nat) :
    (codec.readArray bytes offset count).size = arraySize codec.width count := by
  simp [readArray]

end Codec

end PackedStore
