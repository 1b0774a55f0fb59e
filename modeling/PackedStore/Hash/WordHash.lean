/-
This file holds the hash function of the containers' default key types. The state
is one 64-bit word; absorbing a word multiplies, rotates and mixes it in, and the
digest folds the 128-bit product of the state with the same multiplier. Values
are absorbed word by word, strings of bytes in words of eight bytes whose last
one may overlap the one before it.
-/

import PackedStore.Bytes.Basic

namespace PackedStore

/-- A hash computation that has absorbed some words. -/
structure WordHash where
  state : UInt64
deriving DecidableEq, Repr

namespace WordHash

/-- The odd multiplier of every mixing step. -/
def multiplier : UInt64 := 0x2545f4914f6cdd1d

/-- The computation that has absorbed nothing. -/
def start : WordHash := ⟨0⟩

/-- Absorbs one word: multiply, rotate right by 41 bits, mix in. -/
def word (hash : WordHash) (input : UInt64) : WordHash :=
  let product := hash.state * multiplier
  ⟨((product >>> 41) ||| (product <<< 23)) ^^^ input⟩

/-- The digest: the low half of the product with the multiplier less its high half. -/
def finish (hash : WordHash) : UInt64 :=
  let product := hash.state.toNat * multiplier.toNat
  UInt64.ofNat product - UInt64.ofNat (product / 2 ^ 64)

/-- The word that at most eight bytes from `offset` on spell. -/
def wordAt (bytes : Bytes) (offset width : Nat) : UInt64 :=
  UInt64.ofNat (Bytes.toNat (bytes.extract offset (offset + width)).toList)

/-- Absorbs a string of bytes without its length. Eight or more bytes are taken as whole words
followed by the last eight bytes, shorter strings as one word built from both ends. -/
def write (hash : WordHash) (bytes : Bytes) : WordHash :=
  let length := bytes.size
  if 8 ≤ length then
    let words := (List.range ((length - 1) / 8)).map fun index => wordAt bytes (8 * index) 8
    (words.foldl word hash).word (wordAt bytes (length - 8) 8)
  else if 4 ≤ length then
    hash.word (wordAt bytes 0 4 ||| (wordAt bytes (length - 4) 4 <<< 32))
  else if 2 ≤ length then
    hash.word (wordAt bytes 0 2 ||| (wordAt bytes (length - 2) 2 <<< 16))
  else if 1 ≤ length then
    hash.word (wordAt bytes 0 1)
  else
    hash

/-- Absorbs a string of bytes after the number of its items. -/
def sequence (hash : WordHash) (count : Nat) (bytes : Bytes) : WordHash :=
  (hash.word (UInt64.ofNat count)).write bytes

/-- Absorbs a text: its encoding, then a byte that no encoding contains. -/
def text (hash : WordHash) (content : String) : WordHash :=
  (hash.write content.toUTF8.data).word 0xff

end WordHash

/-- The two halves of a digest folded into one 32-bit word. -/
def foldDigest (digest : UInt64) : UInt32 :=
  (digest ^^^ (digest >>> 32)).toUInt32

end PackedStore
