/-
This file holds byte strings: reading a range, overwriting a range in place, and
numbers written with the least significant byte first. A write never changes the
length; what lies outside the written range stays as it was, which is the law
`getElem?_patch`. As text, bytes and numbers are written with lower-case
hexadecimal digits, two of them for a byte.
-/

namespace PackedStore

/-- A block of bytes, addressed from zero. -/
abbrev Bytes := Array UInt8

namespace Bytes

/-- A block of `length` zero bytes. -/
def zeros (length : Nat) : Bytes :=
  Array.replicate length 0

/-- The `length` bytes from `offset` on, if all of them lie in the block. -/
def slice? (bytes : Bytes) (offset length : Nat) : Option Bytes :=
  if offset + length ≤ bytes.size then some (bytes.extract offset (offset + length)) else none

/-- The block with `content` written from `offset` on. Bytes past the end are dropped. -/
def patch (bytes : Bytes) (offset : Nat) : List UInt8 → Bytes
  | [] => bytes
  | byte :: rest => patch (bytes.setIfInBounds offset byte) (offset + 1) rest

@[simp] theorem size_patch (bytes : Bytes) (offset : Nat) (content : List UInt8) :
    (bytes.patch offset content).size = bytes.size := by
  induction content generalizing bytes offset with
  | nil => rfl
  | cons byte rest inductionHypothesis => simp [patch, inductionHypothesis]

/-- A patched block holds the content inside the written range and its old bytes outside. -/
theorem getElem?_patch (bytes : Bytes) (offset : Nat) (content : List UInt8) (position : Nat) :
    (bytes.patch offset content)[position]? =
      if offset ≤ position ∧ position < offset + content.length ∧ position < bytes.size then
        content[position - offset]?
      else bytes[position]? := by
  induction content generalizing bytes offset with
  | nil => simp [patch]; omega
  | cons byte rest inductionHypothesis =>
    rw [patch, inductionHypothesis]
    simp only [Array.size_setIfInBounds, Array.getElem?_setIfInBounds, List.length_cons]
    grind

/-! ### Numbers, least significant byte first -/

/-- The low `width` bytes of a number. -/
def littleEndian : Nat → Nat → List UInt8
  | 0, _ => []
  | width + 1, value => UInt8.ofNat value :: littleEndian width (value / 256)

/-- The number that a string of bytes spells. -/
def toNat : List UInt8 → Nat
  | [] => 0
  | byte :: rest => byte.toNat + 256 * toNat rest

@[simp] theorem length_littleEndian (width value : Nat) :
    (littleEndian width value).length = width := by
  induction width generalizing value with
  | zero => rfl
  | succ width inductionHypothesis => simp [littleEndian, inductionHypothesis]

/-- Reading back what was written keeps the number modulo the width. -/
theorem toNat_littleEndian (width value : Nat) :
    toNat (littleEndian width value) = value % 256 ^ width := by
  induction width generalizing value with
  | zero => simp [littleEndian, toNat, Nat.mod_one]
  | succ width inductionHypothesis =>
    have lowByte : (UInt8.ofNat value).toNat = value % 256 := UInt8.toNat_ofNat'
    rw [littleEndian, toNat, inductionHypothesis, lowByte, Nat.pow_succ', ← Nat.mod_mul]

theorem toNat_lt (content : List UInt8) : toNat content < 256 ^ content.length := by
  induction content with
  | nil => simp [toNat]
  | cons byte rest inductionHypothesis =>
    have bound := byte.toNat_lt
    rw [toNat, List.length_cons, Nat.pow_succ']
    omega

/-- The bytes of the number that a string spells are the string. -/
theorem littleEndian_toNat (content : List UInt8) :
    littleEndian content.length (toNat content) = content := by
  induction content with
  | nil => rfl
  | cons byte rest inductionHypothesis =>
    have bound := byte.toNat_lt
    rw [List.length_cons, littleEndian, toNat]
    have low : UInt8.ofNat (byte.toNat + 256 * toNat rest) = byte := by
      apply UInt8.toNat_inj.mp
      rw [UInt8.toNat_ofNat']
      omega
    have high : (byte.toNat + 256 * toNat rest) / 256 = toNat rest := by omega
    rw [low, high, inductionHypothesis]

end Bytes

/-! ### Hexadecimal digits -/

/-- A number with at least `digits` hexadecimal digits. -/
def hexText (digits value : Nat) : String :=
  let text := Nat.toDigits 16 value
  String.ofList (List.replicate (digits - text.length) '0' ++ text)

/-- The value of a hexadecimal digit. -/
def hexDigit (digit : Char) : Nat :=
  if digit.isDigit then digit.toNat - '0'.toNat else digit.toNat - 'a'.toNat + 10

/-- The number that hexadecimal digits spell. -/
def ofHexText (text : String) : Nat :=
  text.toList.foldl (fun value digit => 16 * value + hexDigit digit) 0

namespace Bytes

/-- The digits of bytes. -/
def hex (content : List UInt8) : String :=
  String.join (content.map fun byte => hexText 2 byte.toNat)

/-- The bytes that pairs of digits spell. -/
def ofHexDigits : List Char → List UInt8
  | high :: low :: rest =>
    UInt8.ofNat (16 * hexDigit high + hexDigit low) :: ofHexDigits rest
  | _ => []

/-- The bytes that a text of digits spells. -/
def ofHex (text : String) : Bytes :=
  (ofHexDigits text.toList).toArray

end Bytes

end PackedStore
