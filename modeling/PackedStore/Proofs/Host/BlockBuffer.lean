/-
This file shows that a buffer of blocks is a host that containers can rely on: it
keeps what is written, has the length it was asked for, and keeps the bytes below
both lengths when it is resized. Without a limit, it grants every length that is
not out of all proportion.
-/

import PackedStore.Host.BlockBuffer
import PackedStore.Proofs.Host.Stores

namespace PackedStore.BlockBuffer

variable {buffer resized : BlockBuffer} {length position : Nat}

theorem le_blocks (length : Nat) : length ≤ blocksFor length * blockAlign := by
  unfold blocksFor blockAlign
  omega

theorem blocks_le (length : Nat) : blocksFor length * blockAlign ≤ length + (blockAlign - 1) := by
  unfold blocksFor blockAlign
  omega

theorem size_bytes (buffer : BlockBuffer) : buffer.bytes.size = buffer.length := by
  have room := le_blocks buffer.length
  rw [bytes, Array.size_extract, buffer.size_storage]
  omega

theorem getElem?_bytes (buffer : BlockBuffer) (position : Nat) :
    buffer.bytes[position]? = if position < buffer.length then buffer.storage[position]? else none := by
  have extracted := Bytes.getElem?_extract_width buffer.storage 0 buffer.length position
  rwa [Nat.zero_add, Nat.zero_add] at extracted

/-! ### Writing -/

theorem bytes_write {content : Bytes} (size : content.size = buffer.bytes.size) :
    (buffer.write content).bytes = content := by
  have room := le_blocks buffer.length
  rw [size_bytes] at size
  refine Array.ext_getElem? fun position => ?_
  rw [getElem?_bytes]
  show (if position < buffer.length then
    (buffer.storage.patch 0 content.toList)[position]? else none) = content[position]?
  by_cases inside : position < buffer.length
  · have written : 0 ≤ position ∧ position < 0 + content.toList.length ∧
        position < buffer.storage.size := by
      rw [Array.length_toList, buffer.size_storage]
      omega
    rw [if_pos inside, Bytes.getElem?_patch, if_pos written, Nat.sub_zero, Array.getElem?_toList]
  · rw [if_neg inside, Array.getElem?_eq_none (by omega)]

/-! ### Resizing -/

/-- A granted resize gives the requested length and keeps the bytes below both lengths. -/
theorem resize_eq_ok (granted : buffer.resize length = .ok resized) :
    resized.length = length ∧ resized.limit = buffer.limit ∧
      ∀ position, position < length → position < buffer.length →
        resized.storage[position]? = buffer.storage[position]? := by
  have room := le_blocks length
  have roomOld := le_blocks buffer.length
  unfold resize at granted
  split at granted
  · exact absurd granted (by simp)
  split at granted
  · next nothing =>
    obtain rfl := Except.ok.inj granted
    exact ⟨nothing.symm, rfl, fun position below => by omega⟩
  split at granted
  · exact absurd granted (by simp)
  · obtain rfl := Except.ok.inj granted
    refine ⟨rfl, rfl, fun position below belowOld => ?_⟩
    have front := Bytes.getElem?_extract_width buffer.storage 0 (blocksFor length * blockAlign)
      position
    rw [Nat.zero_add, Nat.zero_add] at front
    show (resizeStorage buffer.storage (blocksFor length * blockAlign))[position]? = _
    rw [resizeStorage, Array.getElem?_append_left, front, if_pos (by omega)]
    rw [Array.size_extract, buffer.size_storage]
    omega

instance : LawfulHost BlockBuffer where
  bytes_write _ _ size := bytes_write size
  size_resize _ resized _ granted := by
    rw [← (resize_eq_ok granted).1]
    exact size_bytes resized
  getElem?_resize buffer resized length position granted below belowOld := by
    obtain ⟨lengthEq, -, kept⟩ := resize_eq_ok granted
    have inside : position < buffer.length := by
      rw [← size_bytes buffer]
      exact belowOld
    show resized.bytes[position]? = buffer.bytes[position]?
    rw [getElem?_bytes, getElem?_bytes, lengthEq, if_pos below, if_pos inside]
    exact kept position below inside

/-- Buffers without a limit grant every resize. -/
theorem granting : Granting fun buffer : BlockBuffer => buffer.limit = none where
  write _ _ here := here
  resized _ _ _ here granted := (resize_eq_ok granted).2.1.trans here
  resizes buffer length here small := by
    have blocks := blocks_le length
    unfold lengthLimit at small
    unfold blockAlign at blocks
    have allowed : ¬ allocationLimit < blocksFor length * blockAlign := by
      unfold allocationLimit blockAlign
      omega
    show ∃ resized, buffer.resize length = .ok resized
    by_cases nothing : length = 0
    · refine ⟨empty none, ?_⟩
      simp only [resize, here, Option.any_none, Bool.false_eq_true, if_false, if_pos nothing]
    · unfold resize
      rw [here, if_neg (by simp), if_neg nothing, if_neg allowed]
      exact ⟨_, rfl⟩

end PackedStore.BlockBuffer
