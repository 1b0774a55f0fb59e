/-
This file follows a buffer through any sequence of resizes and writes. What a host
owes its containers is said there for one resize and one write at a time. Over a
whole sequence it comes to this: a byte is what was written last at its position, as
long as the length has stayed above the position since. A buffer of blocks moreover
never exceeds its limit, has as many blocks as its length needs, and is as it was
when a resize is refused.
-/

import Mathlib.Order.Bounds.Basic
import PackedStore.Proofs.Host.Limits
import PackedStore.Proofs.Host.Runs

namespace PackedStore

/-- What can be done to a host, apart from reading it. -/
inductive Access where
  /-- Asks for another length. -/
  | resize (length : Nat)
  /-- Replaces the bytes from an offset on. -/
  | write (offset : Nat) (content : Bytes)
deriving DecidableEq, Repr

namespace Access

variable {Buffer : Type} [Host Buffer] {site later : Site Buffer} {access : Access}
  {content : Bytes} {offset position : Nat}

/-- An access as an operation in a host. -/
def run : Access → Store Buffer Unit
  | .resize length => Store.resize length
  | .write offset content => Store.writeAt offset content

/-- The access writes the byte at a position of a block of a size. -/
def Lands (position : Nat) : Access → Nat → Prop
  | .resize _, _ => False
  | .write offset content, size =>
    offset + content.size ≤ size ∧ offset ≤ position ∧ position < offset + content.size

instance (position : Nat) (access : Access) (size : Nat) : Decidable (access.Lands position size) :=
  match access with
  | .resize _ => inferInstanceAs (Decidable False)
  | .write _ _ => inferInstanceAs (Decidable (_ ∧ _ ∧ _))

/-- What becomes of a host in an access. -/
inductive Turns : Access → Site Buffer → Site Buffer → Prop
  | refused {length : Nat} {site : Site Buffer} {error : StorageError}
    (refused : Host.resize site.buffer length = .error error) : Turns (.resize length) site site
  | resized {length : Nat} {site : Site Buffer} {buffer : Buffer}
    (granted : Host.resize site.buffer length = .ok buffer) :
    Turns (.resize length) site (site.withBuffer buffer)
  | outside {offset : Nat} {content : Bytes} {site : Site Buffer}
    (beyond : ¬ offset + content.size ≤ site.bytes.size) : Turns (.write offset content) site site
  | written {offset : Nat} {content : Bytes} {site : Site Buffer}
    (inside : offset + content.size ≤ site.bytes.size) :
    Turns (.write offset content) site (site.put (site.bytes.patch offset content.toList))

theorem turns (access : Access) (site : Site Buffer) :
    access.Turns site (Store.machine run access site).2 := by
  cases access with
  | resize length =>
    cases resized : Host.resize site.buffer length with
    | error error =>
      rw [Store.machine, run, Store.outcome_error (Store.run_resize_error resized)]
      exact .refused resized
    | ok buffer =>
      rw [Store.machine, run, Store.outcome_ok (Store.run_resize_ok resized)]
      exact .resized resized
  | write offset content =>
    by_cases inside : offset + content.size ≤ site.bytes.size
    · rw [Store.machine, run, Store.outcome_ok (Store.run_writeAt inside)]
      exact .written inside
    · rw [Store.machine, run, Store.outcome_error (Store.run_writeAt_error inside)]
      exact .outside inside

namespace Turns

section

variable [LawfulHost Buffer] (turns : access.Turns site later)

include turns

/-- A byte that is not written and not cut off stays. -/
theorem getElem?_eq (missed : ¬ access.Lands position site.bytes.size)
    (inside : position < site.bytes.size) (insideLater : position < later.bytes.size) :
    later.bytes[position]? = site.bytes[position]? := by
  cases turns with
  | refused => rfl
  | resized granted =>
    rw [Site.bytes_withBuffer, LawfulHost.size_resize _ _ _ granted] at insideLater
    exact LawfulHost.getElem?_resize _ _ _ position granted insideLater inside
  | outside => rfl
  | written within =>
    rw [Site.bytes_put (Bytes.size_patch _ _ _), Bytes.getElem?_patch, Array.length_toList]
    exact if_neg fun ⟨front, behind, _⟩ => missed ⟨within, front, behind⟩

/-- A byte that is written is there. -/
theorem getElem?_of_lands (isWrite : access = .write offset content)
    (lands : access.Lands position site.bytes.size) :
    later.bytes[position]? = content[position - offset]? := by
  subst isWrite
  obtain ⟨within, front, behind⟩ := lands
  cases turns with
  | outside beyond => exact absurd within beyond
  | written =>
    rw [Site.bytes_put (Bytes.size_patch _ _ _), Bytes.getElem?_patch, Array.length_toList,
      Array.getElem?_toList]
    exact if_pos ⟨front, behind, Nat.lt_of_lt_of_le behind within⟩

/-- A host with a limit keeps it and stays within it. -/
theorem within {limit : Buffer → Option Nat} (limited : Limited limit)
    (within : Grants (limit site.buffer) site.bytes.size) :
    limit later.buffer = limit site.buffer ∧ Grants (limit site.buffer) later.bytes.size := by
  cases turns with
  | refused => exact ⟨rfl, within⟩
  | resized granted =>
    refine ⟨limited.resized _ _ _ granted, ?_⟩
    rw [Site.bytes_withBuffer, LawfulHost.size_resize _ _ _ granted]
    exact (limited.grants_iff _ _).mpr ⟨_, granted⟩
  | outside => exact ⟨rfl, within⟩
  | written =>
    refine ⟨limited.write _ _, ?_⟩
    rwa [Site.bytes_put (Bytes.size_patch _ _ _), Bytes.size_patch]

end

end Turns

/-- Neither does a whole sequence of accesses leave the limit. -/
theorem reached_within [LawfulHost Buffer] {limit : Buffer → Option Nat} (limited : Limited limit)
    (accesses : List Access) (within : Grants (limit site.buffer) site.bytes.size) :
    limit ((Store.machine run).reached accesses site).buffer = limit site.buffer ∧
      Grants (limit site.buffer) ((Store.machine run).reached accesses site).bytes.size := by
  have step (access : Access) (later : Site Buffer) (_ : True)
      (here : limit later.buffer = limit site.buffer ∧ Grants (limit site.buffer) later.bytes.size) :
      limit (Store.machine run access later).2.buffer = limit site.buffer ∧
        Grants (limit site.buffer) (Store.machine run access later).2.bytes.size := by
    obtain ⟨same, here⟩ := here
    rw [← same] at here ⊢
    exact (turns access later).within limited here
  exact Machine.reached_of_step step (fun _ _ => trivial) ⟨rfl, within⟩

/-! ### The last write -/

/-- The access does not write the byte at a position, and the block is still longer after it. -/
def Spares (position : Nat) (access : Access) (site : Site Buffer) : Prop :=
  ¬ access.Lands position site.bytes.size ∧
    position < (Store.machine run access site).2.bytes.size

instance (position : Nat) (access : Access) (site : Site Buffer) :
    Decidable (access.Spares position site) := inferInstanceAs (Decidable (_ ∧ _))

/-- Whatever came before a write, and whatever comes after it that spares a position, the byte there
is the one that was written. -/
theorem last_write_stands [LawfulHost Buffer] {before after : List Access}
    (lands : (write offset content).Lands position
      ((Store.machine run).reached before site).bytes.size)
    (spared : (Store.machine run).Always (Spares position) after
      ((Store.machine run).reached (before ++ [write offset content]) site)) :
    ∃ byte, content[position - offset]? = some byte ∧
      ((Store.machine run).reached (before ++ write offset content :: after) site).bytes[position]? =
        some byte := by
  have here : position - offset < content.size := by
    obtain ⟨-, front, behind⟩ := lands
    omega
  have written := (turns (write offset content)
    ((Store.machine run).reached before site)).getElem?_of_lands rfl lands
  rw [Array.getElem?_eq_getElem here] at written
  refine ⟨_, Array.getElem?_eq_getElem here, ?_⟩
  rw [List.append_cons, Machine.reached_append]
  -- the induction is on the accesses after the write; each one keeps the byte
  have step (access : Access) (site : Site Buffer) (spares : access.Spares position site)
      (stands : site.bytes[position]? = some content[position - offset]) :
      (Store.machine run access site).2.bytes[position]? = some content[position - offset] := by
    have inside : position < site.bytes.size := (Array.getElem?_eq_some_iff.mp stands).1
    rw [(turns access site).getElem?_eq spares.1 inside spares.2, stands]
  refine Machine.reached_of_always step spared ?_
  rw [Machine.reached_append]
  exact written

end Access

/-! ### Buffers of blocks -/

namespace BlockBuffer

/-- The blocks of a buffer are no more than its length needs. -/
theorem isLeast_blocks (buffer : BlockBuffer) :
    IsLeast {blocks | buffer.length ≤ blocks * blockAlign} (blocksFor buffer.length) := by
  refine ⟨le_blocks buffer.length, fun blocks enough => ?_⟩
  have few := blocks_le buffer.length
  have room : buffer.length ≤ blocks * blockAlign := enough
  unfold blockAlign at *
  omega

/-- An empty buffer with a limit, and nothing reported. -/
def unused (limit : Option Nat) : Site BlockBuffer where
  buffer := empty limit
  events := []

/-- The limit is kept, and the length within it. -/
theorem within_reached (limit : Option Nat) (accesses : List Access) :
    ((Store.machine Access.run).reached accesses (unused limit)).buffer.limit = limit ∧
      Grants limit ((Store.machine Access.run).reached accesses (unused limit)).buffer.length := by
  have none : Grants (unused limit).buffer.limit (unused limit).bytes.size := grants_zero limit
  have reached := Access.reached_within limited accesses none
  rwa [show Site.bytes _ = BlockBuffer.bytes _ from rfl, size_bytes] at reached

/-- After any accesses to an empty buffer with a limit, its bytes are as many as its length, in the
least number of blocks that hold them, and writes go where there are bytes. A byte is what was written
last at its position, if the length has stayed above the position since. A resize is granted exactly
up to the limit and to what can be allocated, and keeps the bytes below both lengths; it is refused
with the length that was asked for, and then all is as before. The length is within the limit. -/
theorem keeps_contract (limit : Option Nat) (accesses : List Access) (site : Site BlockBuffer)
    (isReached : (Store.machine Access.run).reached accesses (unused limit) = site) :
    (site.bytes.size = site.buffer.length ∧
      (∃ blocks, site.buffer.storage.size = blocks * blockAlign ∧
        IsLeast {blocks | site.buffer.length ≤ blocks * blockAlign} blocks) ∧
      ∀ offset content,
        if offset + content.size ≤ site.buffer.length then
          ∃ later, Store.writeAt offset content site = .ok () later ∧
            later.bytes = site.bytes.patch offset content.toList ∧
            later.buffer.length = site.buffer.length
        else Store.writeAt offset content site = .error (.fault .outOfRange) site) ∧
    (∀ before offset content after position,
      accesses = before ++ .write offset content :: after →
      (Access.write offset content).Lands position
        ((Store.machine Access.run).reached before (unused limit)).bytes.size →
      (Store.machine Access.run).Always (Access.Spares position) after
        ((Store.machine Access.run).reached (before ++ [.write offset content]) (unused limit)) →
      ∃ byte, content[position - offset]? = some byte ∧ site.bytes[position]? = some byte) ∧
    (∀ length,
      if (∀ bound ∈ limit, length ≤ bound) ∧ blocksFor length * blockAlign ≤ allocationLimit then
        ∃ later, Store.resize length site = .ok () later ∧ later.buffer.length = length ∧
          ∀ position, position < length → position < site.buffer.length →
            later.bytes[position]? = site.bytes[position]?
      else Store.resize length site = .error (.storage (.allocationFailed length)) site) ∧
    ∀ bound ∈ limit, site.buffer.length ≤ bound := by
  obtain ⟨sameLimit, within⟩ := within_reached limit accesses
  rw [isReached] at sameLimit within
  have size : site.bytes.size = site.buffer.length := size_bytes site.buffer
  refine ⟨⟨size, ⟨_, site.buffer.size_storage, isLeast_blocks site.buffer⟩, ?_⟩, ?_, ?_, ?_⟩
  · intro offset content
    rw [← size]
    split
    · next inside =>
      have put := site.bytes_put (Bytes.size_patch site.bytes offset content.toList)
      exact ⟨_, Store.run_writeAt inside, put, size.symm⟩
    · next beyond => exact Store.run_writeAt_error beyond
  · rintro before offset content after position rfl lands spared
    rw [← isReached]
    exact Access.last_write_stands lands spared
  · intro length
    by_cases grants : Grants limit length
    · rw [if_pos (grants_iff_le.mp grants)]
      obtain ⟨buffer, granted⟩ := limited.grants site.buffer length (sameLimit.symm ▸ grants)
      refine ⟨_, Store.run_resize_ok granted, (resize_eq_ok granted).1, ?_⟩
      intro position below inside
      exact LawfulHost.getElem?_resize _ _ _ position granted below (size.symm ▸ inside)
    · rw [if_neg fun fits => grants (grants_iff_le.mpr fits)]
      exact Store.run_resize_error (limited.refuses site.buffer length (sameLimit.symm ▸ grants))
  · exact (grants_iff_le.mp within).1

/-- Five bytes are written, too much is asked for, and the buffer shrinks to three bytes and grows
again. The second byte is there all the while, and the limit of 64 bytes stays. -/
theorem second_byte_stays :
    ∃ site, (Store.machine Access.run).reached
        [.resize 5, .write 0 #[1, 2, 3, 4, 5], .resize 65, .resize 3, .resize 33]
        (unused (some 64)) = site ∧
      site.bytes.size = 33 ∧ site.buffer.storage.size = 3 * blockAlign ∧
      site.bytes[1]? = some 2 ∧
      Store.resize 65 site = .error (.storage (.allocationFailed 65)) site := by
  obtain ⟨⟨size, ⟨blocks, storage, least⟩, -⟩, stands, resizes, -⟩ :=
    keeps_contract (some 64)
      [.resize 5, .write 0 #[1, 2, 3, 4, 5], .resize 65, .resize 3, .resize 33] _ rfl
  have isThree : blocks = 3 := least.unique (isLeast_blocks _)
  obtain ⟨byte, written, there⟩ := stands [.resize 5] 0 #[1, 2, 3, 4, 5]
    [.resize 65, .resize 3, .resize 33] 1 rfl (by decide)
    ⟨by decide, by decide, by decide, trivial⟩
  obtain rfl := Option.some.inj written
  have refused := resizes 65
  rw [if_neg (by decide)] at refused
  exact ⟨_, rfl, size, isThree ▸ storage, there, refused⟩

end BlockBuffer

end PackedStore
