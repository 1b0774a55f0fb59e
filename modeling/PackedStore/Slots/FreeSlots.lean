/-
This file holds links between slots and the list of slots that are free again. A
link names the next slot of a chain or ends it; an array holds the links of all
slots. Walking the links from a first one gives the slots of a chain. A walk that
visits a slot twice would never end, so a walk that takes more steps than there are
slots is a fault.

The list of free slots is threaded through an array of links that it shares with a
chain: a free slot belongs to no chain, so its link is unused there. The slot freed
last is reused first.
-/

import PackedStore.Bytes.Codec
import PackedStore.Edit

namespace PackedStore

/-- The next slot of a chain, or its end. -/
abbrev Link := Option Nat

namespace Link

/-- The word that stands for the end of a chain. -/
def endWord : Nat := 2 ^ 32 - 1

/-- The number of slots that links can name. -/
def slotLimit : Nat := 2 ^ 31

/-- A link as a word of four bytes, in which the upper bits of a slot are lost. -/
def toWord : Link → Nat
  | none => endWord
  | some slot => slot % 2 ^ 32

/-- The link that a word of four bytes stands for. Words have a sign, so the upper half of them,
without the last one, is read as the uppermost numbers of eight bytes. -/
def ofWord (word : Nat) : Link :=
  if word = endWord then none
  else if word < slotLimit then some word
  else some (2 ^ 64 - 2 ^ 32 + word)

/-- The link that is made of a slot, which has to go through a word. -/
def ofSlot (slot : Nat) : Link :=
  ofWord (toWord (some slot))

theorem ofSlot_of_lt {slot : Nat} (below : slot < slotLimit) : ofSlot slot = some slot := by
  have small : slot < 2 ^ 31 := below
  have same : slot % 2 ^ 32 = slot := Nat.mod_eq_of_lt (by omega)
  have named : slot ≠ endWord := by
    unfold endWord
    omega
  rw [ofSlot, toWord, same, ofWord, if_neg named, if_pos below]

/-- The first slot that links cannot name becomes a number far behind any array. -/
theorem ofSlot_slotLimit : ofSlot slotLimit = some (2 ^ 64 - 2 ^ 31) := by decide

theorem toWord_lt (link : Link) : link.toWord < 2 ^ 32 := by
  cases link with
  | none => decide
  | some slot => exact Nat.mod_lt slot (by decide)

theorem toWord_ofWord {word : Nat} (bound : word < 2 ^ 32) : (ofWord word).toWord = word := by
  by_cases isEnd : word = endWord
  · rw [ofWord, if_pos isEnd, toWord, isEnd]
  · rw [ofWord, if_neg isEnd]
    split
    · exact Nat.mod_eq_of_lt bound
    · show (2 ^ 64 - 2 ^ 32 + word) % 2 ^ 32 = word
      omega

/-- Links stored as words of four bytes. -/
def codec : Codec Link where
  width := 4
  encode link := Bytes.littleEndian 4 link.toWord
  decode content := ofWord (Bytes.toNat content)

/-- The slots reached from a link in at most `fuel` steps. -/
def walkWithin (next : Array Link) : Nat → Link → Checked (List Nat)
  | _, none => .ok []
  | 0, some _ => .error (.fault .endlessChain)
  | fuel + 1, some slot => do
    let successor ← fetch next slot
    let rest ← walkWithin next fuel successor
    return slot :: rest

/-- The slots of the chain that starts with a link, in order. -/
def walk (next : Array Link) (first : Link) : Checked (List Nat) :=
  walkWithin next next.size first

end Link

/-- A list of free slots inside an array of links. -/
structure FreeSlots where
  /-- The slot freed last. -/
  head : Link
  next : Array Link
deriving DecidableEq, Repr

namespace FreeSlots

/-- Whether no slot is free. -/
def isEmpty (free : FreeSlots) : Bool :=
  free.head.isNone

/-- Puts a slot in front of the list. -/
def push (slot : Nat) : Edit FreeSlots Unit := do
  let free ← get
  require (slot < free.next.size) .outOfRange
  set { head := Link.ofSlot slot, next := free.next.setIfInBounds slot free.head : FreeSlots }

/-- Takes the slot in front of the list. -/
def pop : Edit FreeSlots (Option Nat) := do
  let free ← get
  match free.head with
  | none => return none
  | some slot =>
    let successor ← fetch free.next slot
    set { head := successor, next := free.next.setIfInBounds slot none : FreeSlots }
    return some slot

/-- The number of free slots. -/
def count (free : FreeSlots) : Checked Nat := do
  return (← Link.walk free.next free.head).length

end FreeSlots

end PackedStore
