/-
This file holds hash tables over numbered slots. Each slot has a key and a link;
each bucket has the first link of a chain, and the chain of a bucket holds the
slots whose keys fall into it, the one linked last in front. Which slots are
linked is up to the owner of the table: a slot that is not linked keeps its key
and its link, and neither is looked at. Keys may repeat; then a search finds the
slot linked last, and the others one after another.
-/

import PackedStore.Edit
import PackedStore.Slots.FreeSlots

namespace PackedStore

/-- The bucket of a key: the folded hash, cut to a mask. -/
def bucketOf {Key : Type} (hash : Key → UInt64) (key : Key) (mask : Nat) : Nat :=
  (foldDigest (hash key)).toNat &&& mask

/-- A hash table over slots. -/
structure HashChains (Key : Type) where
  /-- The key of each slot. -/
  keys : Array Key
  /-- The link of each slot. -/
  next : Array Link
  /-- The first link of each bucket. -/
  buckets : Array Link
deriving DecidableEq, Repr

namespace HashChains

variable {Key : Type}

/-- A table without linked slots, with the same key in every slot. -/
def blank (key : Key) (slots buckets : Nat) : HashChains Key where
  keys := Array.replicate slots key
  next := Array.replicate slots none
  buckets := Array.replicate buckets none

/-! ### Searching -/

/-- The bucket of a key in a table, which must have buckets. -/
def bucket (hash : Key → UInt64) (chains : HashChains Key) (key : Key) : Checked Nat := do
  require (0 < chains.buckets.size) .overflow
  return bucketOf hash key (chains.buckets.size - 1)

/-- The first link of the chain that a key belongs to. -/
def chainHead (hash : Key → UInt64) (chains : HashChains Key) (key : Key) : Checked Link := do
  fetch chains.buckets (← chains.bucket hash key)

/-- The first slot with a key among those reached from a link in at most `fuel` steps. -/
def seekWithin [DecidableEq Key] (chains : HashChains Key) (key : Key) :
    Nat → Link → Checked (Option Nat)
  | _, none => .ok none
  | 0, some _ => .error (.fault .endlessChain)
  | fuel + 1, some slot => do
    if (← fetch chains.keys slot) = key then
      return some slot
    else
      chains.seekWithin key fuel (← fetch chains.next slot)

/-- The first slot with a key on the way from a link. -/
def seek [DecidableEq Key] (chains : HashChains Key) (key : Key) (first : Link) :
    Checked (Option Nat) :=
  chains.seekWithin key chains.next.size first

/-- The slot with a key that was linked last. -/
def find [DecidableEq Key] (hash : Key → UInt64) (chains : HashChains Key) (key : Key) :
    Checked (Option Nat) := do
  chains.seek key (← chains.chainHead hash key)

/-- The next slot with a key behind a slot in its chain. -/
def findAfter [DecidableEq Key] (chains : HashChains Key) (slot : Nat) (key : Key) :
    Checked (Option Nat) := do
  chains.seek key (← fetch chains.next slot)

/-- The slots with a key that lie behind a slot, itself included, in at most `fuel` steps. -/
def matchesWithin [DecidableEq Key] (chains : HashChains Key) (key : Key) :
    Nat → Option Nat → Checked (List Nat)
  | _, none => .ok []
  | 0, some _ => .error (.fault .endlessChain)
  | fuel + 1, some slot => do
    let rest ← chains.matchesWithin key fuel (← chains.findAfter slot key)
    return slot :: rest

/-- The slots with a key, the one linked last in front. -/
def allMatches [DecidableEq Key] (hash : Key → UInt64) (chains : HashChains Key) (key : Key) :
    Checked (List Nat) := do
  chains.matchesWithin key chains.next.size (← chains.find hash key)

/-- All linked slots, bucket after bucket. -/
def linkedSlots (chains : HashChains Key) : Checked (List Nat) := do
  return (← chains.buckets.toList.mapM (Link.walk chains.next)).flatten

/-! ### Linking -/

/-- Empties all chains. -/
def clear : Edit (HashChains Key) Unit :=
  modify fun chains =>
    { chains with
      next := Array.replicate chains.next.size none
      buckets := Array.replicate chains.buckets.size none }

/-- Puts a slot in front of the chain of its key. -/
def link (hash : Key → UInt64) (slot : Nat) : Edit (HashChains Key) Unit := do
  let chains ← get
  let bucket ← chains.bucket hash (← fetch chains.keys slot)
  let head ← fetch chains.buckets bucket
  require (slot < chains.next.size) .outOfRange
  set { chains with
    next := chains.next.setIfInBounds slot head
    buckets := chains.buckets.setIfInBounds bucket (Link.ofSlot slot) }

/-- Gives a slot a key and links it. -/
def insert (hash : Key → UInt64) (slot : Nat) (key : Key) : Edit (HashChains Key) Unit := do
  let chains ← get
  require (slot < chains.keys.size) .outOfRange
  set { chains with keys := chains.keys.setIfInBounds slot key }
  link hash slot

/-- Takes a slot out of a chain, searching it from a link whose predecessor is given. -/
def unlinkWithin (slot bucket : Nat) :
    Nat → Option Nat → Link → Edit (HashChains Key) Bool
  | _, _, none => return false
  | 0, _, some _ => throw (.fault .endlessChain)
  | fuel + 1, previous, some current => do
    let chains ← get
    let successor ← fetch chains.next current
    if current = slot then
      match previous with
      | none => set { chains with buckets := chains.buckets.setIfInBounds bucket successor }
      | some before => set { chains with next := chains.next.setIfInBounds before successor }
      return true
    else
      unlinkWithin slot bucket fuel (some current) successor

/-- Takes a slot out of the chain of its key and says whether it was there. The slot keeps its
link. -/
def unlink (hash : Key → UInt64) (slot : Nat) : Edit (HashChains Key) Bool := do
  let chains ← get
  let bucket ← chains.bucket hash (← fetch chains.keys slot)
  let head ← fetch chains.buckets bucket
  unlinkWithin slot bucket chains.next.size none head

/-! ### Rebuilding -/

/-- Empties all buckets and leaves the links of the slots. -/
def clearBuckets : Edit (HashChains Key) Unit :=
  modify fun chains =>
    { chains with buckets := Array.replicate chains.buckets.size none }

/-- Links the slots of an old chain one after another. The link of a slot is read before the slot
is linked anew. -/
def relinkWithin (hash : Key → UInt64) : Nat → Link → Edit (HashChains Key) Unit
  | _, none => return ()
  | 0, some _ => throw (.fault .endlessChain)
  | fuel + 1, some slot => do
    let successor ← fetch (← get).next slot
    link hash slot
    relinkWithin hash fuel successor

/-- Moves the slots of the chains that start in `oldBuckets` to the table's own buckets, which
are emptied first. Slots in none of these chains keep their links. -/
def rehash (hash : Key → UInt64) (oldBuckets : Array Link) : Edit (HashChains Key) Unit := do
  clearBuckets
  let slots := (← get).next.size
  oldBuckets.toList.forM (relinkWithin hash ((slots + 1) * (slots + 1)))

/-- Replaces the buckets by a number of new ones and moves all chains to them. -/
def resizeBuckets (hash : Key → UInt64) (count : Nat) : Edit (HashChains Key) Unit := do
  let chains ← get
  set { chains with buckets := Array.replicate count none }
  rehash hash chains.buckets

/-- Builds the chains anew from the given slots. -/
def rebuild (hash : Key → UInt64) (slots : List Nat) : Edit (HashChains Key) Unit := do
  clearBuckets
  slots.forM (link hash)

/-- Drops the keys of `count` slots from `start` on out of the first `rows` slots, moves the
later ones down, and links all that are left. -/
def removeRange (hash : Key → UInt64) (start count rows : Nat) : Edit (HashChains Key) Unit := do
  let chains ← get
  set { chains with keys := ← moveDown? chains.keys start count rows }
  let chains ← get
  set { chains with next := ← fillRange? chains.next (rows - count) rows none }
  rebuild hash (List.range (rows - count))

/-- Ends the links of all slots from `start` on. -/
def endLinksFrom (start : Nat) : Edit (HashChains Key) Unit := do
  let chains ← get
  set { chains with next := ← fillRange? chains.next start chains.next.size none }

end HashChains

end PackedStore
