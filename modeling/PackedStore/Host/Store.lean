/-
This file holds the monad of operations on a container inside a host. The state
is the host and the events reported so far; both survive a failure. The content
of a container is read from the block as an image, changed as an image and saved
back; the bytes that belong to no part of the image keep their values.
-/

import PackedStore.Edit
import PackedStore.Host.BlockBuffer
import PackedStore.Host.Event
import PackedStore.Layout.Placement

namespace PackedStore

/-- A host in use, with the events reported so far. -/
structure Site (Buffer : Type) where
  buffer : Buffer
  events : List Event

/-- An operation on a container in a host. -/
abbrev Store (Buffer α : Type) := EStateM Failure (Site Buffer) α

/-- How the content of a container stands in a byte block. -/
structure ImageFormat (Image : Type) where
  /-- The image that a block holds. -/
  load : Bytes → Checked Image
  /-- The block with its image replaced. -/
  save : Image → Bytes → Bytes

namespace Store

variable {Buffer Image α : Type} [Host Buffer]

/-- The content of the block. -/
def bytes : Store Buffer Bytes := do
  return Host.bytes (← get).buffer

/-- The length of the block. -/
def length : Store Buffer Nat := do
  return (← bytes).size

/-- Replaces the content of the block by one of the same length. -/
def write (content : Bytes) : Store Buffer Unit :=
  modify fun site => { site with buffer := Host.write site.buffer content }

/-- The content of a segment of the block. -/
def readSegment (segment : Segment) : Store Buffer Bytes := do
  segment.slice (← bytes)

/-- Writes bytes into the block from an offset on. -/
def writeAt (offset : Nat) (content : Bytes) : Store Buffer Unit := do
  let old ← bytes
  require (offset + content.size ≤ old.size) .outOfRange
  write (old.patch offset content.toList)

/-- Changes the length of the block. -/
def resize (length : Nat) : Store Buffer Unit := do
  let site ← get
  match Host.resize site.buffer length with
  | .ok buffer => set { site with buffer := buffer }
  | .error error => throw (.storage error)

/-- Reports an event. -/
def report (event : Event) : Store Buffer Unit :=
  modify fun site => { site with events := site.events ++ [event] }

/-- Reads from the image in the block. -/
def view (format : ImageFormat Image) (read : Image → Checked α) : Store Buffer α := do
  read (← format.load (← bytes))

/-- Changes the image in the block. What a failed edit changed is saved as well. -/
def edit (format : ImageFormat Image) (change : Edit Image α) : Store Buffer α := do
  let content ← bytes
  let image ← format.load content
  match change image with
  | .ok answer changed =>
    write (format.save changed content)
    return answer
  | .error failure changed =>
    write (format.save changed content)
    throw failure

/-- The answer of an operation on another host, whose changes are dropped. -/
def readFrom {Source : Type} (source : Site Source) (operation : Store Source α) :
    Store Buffer α := fun site =>
  match operation source with
  | .ok answer _ => .ok answer site
  | .error failure _ => .error failure site

/-- Resizes the block and moves segments, given as pairs of old and new places. The old contents
are saved before the resize and copied to the front of their new places after it. -/
def relocate (moves : List (Segment × Segment)) (length : Nat) : Store Buffer Unit := do
  let content ← bytes
  let saved ← moves.mapM fun move => do
    return (← move.1.slice content, move.2)
  resize length
  saved.forM fun entry => do
    demand (entry.1.size ≤ entry.2.length) .shorterSegment
    writeAt entry.2.offset entry.1

end Store

end PackedStore
