/-
This file holds the reading operations on an indexed map: by key, by slot, and by
an index, either all rows at once or one after another with a cursor. A cursor
remembers the index and the slot of the row it gave last; it starts before the
first row and stays on the last one.
-/

import PackedStore.IndexedMap.Basic

namespace PackedStore.IndexedMap

variable {Buffer : Type} [Host Buffer]

/-! ### By key and by slot -/

/-- The row with a key. -/
def get? (shape : Shape) (key : Bytes) : Store Buffer (Option Row) :=
  Store.view (format shape) fun image => do
    match ← image.key.find shape.key.hash key with
    | none => return none
    | some slot => return some (← image.entry slot).row

/-- The row in a slot, if the slot holds one. -/
def entryAt (shape : Shape) (slot : Nat) : Store Buffer (Option Entry) :=
  Store.view (format shape) fun image => do
    if ← image.isLive shape slot then
      return some (← image.entry slot)
    else
      return none

/-! ### By index -/

/-- The hash table of an index, counted from zero, with the type of the index. -/
def dimension (shape : Shape) (image : Image) (position : Nat) :
    Checked (KeyType × HashChains Bytes) :=
  orFail (shape.indices.zip image.indices)[position]? (.fault .outOfRange)

/-- All rows with an index, the one linked last in front. -/
def entriesFor (shape : Shape) (position : Nat) (index : Bytes) : Store Buffer (List Entry) :=
  Store.view (format shape) fun image => do
    let (kind, chains) ← dimension shape image position
    (← chains.allMatches kind.hash index).mapM image.entry

/-- A place in the walk over all rows with an index. -/
structure Cursor where
  index : Bytes
  /-- The slot of the row given last. -/
  slot : Option Nat
deriving DecidableEq, Repr

namespace Cursor

/-- The cursor in front of the first row with an index. -/
def start (index : Bytes) : Cursor := ⟨index, none⟩

/-- The cursor on the next row, if there is one. -/
def advance (hash : Bytes → UInt64) (chains : HashChains Bytes) (cursor : Cursor) :
    Checked (Option Cursor) := do
  let found ← match cursor.slot with
    | none => chains.find hash cursor.index
    | some slot => chains.findAfter slot cursor.index
  return found.map fun slot => { cursor with slot := some slot }

end Cursor

/-- The next row of a walk, and the cursor on it. Without a next row, the cursor stays. -/
def next (shape : Shape) (position : Nat) (cursor : Cursor) :
    Store Buffer (Option Entry × Cursor) :=
  Store.view (format shape) fun image => do
    let (kind, chains) ← dimension shape image position
    match ← cursor.advance kind.hash chains with
    | none => return (none, cursor)
    | some moved =>
      return (some (← image.entry (moved.slot.getD 0)), moved)

/-- The first row with an index, and the cursor on it. -/
def first (shape : Shape) (position : Nat) (index : Bytes) :
    Store Buffer (Option (Entry × Cursor)) := do
  match ← next shape position (Cursor.start index) with
  | (none, _) => return none
  | (some entry, cursor) => return some (entry, cursor)

/-! ### Listing -/

/-- Texts for the parts of rows. -/
structure RowText where
  key : Bytes → String
  indices : List (Bytes → String)
  value : Bytes → String

/-- The listing of one row. Several indices are numbered from one. -/
def entryListing (text : RowText) (entry : Entry) : String :=
  let count := text.indices.length
  let number (position : Nat) : String := if count = 1 then "" else toString (position + 1)
  let typeName := if count = 1 then "IndexedEntry" else s!"Indexed{count}Entry"
  let indices := (text.indices.zip entry.row.indices).zipIdx.map fun part =>
    s!"index{number part.2}: {part.1.1 part.1.2}"
  let fields := s!"slot: {entry.slot}" :: s!"key: {text.key entry.row.key}" ::
    (indices ++ [s!"value: {text.value entry.row.value}"])
  typeName ++ " \x7b " ++ ", ".intercalate fields ++ " \x7d"

/-- The listing of all rows. -/
def listing (shape : Shape) (text : RowText) : Store Buffer String := do
  return "[" ++ ", ".intercalate ((← entries shape).map (entryListing text)) ++ "]"

end PackedStore.IndexedMap
