/-
This file adds to a slot table what decides the order in which a map lists its
rows: the number of slots and the order in which every bucket of every dimension
links its slots. A new row is linked in front, a row that goes leaves the others in
their order, and a map of another size links all slots anew.
-/

import PackedStore.Proofs.IndexedMap.Contents

namespace PackedStore.IndexedMap

/-- A slot table with the number of slots of its map, and the order in which the buckets of each
dimension link them. -/
structure OrderedTable where
  capacity : Nat
  log2MinGrowth : Nat
  table : SlotTable
  orders : Nat → Nat → List Nat

namespace OrderedTable

/-- The table of a new map. -/
def empty (capacity log2MinGrowth : Nat) : OrderedTable :=
  ⟨capacity, log2MinGrowth, .empty, fun _ _ => []⟩

variable (shape : Shape) (state : OrderedTable)

/-- The slots with a row, in the order in which the map lists them. -/
def listed : List Nat :=
  Represents.listing state.capacity (state.orders 0)

/-- The table with another number of slots. -/
def grow (capacity : Nat) : OrderedTable := { state with
  capacity
  orders := regrouped shape capacity state.table fun position =>
    Represents.listing state.capacity (state.orders position) }

/-- The table with room for one more row. -/
def withSpace : OrderedTable :=
  if state.table.free = [] ∧ state.table.slots.length = state.capacity then
    state.grow shape (2 * state.capacity)
  else state

/-- The table with room for a number of slots, if there is a capacity for them. -/
def reserve (capacity : Nat) : OrderedTable :=
  if state.capacity < capacity then
    match grownCapacity state.table.count capacity state.log2MinGrowth with
    | .ok larger => state.grow shape larger
    | .error _ => state
  else state

/-- The table with one more row, which is linked in front. -/
def insert (row : Row) : OrderedTable := { state with
  table := state.table.insert row
  orders := entered shape state.capacity state.orders row state.table.nextSlot }

/-- The table without the row in a slot. -/
def remove (slot : Nat) : OrderedTable := { state with
  table := state.table.remove slot
  orders := (state.table.rowAt slot).elim state.orders fun row =>
    departed shape state.capacity state.orders row slot }

/-- The table with another value in the row of a slot. -/
def setValue (slot : Nat) (value : Bytes) : OrderedTable :=
  { state with table := state.table.setValue slot value }

/-- The table with the rows in the slots from zero on, in the order of their listing. -/
def flatten (capacity : Nat) : OrderedTable where
  capacity
  log2MinGrowth := state.log2MinGrowth
  table := .ofRows (state.listed.filterMap state.table.rowAt)
  orders := enteredAll shape capacity (fun _ _ => []) 0 (state.listed.filterMap state.table.rowAt)

/-- Ranges can be taken out of tables without free slots, as far as there are rows. -/
def demandRange (start count : Nat) : Checked Unit := do
  demand (state.table.free = []) .holes
  demand (start ≤ state.table.count ∧ count ≤ state.table.count - start)
    (.rowsOutOfRange start count state.table.count)

/-- The table without the rows in a range of slots. -/
def removeRange (start count : Nat) : OrderedTable :=
  if 0 < count then { state with
    table := state.table.removeRange start count
    orders := regrouped shape state.capacity (state.table.removeRange start count) fun _ =>
      List.range (state.table.slots.length - count) }
  else state

/-! ### The tables behind the orders -/

@[simp] theorem table_withSpace : (state.withSpace shape).table = state.table := by
  unfold withSpace
  split <;> rfl

@[simp] theorem table_reserve (capacity : Nat) :
    (state.reserve shape capacity).table = state.table := by
  unfold reserve
  split
  · cases grownCapacity state.table.count capacity state.log2MinGrowth <;> rfl
  · rfl

end OrderedTable

/-! ### Sites -/

variable {Buffer : Type} [Host Buffer] {shape : Shape} {site : Site Buffer} {image : Image}
  {table : SlotTable} {orders : Nat → Nat → List Nat}

/-- The table that an image stands for, with its capacity and its orders. -/
def Image.ordered (image : Image) (table : SlotTable) (orders : Nat → Nat → List Nat) :
    OrderedTable :=
  ⟨image.header.capacity, image.header.log2MinGrowth, table, orders⟩

/-- The site holds the table, with as many slots and linked in the same orders. -/
def Carries (shape : Shape) (site : Site Buffer) (state : OrderedTable) : Prop :=
  ∃ image, Holds shape site image state.table state.orders ∧
    image.ordered state.table state.orders = state

theorem Holds.carries (holds : Holds shape site image table orders) :
    Carries shape site (image.ordered table orders) :=
  ⟨image, holds, rfl⟩

end PackedStore.IndexedMap
