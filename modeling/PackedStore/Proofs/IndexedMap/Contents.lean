/-
This file lifts the slot table of an image to the block of a host. A site holds a
table when its block is exactly as long as the layout and its image stands for
the table. Reading operations answer from the table and change nothing; an edit
that turns the image into one for another table leaves the site with that table.
-/

import PackedStore.IndexedMap.Query
import PackedStore.Proofs.IndexedMap.WholeChanges

namespace PackedStore.IndexedMap

variable {Buffer : Type} [Host Buffer] {shape : Shape} {site : Site Buffer} {image : Image}
  {table : SlotTable} {orders : Nat → Nat → List Nat}

/-- The block of the site is the one of the image, which stands for the table. -/
structure Holds (shape : Shape) (site : Site Buffer) (image : Image) (table : SlotTable)
    (orders : Nat → Nat → List Nat) : Prop where
  loaded : Image.load shape site.bytes = .ok image
  size_eq : site.bytes.size = image.layout.total
  represents : Represents shape image table orders

theorem format_save : (format shape).save = Image.save shape := by
  rw [format]

/-! ### Rows of an image -/

theorem mapM_fetch {tables : List (HashChains Bytes)} {cells : List Bytes} {slot : Nat}
    (lengths : tables.length = cells.length)
    (each : ∀ (position : Nat) (chains : HashChains Bytes) (cell : Bytes),
      tables[position]? = some chains → cells[position]? = some cell →
      chains.keys[slot]? = some cell) :
    tables.mapM (fun chains => fetch chains.keys slot) = .ok cells := by
  induction tables generalizing cells with
  | nil =>
    rw [List.length_eq_zero_iff.mp lengths.symm]
    rfl
  | cons chains rest inductionHypothesis =>
    cases cells with
    | nil => simp at lengths
    | cons cell others =>
      have restFetched := inductionHypothesis (Nat.succ.inj lengths)
        fun position chains cell thereChains thereCell =>
          each (position + 1) chains cell thereChains thereCell
      rw [List.mapM_cons, fetch_of (each 0 chains cell rfl rfl), Checked.bind_ok, restFetched]
      rfl

namespace Represents

/-- The row of a slot is read from the keys of all dimensions and the value. -/
theorem entry_eq (represents : Represents shape image table orders) {slot : Nat} {row : Row}
    (there : table.rowAt slot = some row) : image.entry slot = .ok ⟨slot, row⟩ := by
  have fits := represents.wellFormed.fits slot row there
  have each (position : Nat) (chains : HashChains Bytes) (cell : Bytes)
      (thereChains : image.dimensions[position]? = some chains)
      (thereCell : row.cells[position]? = some cell) : chains.keys[slot]? = some cell := by
    have inside := (List.getElem?_eq_some_iff.mp thereChains).1
    rw [represents.tabled.length_eq] at inside
    have keyTable := represents.tabled.table position _ chains (List.getElem?_eq_getElem inside)
      thereChains
    exact keyTable.getElem?_keys slot cell (by rw [SlotTable.cell_of_row there, thereCell])
  have lengths : image.indices.length = row.indices.length := by
    have all := represents.tabled.length_eq.trans fits.length_cells.symm
    simpa [Image.dimensions, Row.cells] using all
  have indices := mapM_fetch lengths fun position chains cell thereChains thereCell =>
    each (position + 1) chains cell thereChains thereCell
  simp only [Image.entry, fetch_of (each 0 image.key row.key rfl rfl), Checked.bind_ok, indices,
    fetch_of (represents.valued.getElem?_eq slot row there)]
  rfl

theorem find_eq (represents : Represents shape image table orders) (key : Bytes) :
    image.key.find shape.key.hash key = .ok (table.find key) := by
  obtain ⟨found, run, spec⟩ :=
    represents.tabled.key.find_spec represents.wellFormed.distinct key
  rw [run]
  congr 1
  refine Option.ext fun slot => ?_
  rw [spec, represents.wellFormed.find_eq_some]

/-- The slots of a dimension, bucket after bucket. -/
def listing (capacity : Nat) (order : Nat → List Nat) : List Nat :=
  (List.range (2 * capacity)).flatMap order

theorem linkedSlots_eq (represents : Represents shape image table orders) :
    image.key.linkedSlots = .ok (listing image.header.capacity (orders 0)) := by
  rw [represents.tabled.key.chained.linkedSlots_eq, represents.tabled.key.size_buckets]
  rfl

theorem mem_listing (represents : Represents shape image table orders) {slot : Nat} :
    slot ∈ listing image.header.capacity (orders 0) ↔ ∃ row, table.rowAt slot = some row := by
  have member := @KeyTable.mem_listing _ _ _ _ _ slot represents.tabled.key
  rw [represents.tabled.key.size_buckets] at member
  have zero : 0 < shape.kinds.length := Nat.succ_pos _
  rw [listing, member, represents.wellFormed.cell_isSome zero, Option.isSome_iff_exists]

theorem nodup_listing (represents : Represents shape image table orders) :
    (listing image.header.capacity (orders 0)).Nodup := by
  rw [listing, List.range_eq_range']
  exact represents.tabled.key.chained.distinct_range 0 _

end Represents

/-- The rows of a table in the slots of a list. -/
def rowsIn (table : SlotTable) (slots : List Nat) : List Entry :=
  slots.filterMap fun slot => (table.rowAt slot).map fun row => ⟨slot, row⟩

/-- The rows of a table in the slots of a list, without their slots. -/
theorem map_row_rowsIn (table : SlotTable) (slots : List Nat) :
    (rowsIn table slots).map (·.row) = slots.filterMap table.rowAt := by
  rw [rowsIn, List.map_filterMap]
  congr 1
  funext slot
  cases table.rowAt slot <;> rfl

/-- The rows in slots that all hold one are read one after another. -/
theorem Represents.mapM_entry (represents : Represents shape image table orders) {slots : List Nat}
    (present : ∀ slot ∈ slots, ∃ row, table.rowAt slot = some row) :
    slots.mapM image.entry = .ok (rowsIn table slots) := by
  induction slots with
  | nil => rfl
  | cons slot rest inductionHypothesis =>
    obtain ⟨row, there⟩ := present slot List.mem_cons_self
    rw [List.mapM_cons, represents.entry_eq there, Checked.bind_ok,
      inductionHypothesis fun other member => present other (List.mem_cons_of_mem _ member)]
    have listed : rowsIn table (slot :: rest) = ⟨slot, row⟩ :: rowsIn table rest := by
      rw [rowsIn, List.filterMap_cons, there]
      rfl
    rw [listed]
    rfl

namespace Holds

/-! ### Reading -/

theorem load_header (holds : Holds shape site image table orders) :
    Header.load site.bytes = .ok image.header := by
  obtain ⟨header, layout, loaded, -, -, rfl⟩ := Image.load_eq_ok.mp holds.loaded
  exact loaded

theorem run_header (holds : Holds shape site image table orders) :
    header site = .ok image.header site := by
  simp only [header, Edit.run_bind, Store.run_bytes, holds.load_header, Edit.run_lift_ok]

theorem run_find (holds : Holds shape site image table orders) (key : Bytes) :
    find shape key site = .ok (table.find key) site :=
  Store.run_view_ok holds.loaded (holds.represents.find_eq key)

theorem run_contains (holds : Holds shape site image table orders) (key : Bytes) :
    contains shape key site = .ok (table.find key).isSome site := by
  simp only [contains, Edit.run_bind, holds.run_find, Edit.run_pure]

/-- The row with a key, as the table has it. -/
theorem run_get? (holds : Holds shape site image table orders) (key : Bytes) :
    get? shape key site = .ok ((table.find key).bind table.rowAt) site := by
  refine Store.run_view_ok holds.loaded ?_
  simp only [holds.represents.find_eq, Checked.bind_ok]
  cases found : table.find key with
  | none => rfl
  | some slot =>
    obtain ⟨row, there, -⟩ := SlotTable.cell_zero_eq_some.mp (SlotTable.cell_of_find found)
    rw [Option.bind_some, there]
    simp only [holds.represents.entry_eq there, Checked.bind_ok]
    rfl

theorem run_entries (holds : Holds shape site image table orders) :
    entries shape site =
      .ok (rowsIn table (Represents.listing image.header.capacity (orders 0))) site := by
  refine Store.run_view_ok holds.loaded ?_
  rw [holds.represents.linkedSlots_eq, Checked.bind_ok]
  exact holds.represents.mapM_entry fun slot => holds.represents.mem_listing.mp

end Holds

/-! ### Changing the image -/

/-- An edit that makes the image stand for a table does so in the block. -/
theorem run_edit [LawfulHost Buffer] (wellFormed : shape.WellFormed)
    (loaded : Image.load shape site.bytes = .ok image) (size_eq : site.bytes.size = image.layout.total)
    {α : Type} {change : Edit Image α} {answer : α} {changed : Image}
    (run : change image = .ok answer changed) (same : image.SameFrame changed)
    (represents : Represents shape changed table orders) :
    ∃ later, Store.edit (format shape) change site = .ok answer later ∧
      Holds shape later changed table orders ∧ site.Continues later := by
  have size : (Image.save shape changed site.bytes).size = site.bytes.size := by
    rw [Image.save_eq, Segment.size_writeAll]
  have bytes : (site.put (Image.save shape changed site.bytes)).bytes =
      Image.save shape changed site.bytes := Site.bytes_put size
  have total : changed.layout.total ≤ site.bytes.size :=
    Nat.le_of_eq (by rw [same.layout, size_eq])
  have edited := @Store.run_edit_ok _ _ _ _ site (format shape) image loaded change answer
    changed run
  rw [format_save] at edited
  refine ⟨_, edited, ⟨?_, ?_, represents⟩, Site.Continues.put site _⟩
  · rw [bytes]
    exact represents.sound.load_save wellFormed total
  · rw [bytes, size, size_eq, same.layout]

end PackedStore.IndexedMap
