/-
This file holds slot tables, which say what an indexed map means without buckets,
links and bytes: rows in numbered slots, and the stack of slots that are free
again. Rows go to the slot freed last or behind all others, and stay there until
they are removed.
-/

import Mathlib.Logic.Function.Basic
import PackedStore.IndexedMap.Image
import PackedStore.Proofs.IndexedMap.Layouts

namespace PackedStore.IndexedMap

/-! ### Rows -/

/-- The keys of a row in all dimensions, the unique one in front. -/
def Row.cells (row : Row) : List Bytes :=
  row.key :: row.indices

/-- The parts of a row have the sizes of their types. -/
structure Row.Typed (shape : Shape) (row : Row) : Prop where
  value : row.value.size = shape.value.size
  length_cells : row.cells.length = shape.kinds.length
  cells : ∀ (position : Nat) (kind : KeyType) (cell : Bytes), shape.kinds[position]? = some kind →
    row.cells[position]? = some cell → cell.size = kind.size

/-- Every part of a row takes bytes, so the array of each part has a member for every slot. -/
structure Shape.Sized (shape : Shape) : Prop where
  value : 0 < shape.value.size
  kinds : ∀ kind ∈ shape.kinds, 0 < kind.size

/-- A row can be stored if its parts have the sizes of their types and all of them take bytes. -/
structure Row.Fits (shape : Shape) (row : Row) : Prop extends Row.Typed shape row where
  sized : shape.Sized

/-! ### Tables -/

/-- Rows in numbered slots, and the free ones among the slots, the one freed last in front. -/
structure SlotTable where
  slots : List (Option Row)
  free : List Nat
deriving DecidableEq, Repr

namespace SlotTable

variable {table : SlotTable} {shape : Shape} {slot : Nat} {row : Row}

/-- The table without slots. -/
def empty : SlotTable := ⟨[], []⟩

/-- The row in a slot. -/
def rowAt (table : SlotTable) (slot : Nat) : Option Row :=
  table.slots[slot]?.join

/-- The key in a slot in one of the dimensions. -/
def cell (table : SlotTable) (position slot : Nat) : Option Bytes :=
  (table.rowAt slot).bind fun row => row.cells[position]?

/-- The number of rows. -/
def count (table : SlotTable) : Nat :=
  table.slots.countP Option.isSome

/-- The slot of the row with a key. -/
def find (table : SlotTable) (key : Bytes) : Option Nat :=
  table.slots.findIdx? fun row => row.any fun row => row.key = key

/-- The slot that the next row goes to. -/
def nextSlot (table : SlotTable) : Nat :=
  table.free.headD table.slots.length

/-- The table with one more row. -/
def insert (table : SlotTable) (row : Row) : SlotTable where
  slots := match table.free with
    | [] => table.slots ++ [some row]
    | slot :: _ => table.slots.set slot (some row)
  free := table.free.tail

/-- The table without the row in a slot. -/
def remove (table : SlotTable) (slot : Nat) : SlotTable where
  slots := table.slots.set slot none
  free := slot :: table.free

/-- The table with another value in the row of a slot. -/
def setValue (table : SlotTable) (slot : Nat) (value : Bytes) : SlotTable :=
  { table with slots := table.slots.modify slot (Option.map fun row => { row with value }) }

/-- The table with rows in the slots from zero on. -/
def ofRows (rows : List Row) : SlotTable where
  slots := rows.map some
  free := []

/-- The table without the rows in a range of slots, for a table without free slots. -/
def removeRange (table : SlotTable) (start count : Nat) : SlotTable where
  slots := table.slots.take start ++ table.slots.drop (start + count)
  free := table.free

/-- Keys are distinct, the free slots are those without a row, and all rows fit their types. Slots
are handed out for rows with bytes only. -/
structure WellFormed (shape : Shape) (table : SlotTable) : Prop where
  distinct : ∀ slot other key, table.cell 0 slot = some key → table.cell 0 other = some key →
    slot = other
  nodup_free : table.free.Nodup
  mem_free : ∀ slot, slot ∈ table.free ↔ table.slots[slot]? = some none
  count : table.count + table.free.length = table.slots.length
  fits : ∀ slot row, table.rowAt slot = some row → row.Fits shape
  sized : 0 < table.slots.length → shape.Sized

/-! ### Reading -/

theorem rowAt_eq_some : table.rowAt slot = some row ↔ table.slots[slot]? = some (some row) := by
  rw [rowAt, Option.join_eq_some_iff]

theorem row_lt (there : table.rowAt slot = some row) : slot < table.slots.length :=
  (List.getElem?_eq_some_iff.mp (rowAt_eq_some.mp there)).1

/-- A used slot without a row. -/
theorem vacant_iff :
    table.slots[slot]? = some none ↔
      slot < table.slots.length ∧ ¬ ∃ row, table.rowAt slot = some row := by
  simp only [rowAt_eq_some]
  by_cases inside : slot < table.slots.length
  · rw [List.getElem?_eq_getElem inside]
    cases table.slots[slot] <;> simp [inside]
  · simp [inside]

theorem cell_of_row (there : table.rowAt slot = some row) (position : Nat) :
    table.cell position slot = row.cells[position]? := by
  rw [cell, there, Option.bind_some]

theorem cell_of_vacant (vacant : table.rowAt slot = none) (position : Nat) :
    table.cell position slot = none := by
  rw [cell, vacant, Option.bind_none]

theorem cell_zero_eq_some {key : Bytes} :
    table.cell 0 slot = some key ↔ ∃ row, table.rowAt slot = some row ∧ row.key = key := by
  rw [cell, Option.bind_eq_some_iff]
  exact exists_congr fun row => and_congr_right fun _ => Option.some_inj

theorem WellFormed.cell_isSome (wellFormed : table.WellFormed shape) {position : Nat}
    (inside : position < shape.kinds.length) :
    (table.cell position slot).isSome ↔ (table.rowAt slot).isSome := by
  cases there : table.rowAt slot with
  | none => simp [cell_of_vacant there]
  | some row =>
    have lengths := (wellFormed.fits slot row there).length_cells
    simp [cell_of_row there, lengths, inside]

theorem WellFormed.rowAt_of_free (wellFormed : table.WellFormed shape)
    (free : slot ∈ table.free) : table.rowAt slot = none := by
  rw [rowAt, (wellFormed.mem_free slot).mp free, Option.join_some]

theorem cell_of_find {key : Bytes} (found : table.find key = some slot) :
    table.cell 0 slot = some key := by
  obtain ⟨inside, holds, -⟩ := List.findIdx?_eq_some_iff_getElem.mp found
  obtain ⟨row, isRow, same⟩ := (Option.any_eq_true ..).mp holds
  refine cell_zero_eq_some.mpr ⟨row, rowAt_eq_some.mpr ?_, of_decide_eq_true same⟩
  rw [List.getElem?_eq_getElem inside, isRow]

/-- A search gives the slot of the row with the key. -/
theorem WellFormed.find_eq_some (wellFormed : table.WellFormed shape) {key : Bytes} :
    table.find key = some slot ↔ table.cell 0 slot = some key := by
  refine ⟨cell_of_find, fun there => ?_⟩
  obtain ⟨row, isRow, same⟩ := cell_zero_eq_some.mp there
  have found : (table.find key).isSome := by
    rw [find, List.findIdx?_isSome, List.any_eq_true]
    exact ⟨some row, List.mem_of_getElem? (rowAt_eq_some.mp isRow), by simp [same]⟩
  obtain ⟨other, isOther⟩ := Option.isSome_iff_exists.mp found
  rw [isOther, wellFormed.distinct other slot key (cell_of_find isOther) there]

/-! ### Listing rows -/

theorem slots_eq (table : SlotTable) :
    table.slots = (List.range table.slots.length).map table.rowAt := by
  refine List.ext_getElem? fun slot => ?_
  rw [List.getElem?_map]
  by_cases inside : slot < table.slots.length
  · rw [List.getElem?_range inside, List.getElem?_eq_getElem inside, Option.map_some, rowAt,
      List.getElem?_eq_getElem inside, Option.join_some]
  · rw [List.getElem?_eq_none (Nat.le_of_not_lt inside), List.getElem?_eq_none (by simp; omega)]
    rfl

/-- A list of exactly the slots with a row is as long as there are rows. -/
theorem length_eq_count {slots : List Nat} (distinct : slots.Nodup)
    (present : ∀ slot, slot ∈ slots ↔ ∃ row, table.rowAt slot = some row) :
    slots.length = table.count := by
  have counted : table.count =
      ((List.range table.slots.length).filter fun slot => (table.rowAt slot).isSome).length := by
    rw [count, slots_eq, List.countP_map, List.countP_eq_length_filter, ← slots_eq]
    rfl
  rw [counted]
  refine List.Perm.length_eq
    ((List.perm_ext_iff_of_nodup distinct (List.nodup_range.filter _)).mpr fun slot => ?_)
  rw [present, List.mem_filter, List.mem_range, Option.isSome_iff_exists]
  exact ⟨fun ⟨row, there⟩ => ⟨row_lt there, row, there⟩, And.right⟩

theorem length_rows {slots : List Nat}
    (present : ∀ slot ∈ slots, ∃ row, table.rowAt slot = some row) :
    (slots.filterMap table.rowAt).length = slots.length := by
  rw [List.length_filterMap_eq_countP, List.countP_eq_length]
  intro slot member
  exact Option.isSome_iff_exists.mpr (present slot member)

theorem WellFormed.nodup_keys (wellFormed : table.WellFormed shape) {slots : List Nat}
    (distinct : slots.Nodup) : ((slots.filterMap table.rowAt).map Row.key).Nodup := by
  rw [List.Nodup, List.pairwise_map, List.pairwise_filterMap]
  refine distinct.imp fun different row isRow other isOther same => different ?_
  exact wellFormed.distinct _ _ row.key (cell_zero_eq_some.mpr ⟨row, isRow, rfl⟩)
    (cell_zero_eq_some.mpr ⟨other, isOther, same.symm⟩)

/-! ### Adding a row -/

theorem WellFormed.rowAt_nextSlot (wellFormed : table.WellFormed shape) :
    table.rowAt table.nextSlot = none := by
  cases isFree : table.free with
  | nil =>
    rw [nextSlot, isFree, List.headD_nil, rowAt, List.getElem?_eq_none (Nat.le_refl _)]
    rfl
  | cons slot rest =>
    rw [nextSlot, isFree, List.headD_cons]
    exact wellFormed.rowAt_of_free (by rw [isFree]; exact List.mem_cons_self)

theorem WellFormed.free_lt (wellFormed : table.WellFormed shape) (free : slot ∈ table.free) :
    slot < table.slots.length :=
  (List.getElem?_eq_some_iff.mp ((wellFormed.mem_free slot).mp free)).1

theorem WellFormed.getElem?_insert (wellFormed : table.WellFormed shape) (row : Row) (slot : Nat) :
    (table.insert row).slots[slot]? =
      if slot = table.nextSlot then some (some row) else table.slots[slot]? := by
  cases isFree : table.free with
  | nil =>
    simp only [insert, isFree, nextSlot, List.headD_nil]
    by_cases last : slot = table.slots.length
    · rw [if_pos last, last, List.getElem?_concat_length]
    · rw [if_neg last]
      by_cases inside : slot < table.slots.length
      · rw [List.getElem?_append_left inside]
      · rw [List.getElem?_eq_none (by simp; omega), List.getElem?_eq_none (by omega)]
  | cons first rest =>
    have inside : first < table.slots.length :=
      wellFormed.free_lt (by rw [isFree]; exact List.mem_cons_self)
    simp only [insert, isFree, nextSlot, List.headD_cons]
    by_cases same : slot = first
    · rw [if_pos same, same, List.getElem?_set_self inside]
    · rw [if_neg same, List.getElem?_set_ne fun equal => same equal.symm]

theorem WellFormed.rowAt_insert (wellFormed : table.WellFormed shape) (row : Row) :
    (table.insert row).rowAt = Function.update table.rowAt table.nextSlot (some row) := by
  funext slot
  rw [rowAt, wellFormed.getElem?_insert]
  by_cases same : slot = table.nextSlot
  · rw [if_pos same, same, Function.update_self]
    rfl
  · rw [if_neg same, Function.update_of_ne same]
    rfl

/-- Changing the row in a slot changes the keys in that slot. -/
theorem cell_update {changed : SlotTable} {content : Option Row}
    (update : changed.rowAt = Function.update table.rowAt slot content) (position : Nat) :
    changed.cell position =
      Function.update (table.cell position) slot (content.bind fun row => row.cells[position]?) := by
  funext other
  rw [cell, update]
  by_cases same : other = slot
  · rw [same, Function.update_self, Function.update_self]
  · rw [Function.update_of_ne same, Function.update_of_ne same]
    rfl

theorem WellFormed.cell_insert (wellFormed : table.WellFormed shape) (row : Row) (position : Nat) :
    (table.insert row).cell position =
      Function.update (table.cell position) table.nextSlot row.cells[position]? :=
  cell_update (wellFormed.rowAt_insert row) position

/-- Whether the next row needs a slot that was never used. -/
theorem length_insert (row : Row) :
    (table.insert row).slots.length =
      if table.free = [] then table.slots.length + 1 else table.slots.length := by
  cases isFree : table.free <;> simp [insert, isFree]

theorem WellFormed.count_insert (wellFormed : table.WellFormed shape) (row : Row) :
    (table.insert row).count = table.count + 1 := by
  cases isFree : table.free with
  | nil => simp [SlotTable.insert, SlotTable.count, isFree]
  | cons first rest =>
    have vacant := (wellFormed.mem_free first).mp (by rw [isFree]; exact List.mem_cons_self)
    obtain ⟨inside, isNone⟩ := List.getElem?_eq_some_iff.mp vacant
    simp [SlotTable.insert, SlotTable.count, isFree, List.countP_set inside, isNone]

theorem WellFormed.insert (wellFormed : table.WellFormed shape) {row : Row}
    (fits : row.Fits shape) (absent : ∀ slot, table.cell 0 slot ≠ some row.key) :
    (table.insert row).WellFormed shape := by
  have cells := wellFormed.cell_insert row 0
  have keyHere : row.cells[0]? = some row.key := rfl
  refine ⟨?_, ?_, ?_, ?_, ?_, fun _ => fits.sized⟩
  · intro slot other key here there
    rw [cells] at here there
    by_cases first : slot = table.nextSlot
    · by_cases second : other = table.nextSlot
      · rw [first, second]
      · rw [first, Function.update_self, keyHere] at here
        rw [Function.update_of_ne second, ← here] at there
        exact absurd there (absent other)
    · by_cases second : other = table.nextSlot
      · rw [second, Function.update_self, keyHere] at there
        rw [Function.update_of_ne first, ← there] at here
        exact absurd here (absent slot)
      · rw [Function.update_of_ne first] at here
        rw [Function.update_of_ne second] at there
        exact wellFormed.distinct slot other key here there
  · exact wellFormed.nodup_free.sublist (List.tail_sublist table.free)
  · intro slot
    rw [wellFormed.getElem?_insert]
    show slot ∈ table.free.tail ↔ _
    by_cases same : slot = table.nextSlot
    · rw [if_pos same]
      refine ⟨fun member => ?_, fun absurdity => absurd absurdity (by simp)⟩
      cases isFree : table.free with
      | nil =>
        rw [isFree] at member
        exact absurd member (by simp)
      | cons first rest =>
        have distinct := wellFormed.nodup_free
        rw [isFree] at member distinct
        rw [same, nextSlot, isFree] at member
        exact absurd member (List.nodup_cons.mp distinct).1
    · rw [if_neg same, ← wellFormed.mem_free]
      cases isFree : table.free with
      | nil => simp
      | cons first rest =>
        rw [nextSlot, isFree, List.headD_cons] at same
        simp [same]
  · have counted := wellFormed.count
    rw [wellFormed.count_insert, length_insert]
    show _ + table.free.tail.length = _
    cases isFree : table.free with
    | nil =>
      rw [isFree, List.length_nil] at counted
      rw [if_pos rfl, ← counted]
      rfl
    | cons first rest =>
      rw [isFree, List.length_cons] at counted
      rw [if_neg (List.cons_ne_nil _ _), ← counted, List.tail_cons]
      omega
  · intro slot other there
    rw [wellFormed.rowAt_insert] at there
    by_cases same : slot = table.nextSlot
    · rw [same, Function.update_self] at there
      rw [← Option.some.inj there]
      exact fits
    · rw [Function.update_of_ne same] at there
      exact wellFormed.fits slot other there

/-! ### Removing a row -/

theorem rowAt_remove (inside : slot < table.slots.length) :
    (table.remove slot).rowAt = Function.update table.rowAt slot none := by
  funext other
  rw [rowAt, remove]
  by_cases same : other = slot
  · rw [same, List.getElem?_set_self inside, Function.update_self]
    rfl
  · rw [List.getElem?_set_ne fun equal => same equal.symm, Function.update_of_ne same]
    rfl

theorem cell_remove (inside : slot < table.slots.length) (position : Nat) :
    (table.remove slot).cell position = Function.update (table.cell position) slot none :=
  cell_update (rowAt_remove inside) position

theorem count_remove {row : Row} (there : table.rowAt slot = some row) :
    (table.remove slot).count + 1 = table.count := by
  have inSlots := rowAt_eq_some.mp there
  obtain ⟨inside, isRow⟩ := List.getElem?_eq_some_iff.mp inSlots
  have positive : 0 < table.slots.countP Option.isSome :=
    List.countP_pos_iff.mpr ⟨_, List.mem_of_getElem? inSlots, rfl⟩
  simp only [remove, SlotTable.count, List.countP_set inside, isRow]
  simp
  omega

theorem WellFormed.remove (wellFormed : table.WellFormed shape) {row : Row}
    (there : table.rowAt slot = some row) : (table.remove slot).WellFormed shape := by
  have inside := row_lt there
  have notFree : slot ∉ table.free := fun free => by
    rw [wellFormed.rowAt_of_free free] at there
    exact absurd there (by simp)
  refine ⟨?_, List.nodup_cons.mpr ⟨notFree, wellFormed.nodup_free⟩, ?_, ?_, ?_,
    fun _ => (wellFormed.fits slot row there).sized⟩
  · intro first second key here other
    rw [cell_remove inside] at here other
    have left : first ≠ slot := fun same => by
      rw [same, Function.update_self] at here
      exact absurd here (by simp)
    have right : second ≠ slot := fun same => by
      rw [same, Function.update_self] at other
      exact absurd other (by simp)
    rw [Function.update_of_ne left] at here
    rw [Function.update_of_ne right] at other
    exact wellFormed.distinct first second key here other
  · intro other
    show other ∈ slot :: table.free ↔ (table.slots.set slot none)[other]? = some none
    by_cases same : other = slot
    · rw [same, List.getElem?_set_self inside]
      simp
    · rw [List.getElem?_set_ne fun equal => same equal.symm, List.mem_cons, or_iff_right same]
      exact wellFormed.mem_free other
  · have counted := wellFormed.count
    have less := count_remove there
    show _ + (slot :: table.free).length = (table.slots.set slot none).length
    rw [List.length_cons, List.length_set]
    omega
  · intro other content thereOther
    rw [rowAt_remove inside] at thereOther
    have different : other ≠ slot := fun same => by
      rw [same, Function.update_self] at thereOther
      exact absurd thereOther (by simp)
    rw [Function.update_of_ne different] at thereOther
    exact wellFormed.fits other content thereOther

/-! ### Changing a value -/

theorem rowAt_setValue (value : Bytes) (other : Nat) :
    (table.setValue slot value).rowAt other =
      if other = slot then (table.rowAt slot).map fun row => { row with value }
      else table.rowAt other := by
  rw [rowAt, setValue, List.getElem?_modify]
  by_cases same : other = slot
  · rw [if_pos same, same, rowAt]
    rcases table.slots[slot]? with _ | _ | row <;> simp
  · rw [if_neg same]
    have different : slot ≠ other := fun equal => same equal.symm
    simp [different, rowAt]

theorem cell_setValue (value : Bytes) (position : Nat) :
    (table.setValue slot value).cell position = table.cell position := by
  funext other
  rw [cell, rowAt_setValue]
  by_cases same : other = slot
  · rw [if_pos same, same, cell]
    cases table.rowAt slot <;> rfl
  · rw [if_neg same]
    rfl

theorem count_setValue (value : Bytes) : (table.setValue slot value).count = table.count := by
  have kept (slots : List (Option Row)) (slot : Nat) :
      (slots.modify slot (Option.map fun row => { row with value })).countP Option.isSome =
        slots.countP Option.isSome := by
    induction slots generalizing slot with
    | nil => simp
    | cons first rest inductionHypothesis =>
      cases slot with
      | zero => simp [List.countP_cons]
      | succ slot => simp [List.countP_cons, inductionHypothesis]
  exact kept table.slots slot

theorem WellFormed.setValue (wellFormed : table.WellFormed shape) {value : Bytes}
    (size : value.size = shape.value.size) : (table.setValue slot value).WellFormed shape := by
  refine ⟨?_, wellFormed.nodup_free, ?_, ?_, ?_, fun some => wellFormed.sized ?_⟩
  · rw [cell_setValue]
    exact wellFormed.distinct
  · intro other
    show other ∈ table.free ↔ (table.slots.modify slot _)[other]? = some none
    rw [wellFormed.mem_free, List.getElem?_modify]
    rcases table.slots[other]? with _ | _ | row <;> by_cases same : slot = other <;> simp [same]
  · rw [count_setValue]
    show _ + table.free.length = (table.slots.modify slot _).length
    rw [List.length_modify]
    exact wellFormed.count
  · intro other row there
    rw [rowAt_setValue] at there
    by_cases same : other = slot
    · rw [if_pos same, Option.map_eq_some_iff] at there
      obtain ⟨old, isOld, rfl⟩ := there
      have fits := wellFormed.fits slot old isOld
      exact ⟨⟨size, fits.length_cells, fits.cells⟩, fits.sized⟩
    · rw [if_neg same] at there
      exact wellFormed.fits other row there
  · rwa [SlotTable.setValue, List.length_modify] at some

/-! ### Rows from zero on -/

theorem rowAt_ofRows (rows : List Row) (slot : Nat) : (ofRows rows).rowAt slot = rows[slot]? := by
  rw [rowAt, ofRows, List.getElem?_map]
  cases rows[slot]? <;> rfl

theorem WellFormed.ofRows {rows : List Row} (distinct : (rows.map Row.key).Nodup)
    (fits : ∀ row ∈ rows, row.Fits shape) : (ofRows rows).WellFormed shape := by
  refine ⟨?_, List.nodup_nil, ?_, ?_, ?_, ?_⟩
  · intro slot other key here there
    obtain ⟨row, isRow, rfl⟩ := cell_zero_eq_some.mp here
    obtain ⟨second, isSecond, same⟩ := cell_zero_eq_some.mp there
    rw [rowAt_ofRows] at isRow isSecond
    have first : (rows.map Row.key)[slot]? = some row.key := by rw [List.getElem?_map, isRow]; rfl
    have last : (rows.map Row.key)[other]? = some row.key := by
      rw [List.getElem?_map, isSecond, ← same]
      rfl
    exact (List.getElem?_inj (List.getElem?_eq_some_iff.mp first).1 distinct).mp
      (first.trans last.symm)
  · intro slot
    show slot ∈ [] ↔ (rows.map some)[slot]? = some none
    rw [List.getElem?_map]
    cases rows[slot]? <;> simp
  · simp [SlotTable.ofRows, SlotTable.count, List.countP_map, Function.comp_def]
  · intro slot row there
    rw [rowAt_ofRows] at there
    exact fits row (List.mem_of_getElem? there)
  · intro some
    rw [SlotTable.ofRows, List.length_map] at some
    exact (fits _ (List.getElem_mem some)).sized

theorem count_ofRows (rows : List Row) : (ofRows rows).count = rows.length := by
  simp [ofRows, count, List.countP_map, Function.comp_def]

/-! ### Removing a range -/

/-- A table without free slots has a row in every slot. -/
theorem WellFormed.full (wellFormed : table.WellFormed shape) (noHoles : table.free = []) :
    table.count = table.slots.length ∧
      ∀ slot, (table.rowAt slot).isSome ↔ slot < table.slots.length := by
  have counted := wellFormed.count
  rw [noHoles, List.length_nil] at counted
  refine ⟨counted, fun slot => ⟨fun isSome => ?_, fun inside => ?_⟩⟩
  · obtain ⟨row, there⟩ := Option.isSome_iff_exists.mp isSome
    exact row_lt there
  · have present := (List.countP_eq_length.mp counted) _ (List.getElem_mem inside)
    obtain ⟨row, there⟩ := Option.isSome_iff_exists.mp present
    rw [rowAt_eq_some.mpr (by rw [List.getElem?_eq_getElem inside, there])]
    rfl

theorem rowAt_removeRange {start count : Nat} (range : start + count ≤ table.slots.length)
    (slot : Nat) :
    (table.removeRange start count).rowAt slot =
      table.rowAt (if slot < start then slot else slot + count) := by
  rw [rowAt, removeRange, rowAt]
  have front : (table.slots.take start).length = start := by simp; omega
  by_cases before : slot < start
  · rw [if_pos before, List.getElem?_append_left (by omega), List.getElem?_take_of_lt before]
  · rw [if_neg before, List.getElem?_append_right (by omega), front, List.getElem?_drop]
    congr 2
    omega

theorem length_removeRange {start count : Nat} (range : start + count ≤ table.slots.length) :
    (table.removeRange start count).slots.length = table.slots.length - count := by
  rw [removeRange, List.length_append, List.length_take, List.length_drop]
  omega

theorem WellFormed.removeRange (wellFormed : table.WellFormed shape) (noHoles : table.free = [])
    {start count : Nat} (range : start + count ≤ table.slots.length) :
    (table.removeRange start count).WellFormed shape ∧
      (table.removeRange start count).count = table.slots.length - count := by
  obtain ⟨-, full⟩ := wellFormed.full noHoles
  have rows := rowAt_removeRange range
  have present : ∀ content ∈ (table.removeRange start count).slots, content.isSome := by
    intro content member
    have inTable : content ∈ table.slots := by
      rcases List.mem_append.mp member with front | behind
      · exact List.mem_of_mem_take front
      · exact List.mem_of_mem_drop behind
    obtain ⟨slot, there⟩ := List.getElem?_of_mem inTable
    have isSome := (full slot).mpr (List.getElem?_eq_some_iff.mp there).1
    rw [rowAt, there, Option.join_some] at isSome
    exact isSome
  have counted : (table.removeRange start count).count = table.slots.length - count :=
    (List.countP_eq_length.mpr present).trans (length_removeRange range)
  refine ⟨⟨?_, wellFormed.nodup_free, ?_, ?_, ?_, fun some => wellFormed.sized ?_⟩, counted⟩
  · intro slot other key here there
    obtain ⟨row, isRow, rfl⟩ := cell_zero_eq_some.mp here
    obtain ⟨second, isSecond, same⟩ := cell_zero_eq_some.mp there
    rw [rows] at isRow isSecond
    have equal := wellFormed.distinct _ _ row.key (cell_zero_eq_some.mpr ⟨row, isRow, rfl⟩)
      (cell_zero_eq_some.mpr ⟨second, isSecond, same⟩)
    split at equal <;> split at equal <;> omega
  · intro slot
    show slot ∈ table.free ↔ _
    rw [noHoles]
    refine ⟨fun member => absurd member (by simp), fun vacant => ?_⟩
    exact absurd (present _ (List.mem_of_getElem? vacant)) (by simp)
  · rw [counted, length_removeRange range]
    show _ + table.free.length = _
    rw [noHoles, List.length_nil, Nat.add_zero]
  · intro slot row there
    rw [rows] at there
    exact wellFormed.fits _ row there
  · rw [length_removeRange range] at some
    exact Nat.lt_of_lt_of_le some (Nat.sub_le _ _)

end SlotTable

end PackedStore.IndexedMap
