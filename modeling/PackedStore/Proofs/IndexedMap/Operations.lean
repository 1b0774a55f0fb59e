/-
This file says what every operation on an indexed map does to the slot table of
its site and to the order of its slots. An operation either fails and leaves the
site as it was, or the site holds the table that the operation's answer belongs to.
An operation that needs more slots fails only when the larger capacity is refused,
and capacities that growth can reach are never refused by a host that grants
resizes.
-/

import PackedStore.Proofs.Host.Outcomes
import PackedStore.Proofs.IndexedMap.OrderedTables
import PackedStore.Proofs.IndexedMap.Resizing

namespace PackedStore.IndexedMap

variable {Buffer : Type} [Host Buffer] {shape : Shape} {site : Site Buffer} {image : Image}
  {table : SlotTable} {orders : Nat → Nat → List Nat}

/-- Some capacity that growth can reach is refused. -/
def CannotGrow (shape : Shape) (site : Site Buffer) (failure : Failure) : Prop :=
  ∃ capacity, capacity ≤ maxCapacity ∧ Refuses shape site capacity failure

theorem CannotGrow.documented {failure : Failure} (cannotGrow : CannotGrow shape site failure) :
    failure.Documented := by
  obtain ⟨capacity, -, failed | ⟨_, error, -, -, rfl⟩⟩ := cannotGrow
  · exact Layout.documented_compute shape failure failed
  · trivial

/-- What is reported leaves the table as it is. -/
theorem Carries.reported {state : OrderedTable} (carries : Carries shape site state)
    (events : List Event) : Carries shape { site with events } state := by
  obtain ⟨image, holds, same⟩ := carries
  exact ⟨image, ⟨holds.loaded, holds.size_eq, holds.represents⟩, same⟩

/-- A host that grants resizes refuses no capacity that growth can reach. -/
theorem not_cannotGrow {granted : Buffer → Prop} (granting : Granting granted)
    (here : granted site.buffer) (supported : shape.Supported) (few : shape.indices.length ≤ 2)
    (rowSize : shape.rowSize < 2 ^ 32) {failure : Failure} : ¬ CannotGrow shape site failure := by
  rintro ⟨capacity, bound, refuses⟩
  obtain ⟨layout, computed, total⟩ := Layout.compute_of supported few rowSize bound
  rcases refuses with failed | ⟨new, error, computed', refused, -⟩
  · exact absurd (computed.symm.trans failed) (by simp)
  · obtain rfl := Except.ok.inj (computed.symm.trans computed')
    obtain ⟨resized, run⟩ := granting.resizes site.buffer layout.total here total
    exact absurd (run.symm.trans refused) (by simp)

theorem Represents.firstFree_isSome (represents : Represents shape image table orders) :
    image.header.firstFree.isSome = !table.free.isEmpty := by
  have empty := represents.free.isEmpty_iff
  rw [← empty, FreeSlots.isEmpty, Option.not_isNone]

theorem Represents.firstFree_eq_none (represents : Represents shape image table orders) :
    image.header.firstFree = none ↔ table.free = [] := by
  have isSome := represents.firstFree_isSome
  rw [← Option.not_isSome_iff_eq_none, isSome]
  simp

/-- A map is full when its header says so. -/
theorem Represents.isFull_iff (represents : Represents shape image table orders) :
    (image.header.firstFree = none ∧ image.header.allocatedIndex = image.header.capacity) ↔
      (table.free = [] ∧ table.slots.length = image.header.capacity) := by
  rw [represents.firstFree_eq_none, represents.allocated]

/-- A map of a size that growth can reach is created in an empty block. -/
theorem run_init_of_granting [LawfulHost Buffer] {granted : Buffer → Prop}
    (granting : Granting granted) (here : granted site.buffer) (wellFormed : shape.WellFormed)
    (supported : shape.Supported) (few : shape.indices.length ≤ 2)
    (rowSize : shape.rowSize < 2 ^ 32) (empty : site.bytes.size = 0) {sizing : Sizing}
    (small : sizing.capacity ≤ maxCapacity) (step : sizing.log2MinGrowth ≤ 29) :
    ∃ later, init shape sizing site = .ok () later := by
  obtain ⟨capacity, least⟩ := grownCapacity_of (Nat.zero_le _) small step
  have bound := (IsCapacity.of_grown least).1.le_max
  obtain ⟨layout, computed, total⟩ := Layout.compute_of supported few rowSize bound
  obtain ⟨buffer, resized⟩ := granting.resizes site.buffer layout.total here total
  exact run_init empty least rowSize computed wellFormed resized

/-- What an insertion does before it takes a slot. -/
def makeSpace (shape : Shape) : Store Buffer Unit := do
  let before ← header
  if before.firstFree = none ∧ before.allocatedIndex = before.capacity then
    grow shape (← nextCapacity before.count before.capacity before.log2MinGrowth)

theorem insertNew_eq (row : Row) (site : Site Buffer) :
    insertNew shape row site =
      (do
        makeSpace shape
        Store.edit (format shape) (insertRow shape row) : Store Buffer Nat) site := by
  simp only [insertNew, makeSpace, Edit.run_bind]
  cases header site with
  | error failure later => rfl
  | ok before later =>
    by_cases full : before.firstFree = none ∧ before.allocatedIndex = before.capacity
    · simp only [if_pos full, Edit.run_bind]
      cases (liftM (nextCapacity before.count before.capacity before.log2MinGrowth) :
        Store Buffer Nat) later <;> rfl
    · simp only [if_neg full, Edit.run_pure]

/-- There is no room for more slots than the largest capacity. -/
theorem Represents.reserve_large (represents : Represents shape image table orders)
    {capacity : Nat} (large : maxCapacity < capacity) :
    (image.ordered table orders).reserve shape capacity = image.ordered table orders := by
  have step : image.header.log2MinGrowth < 64 :=
    Nat.lt_of_le_of_lt represents.framed.reached.le_log2 (by decide)
  have refused := @grownCapacity_eq_error table.count capacity _ step large
  simp only [OrderedTable.reserve, Image.ordered, refused, ite_self]

namespace Holds

/-- A host that grants resizes refuses no larger block to a map of one or two indices. -/
theorem not_cannotGrow (holds : Holds shape site image table orders) (wellFormed : shape.WellFormed)
    {granted : Buffer → Prop} (granting : Granting granted) (here : granted site.buffer)
    (few : shape.indices.length ≤ 2) {failure : Failure} : ¬ CannotGrow shape site failure := by
  have framed := holds.represents.framed
  have supported := (Layout.placed_of_compute wellFormed framed.computed).supported
  exact IndexedMap.not_cannotGrow granting here supported few framed.rowSize_lt

/-! ### Operations that find nothing to do -/

/-- A key that is present is not added again. -/
theorem run_tryAdd_present (holds : Holds shape site image table orders) {row : Row}
    (present : (table.find row.key).isSome) : tryAdd shape row site = .ok false site := by
  simp only [tryAdd, Edit.run_bind, holds.run_contains, present, if_pos, Edit.run_pure]

theorem run_tryAdd_absent (holds : Holds shape site image table orders) {row : Row}
    (absent : table.find row.key = none) :
    tryAdd shape row site =
      (do discard (insertNew shape row); return true : Store Buffer Bool) site := by
  have notFound : ¬ (none : Option Nat).isSome = true := by simp
  simp only [tryAdd, Edit.run_bind, holds.run_contains, absent, if_neg notFound]

/-- Adding a key that is present is a misuse. -/
theorem run_add_present (holds : Holds shape site image table orders) {row : Row}
    (present : (table.find row.key).isSome) :
    add shape row site = .error (.misuse .duplicateKey) site := by
  simp only [add, Edit.run_bind, holds.run_contains, present,
    demand_of_not (show ¬ true = false by decide), Edit.run_lift_error]

theorem run_add_absent (holds : Holds shape site image table orders) {row : Row}
    (absent : table.find row.key = none) : add shape row site = insertNew shape row site := by
  simp only [add, Edit.run_bind, holds.run_contains, absent, Option.isSome_none,
    demand_of, Edit.run_lift_ok]

theorem run_remove_absent (holds : Holds shape site image table orders) {key : Bytes}
    (absent : table.find key = none) : remove shape key site = .ok false site := by
  simp only [remove, Edit.run_bind, holds.run_find, absent, Edit.run_pure]

theorem run_exchange_absent (holds : Holds shape site image table orders) {key value : Bytes}
    (absent : table.find key = none) : exchange shape key value site = .ok none site := by
  simp only [exchange, Edit.run_bind, holds.run_find, absent, Edit.run_pure]

/-- Where a part of the rows takes no bytes, the map has no rows, and inserting one is a fault. -/
theorem run_add_unsized (holds : Holds shape site image table orders) {row : Row}
    (typed : row.Typed shape) (unsized : ¬ shape.Sized) :
    ∃ later, add shape row site = .error (.fault .outOfRange) later ∧
      tryAdd shape row site = .error (.fault .outOfRange) later := by
  have represents := holds.represents
  have noSlots : table.slots = [] :=
    List.length_eq_zero_iff.mp (Nat.eq_zero_of_not_pos (mt represents.wellFormed.sized unsized))
  have absent : table.find row.key = none := by
    simp [SlotTable.find, noSlots]
  have space : table.slots.length < image.header.capacity := by
    rw [noSlots]
    exact represents.framed.reached.pos
  have roomy : ¬ (image.header.firstFree = none ∧
      image.header.allocatedIndex = image.header.capacity) := fun full => by
    rw [represents.isFull_iff] at full
    omega
  obtain ⟨broken, run⟩ := represents.insertRow_unsized (Or.inr space) typed unsized
  obtain ⟨later, inserted⟩ : ∃ later, insertNew shape row site =
      .error (.fault .outOfRange) later := by
    refine ⟨site.put ((format shape).save broken site.bytes), ?_⟩
    simp only [insertNew, Edit.run_bind, holds.run_header, if_neg roomy]
    exact Store.run_edit_error holds.loaded run
  refine ⟨later, (holds.run_add_absent absent).trans inserted, ?_⟩
  simp only [holds.run_tryAdd_absent absent, Edit.run_bind, Edit.run_discard, inserted]

section

variable [LawfulHost Buffer] (wellFormed : shape.WellFormed)
  (holds : Holds shape site image table orders)

include wellFormed holds

/-- An edit of the image that makes it stand for a table leaves the site with that table. -/
theorem run_change {α : Type} {change : Edit Image α} {answer : α} {changed : Image}
    {other : SlotTable} {order : Nat → Nat → List Nat} (run : change image = .ok answer changed)
    (same : image.SameFrame changed) (represents : Represents shape changed other order) :
    ∃ later, Store.edit (format shape) change site = .ok answer later ∧
      Store.Follows (Carries shape) site later (image.ordered other order) := by
  obtain ⟨later, runEdit, holdsLater, continues⟩ :=
    run_edit wellFormed holds.loaded holds.size_eq run same represents
  refine ⟨later, runEdit, continues, changed, holdsLater, ?_⟩
  rw [Image.ordered, same.capacity_eq, same.log2MinGrowth_eq]
  rfl

/-- The map has a larger number of slots, or that number is refused. -/
theorem run_larger {capacity : Nat} (reached : IsCapacity image.header.log2MinGrowth capacity)
    (grows : image.header.capacity < capacity) :
    (∃ failure, grow shape capacity site = .error failure site ∧
      Refuses shape site capacity failure) ∨
    ∃ later, grow shape capacity site = .ok () later ∧
      Store.Follows (Carries shape) site later
        ((image.ordered table orders).grow shape capacity) := by
  rcases refuses_or_grants shape site capacity with
    ⟨failure, refuses⟩ | ⟨new, buffer, computed, resized⟩
  · exact Or.inl ⟨failure, holds.run_grow_refused wellFormed reached grows refuses, refuses⟩
  · obtain ⟨later, grown, run, holdsLater, capacityEq, stepEq, -, continues⟩ :=
      holds.run_grow wellFormed reached grows computed resized
    refine Or.inr ⟨later, run, continues, grown, holdsLater, ?_⟩
    rw [Image.ordered, capacityEq, stepEq]
    rfl

/-! ### Capacity -/

/-- Room for more slots is made, or the request is refused. -/
theorem run_setCapacity (capacity : Nat) :
    (∃ failure, setCapacity shape capacity site = .error failure site ∧
      ((maxCapacity < capacity ∧ failure = .overflow .slotCapacity) ∨
        CannotGrow shape site failure)) ∨
    (capacity ≤ maxCapacity ∧ ∃ later, setCapacity shape capacity site = .ok () later ∧
      Store.Follows (Carries shape) site later
        ((image.ordered table orders).reserve shape capacity)) := by
  have represents := holds.represents
  have reached := represents.framed.reached
  by_cases enough : image.header.capacity < capacity
  · have run : setCapacity shape capacity site =
        (liftM (grownCapacity image.header.count capacity image.header.log2MinGrowth) >>=
          grow shape : Store Buffer Unit) site := by
      simp only [setCapacity, Edit.run_bind, holds.run_header, if_pos enough]
    by_cases large : maxCapacity < capacity
    · refine Or.inl ⟨.overflow .slotCapacity, ?_, Or.inl ⟨large, rfl⟩⟩
      have step := reached.le_log2
      rw [run, grownCapacity_eq_error (by omega) large]
      rfl
    · have rows : image.header.count ≤ maxCapacity := by
        rw [represents.count]
        exact Nat.le_trans represents.count_le represents.capacity_le
      obtain ⟨larger, grown⟩ := grownCapacity_of rows (Nat.le_of_not_lt large) reached.le_log2
      obtain ⟨reachedLarger, -, room⟩ := IsCapacity.of_grown grown
      have grows : image.header.capacity < larger := by omega
      have reserves : (image.ordered table orders).reserve shape capacity =
          (image.ordered table orders).grow shape larger := by
        rw [represents.count] at grown
        simp only [OrderedTable.reserve, Image.ordered, if_pos enough, grown]
      rw [run, Edit.run_bind, grown, Edit.run_lift_ok, reserves]
      rcases holds.run_larger wellFormed reachedLarger grows with
        ⟨failure, refused, refuses⟩ | ⟨later, runGrow, follows⟩
      · exact Or.inl ⟨failure, refused, Or.inr ⟨larger, reachedLarger.le_max, refuses⟩⟩
      · exact Or.inr ⟨Nat.le_of_not_lt large, later, runGrow, follows⟩
  · have small := represents.capacity_le
    have reserves : (image.ordered table orders).reserve shape capacity =
        image.ordered table orders := if_neg enough
    refine Or.inr ⟨by omega, site, ?_, by rw [reserves]; exact .refl holds.carries⟩
    simp only [setCapacity, Edit.run_bind, holds.run_header, if_neg enough, Edit.run_pure]

/-! ### Adding -/

/-- A row is inserted in a slot that is there. -/
theorem run_insertRow (space : table.free ≠ [] ∨ table.slots.length < image.header.capacity)
    {row : Row} (fits : row.Fits shape) (absent : ∀ slot, table.cell 0 slot ≠ some row.key) :
    ∃ later, Store.edit (format shape) (insertRow shape row) site = .ok table.nextSlot later ∧
      Store.Follows (Carries shape) site later
        ((image.ordered table orders).insert shape row) := by
  obtain ⟨changed, run, same, represents⟩ := holds.represents.insertRow_spec space fits absent
  exact holds.run_change wellFormed run same represents

/-- There is a slot for one more row, after growth if need be, or there is no room for it. -/
theorem run_makeSpace :
    (∃ failure, makeSpace shape site = .error failure site ∧
      ((table.count = maxCapacity ∧ failure = .overflow .slotCapacity) ∨
        (table.count < maxCapacity ∧ CannotGrow shape site failure))) ∨
    (table.count < maxCapacity ∧ ∃ later, makeSpace shape site = .ok () later ∧
      site.Continues later ∧ ∃ roomy,
        Holds shape later roomy table ((image.ordered table orders).withSpace shape).orders ∧
        roomy.ordered table ((image.ordered table orders).withSpace shape).orders =
          (image.ordered table orders).withSpace shape ∧
        (table.free ≠ [] ∨ table.slots.length < roomy.header.capacity)) := by
  have represents := holds.represents
  have reached := represents.framed.reached
  have small := reached.le_max
  have counted := represents.wellFormed.count
  have room := represents.room
  by_cases full : table.free = [] ∧ table.slots.length = image.header.capacity
  · have rows : table.count = image.header.capacity := by
      rw [full.1, List.length_nil] at counted
      omega
    have grows : (image.ordered table orders).withSpace shape =
        (image.ordered table orders).grow shape (2 * image.header.capacity) := if_pos full
    have run : makeSpace shape site =
        ((do
          grow shape (← nextCapacity table.count image.header.capacity
            image.header.log2MinGrowth)) : Store Buffer Unit) site := by
      simp only [makeSpace, Edit.run_bind, holds.run_header,
        if_pos (represents.isFull_iff.mpr full), represents.count]
    rw [run, nextCapacity_eq reached (Nat.le_of_eq rows), grows]
    by_cases largest : image.header.capacity = maxCapacity
    · refine Or.inl ⟨.overflow .slotCapacity, ?_, Or.inl ⟨rows.trans largest, rfl⟩⟩
      simp only [if_pos largest, Edit.run_bind, Edit.run_lift_error]
    · have smaller : table.count < maxCapacity := by omega
      simp only [if_neg largest, Edit.run_bind, Edit.run_lift_ok]
      rcases holds.run_larger wellFormed (reached.double largest) reached.lt_double with
        ⟨failure, refused, refuses⟩ | ⟨later, grew, continues, grown, holdsLater, same⟩
      · exact Or.inl ⟨failure, refused,
          Or.inr ⟨smaller, _, (reached.double largest).le_max, refuses⟩⟩
      · have capacity : grown.header.capacity = 2 * image.header.capacity :=
          congrArg OrderedTable.capacity same
        have positive := reached.pos
        exact Or.inr ⟨smaller, later, grew, continues, grown, holdsLater, same,
          Or.inr (by omega)⟩
  · have space : table.free ≠ [] ∨ table.slots.length < image.header.capacity := by
      by_cases noHoles : table.free = []
      · exact Or.inr (Nat.lt_of_le_of_ne room fun equal => full ⟨noHoles, equal⟩)
      · exact Or.inl noHoles
    have smaller : table.count < maxCapacity := by
      rcases space with holes | below
      · have positive := List.length_pos_iff.mpr holes
        omega
      · omega
    have spacious : (image.ordered table orders).withSpace shape = image.ordered table orders :=
      if_neg full
    have idle := fun whole => full (represents.isFull_iff.mp whole)
    rw [spacious]
    refine Or.inr ⟨smaller, site, ?_, Site.Continues.refl site, image, holds, rfl, space⟩
    simp only [makeSpace, Edit.run_bind, holds.run_header, if_neg idle, Edit.run_pure]

/-- A new row is inserted where the table says, or there is no room for it. -/
theorem run_insertNew {row : Row} (fits : row.Fits shape)
    (absent : ∀ slot, table.cell 0 slot ≠ some row.key) :
    (∃ failure, insertNew shape row site = .error failure site ∧
      ((table.count = maxCapacity ∧ failure = .overflow .slotCapacity) ∨
        (table.count < maxCapacity ∧ CannotGrow shape site failure))) ∨
    (table.count < maxCapacity ∧ ∃ later, insertNew shape row site = .ok table.nextSlot later ∧
      Store.Follows (Carries shape) site later
        (((image.ordered table orders).withSpace shape).insert shape row)) := by
  rcases holds.run_makeSpace wellFormed with
    ⟨failure, refused, cause⟩ | ⟨smaller, later, made, continues, roomy, holdsLater, same, space⟩
  · refine Or.inl ⟨failure, ?_, cause⟩
    simp only [insertNew_eq, Edit.run_bind, refused]
  · obtain ⟨last, inserted, follows⟩ := holdsLater.run_insertRow wellFormed space fits absent
    rw [same] at follows
    refine Or.inr ⟨smaller, last, ?_, .after continues follows⟩
    simp only [insertNew_eq, Edit.run_bind, made, inserted]

/-! ### Removing and changing values -/

/-- The row with a key that is present is removed, and its slot is free. -/
theorem run_remove_present {key : Bytes} {slot : Nat} (found : table.find key = some slot) :
    ∃ later, remove shape key site = .ok true later ∧
      Store.Follows (Carries shape) site later
        ((image.ordered table orders).remove shape slot) := by
  obtain ⟨row, there, -⟩ := SlotTable.cell_zero_eq_some.mp (SlotTable.cell_of_find found)
  obtain ⟨changed, run, same, represents⟩ := holds.represents.removeRow_spec there
  obtain ⟨later, runEdit, follows⟩ := holds.run_change wellFormed run same represents
  have removes : (image.ordered table orders).remove shape slot = image.ordered (table.remove slot)
      (departed shape image.header.capacity orders row slot) := by
    simp only [OrderedTable.remove, Image.ordered, there, Option.elim_some]
  refine ⟨later, ?_, by rw [removes]; exact follows⟩
  simp only [remove, Edit.run_bind, holds.run_find, found, runEdit, Edit.run_pure]

/-- The row with a key that is present gets another value, and the old one is the answer. -/
theorem run_exchange_present {key value : Bytes} {slot : Nat} {row : Row}
    (found : table.find key = some slot) (there : table.rowAt slot = some row)
    (size : value.size = shape.value.size) :
    ∃ later, exchange shape key value site = .ok (some row.value) later ∧
      Store.Follows (Carries shape) site later
        ((image.ordered table orders).setValue slot value) := by
  have represents := holds.represents.setValue there size
  have fetched := fetch_of (holds.represents.valued.getElem?_eq slot row there)
  have run : (do
      let image ← get
      let old ← fetch image.values slot
      set { image with values := image.values.setIfInBounds slot value }
      return some old : Edit Image (Option Bytes)) image =
      .ok (some row.value) { image with values := image.values.setIfInBounds slot value } := by
    simp only [Edit.run_bind, Edit.run_get, fetched, Edit.run_lift_ok, Edit.run_set, Edit.run_pure]
  obtain ⟨later, runEdit, follows⟩ := holds.run_change wellFormed run ⟨rfl, rfl⟩ represents
  refine ⟨later, ?_, follows⟩
  simp only [exchange, Edit.run_bind, holds.run_find, found]
  exact runEdit

/-! ### Whole maps -/

/-- A cleared map has no rows and no used slots. -/
theorem run_clear : ∃ later, clear shape site = .ok () later ∧
    Store.Follows (Carries shape) site later
      (.empty image.header.capacity image.header.log2MinGrowth) := by
  obtain ⟨changed, run, same, represents⟩ :=
    clearRows_spec holds.represents.framed holds.represents.sound
  exact holds.run_change wellFormed run same represents

omit [LawfulHost Buffer] wellFormed in
/-- Flattening lays the map out afresh and stores its rows in the order in which they are listed. -/
theorem flatten_eq : flatten shape site =
    (do
      compact shape
      Store.edit (format shape) do
        putHeader fun header => { header with count := table.count, allocatedIndex := table.count }
        storeRows shape 0 ((Represents.listing image.header.capacity (orders 0)).filterMap
          table.rowAt) : Store Buffer Unit) site := by
  simp only [flatten, Edit.run_bind, holds.run_header, holds.run_entries, map_row_rowsIn,
    holds.represents.count]

omit [LawfulHost Buffer] wellFormed in
/-- There are as many listed rows as the map counts. -/
theorem length_listed :
    ((Represents.listing image.header.capacity (orders 0)).filterMap table.rowAt).length =
      table.count := by
  have represents := holds.represents
  have present (slot : Nat) := @Represents.mem_listing _ _ _ _ represents slot
  rw [SlotTable.length_rows fun slot member => (present slot).mp member]
  exact SlotTable.length_eq_count represents.nodup_listing present

omit [LawfulHost Buffer] wellFormed in
theorem fits_listed {row : Row} (member : row ∈ (Represents.listing image.header.capacity
    (orders 0)).filterMap table.rowAt) : row.Fits shape := by
  obtain ⟨slot, -, there⟩ := List.mem_filterMap.mp member
  exact holds.represents.wellFormed.fits slot row there

omit [LawfulHost Buffer] wellFormed in
theorem run_flatten_refused {capacity : Nat}
    (least : grownCapacity table.count table.count image.header.log2MinGrowth = .ok capacity)
    {failure : Failure} (refuses : Refuses shape site capacity failure) :
    flatten shape site = .error failure site := by
  rw [holds.flatten_eq]
  simp only [Edit.run_bind, holds.run_compact_refused least refuses]

/-- The map is emptied in a block of the least length and filled with its rows. -/
theorem run_flatten_granted {capacity : Nat}
    (least : grownCapacity table.count table.count image.header.log2MinGrowth = .ok capacity)
    {new : Layout} (computed : Layout.compute shape capacity (2 * capacity) = .ok new)
    {buffer : Buffer} (resized : Host.resize site.buffer new.total = .ok buffer) {rows : List Row}
    (isRows : (Represents.listing image.header.capacity (orders 0)).filterMap table.rowAt = rows) :
    ∃ later emptied changed, flatten shape site = .ok () later ∧
      emptied.Emptied shape (image.header.resized capacity) ∧
      (do
        putHeader fun header => { header with count := rows.length, allocatedIndex := rows.length }
        storeRows shape 0 rows) emptied = .ok () changed ∧
      Holds shape later changed (.ofRows rows)
        (enteredAll shape capacity (fun _ _ => []) 0 rows) ∧
      changed.header.capacity = capacity ∧
      changed.header.log2MinGrowth = image.header.log2MinGrowth ∧ site.Continues later := by
  subst isRows
  obtain ⟨-, room, -⟩ := IsCapacity.of_grown least
  obtain ⟨middle, emptied, runCompact, holdsEmptied, capacityEq, stepEq, blank, continues⟩ :=
    holds.run_compact wellFormed least computed resized
  obtain ⟨changed, runFill, same, filled⟩ := fillRows_spec holdsEmptied.represents
    (holds.represents.wellFormed.nodup_keys holds.represents.nodup_listing)
    (fun row => holds.fits_listed) (by rw [holds.length_listed, capacityEq]; exact room)
  obtain ⟨later, runEdit, holdsLater, continuesLater⟩ :=
    run_edit wellFormed holdsEmptied.loaded holdsEmptied.size_eq runFill same filled
  rw [capacityEq] at holdsLater
  refine ⟨later, emptied, changed, ?_, blank, runFill, holdsLater, same.capacity_eq.trans capacityEq,
    same.log2MinGrowth_eq.trans stepEq, continues.trans continuesLater⟩
  rw [holds.length_listed] at runEdit
  rw [holds.flatten_eq, Edit.run_bind, runCompact]
  exact runEdit

/-- A flattened map has its rows in the slots from zero on, or the smaller block is refused. -/
theorem run_flatten :
    (∃ failure, flatten shape site = .error failure site ∧ CannotGrow shape site failure) ∨
    ∃ later, flatten shape site = .ok () later ∧ ∃ capacity,
      grownCapacity table.count table.count image.header.log2MinGrowth = .ok capacity ∧
      Store.Follows (Carries shape) site later
        ((image.ordered table orders).flatten shape capacity) := by
  have represents := holds.represents
  have rows : table.count ≤ maxCapacity :=
    Nat.le_trans represents.count_le represents.capacity_le
  obtain ⟨capacity, least⟩ := grownCapacity_of rows rows represents.framed.reached.le_log2
  obtain ⟨reached, -, -⟩ := IsCapacity.of_grown least
  rcases refuses_or_grants shape site capacity with
    ⟨failure, refuses⟩ | ⟨new, buffer, computed, resized⟩
  · exact Or.inl ⟨failure, holds.run_flatten_refused least refuses, capacity, reached.le_max, refuses⟩
  · obtain ⟨later, _, changed, run, -, -, holdsLater, capacityEq, stepEq, continues⟩ :=
      holds.run_flatten_granted wellFormed least computed resized rfl
    refine Or.inr ⟨later, run, capacity, least, continues, changed, holdsLater, ?_⟩
    rw [Image.ordered, capacityEq, stepEq]
    rfl

/-- Taking out a range moves the later rows down; other ranges and free slots are a misuse. -/
theorem run_removeRange (start count : Nat) :
    (∃ misuse, removeRange shape start count site = .error (.misuse misuse) site ∧
      misuse.Documented ∧
      (image.ordered table orders).demandRange start count = .error (.misuse misuse)) ∨
    ∃ later, removeRange shape start count site = .ok () later ∧
      (image.ordered table orders).demandRange start count = .ok () ∧
      Store.Follows (Carries shape) site later
        ((image.ordered table orders).removeRange shape start count) := by
  have represents := holds.represents
  have noHoles : image.header.firstFree = none ↔ table.free = [] := represents.firstFree_eq_none
  unfold OrderedTable.demandRange Image.ordered
  by_cases full : table.free = []
  · rw [demand_of full]
    have length : table.count = table.slots.length := (represents.wellFormed.full full).1
    by_cases range : start ≤ table.count ∧ count ≤ table.count - start
    · rw [demand_of range]
      have inside : start + count ≤ table.slots.length := by omega
      have run : removeRange shape start count site =
          (if 0 < count then do
            Store.edit (format shape) (dropRange shape start count table.slots.length)
            Store.report (.rowsShifted count start)
          else return () : Store Buffer Unit) site := by
        simp only [removeRange, Edit.run_bind, holds.run_header, represents.count,
          demand_of (noHoles.mpr full), demand_of range, Edit.run_lift_ok]
        rw [← length]
        rfl
      by_cases some : 0 < count
      · obtain ⟨changed, runDrop, same, dropped⟩ := represents.dropRange_spec full inside
        obtain ⟨later, runEdit, continues, carries⟩ :=
          holds.run_change wellFormed runDrop same dropped
        refine Or.inr ⟨{ later with events := later.events ++ [.rowsShifted count start] }, ?_, rfl,
          continues.trans (Site.Continues.report later _), ?_⟩
        · rw [run, if_pos some]
          simp only [Edit.run_bind, runEdit, Store.run_report]
        · rw [OrderedTable.removeRange, if_pos some]
          exact carries.reported _
      · refine Or.inr ⟨site, ?_, rfl, ?_⟩
        · rw [run, if_neg some]
          rfl
        · rw [OrderedTable.removeRange, if_neg some]
          exact .refl holds.carries
    · refine Or.inl ⟨.rowsOutOfRange start count table.count, ?_, trivial, ?_⟩
      · simp only [removeRange, Edit.run_bind, holds.run_header, represents.count,
          demand_of (noHoles.mpr full), demand_of_not range, Edit.run_lift_ok, Edit.run_lift_error]
      · rw [demand_of_not range]
        rfl
  · refine Or.inl ⟨.holes, ?_, trivial, ?_⟩
    · have holes := fun none => full (noHoles.mp none)
      simp only [removeRange, Edit.run_bind, holds.run_header, demand_of_not holes,
        Edit.run_lift_error]
    · rw [demand_of_not full]
      rfl

end

end Holds

end PackedStore.IndexedMap
