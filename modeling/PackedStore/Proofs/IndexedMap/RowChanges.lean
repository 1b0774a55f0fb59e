/-
This file says what the changes of single rows do to the slot table that an image
stands for. A new row goes to the slot freed last or to the first one never used;
a row that goes is unlinked everywhere and its slot is the next one to be handed
out; another value changes the row's value only.
-/

import PackedStore.Proofs.IndexedMap.Representation

namespace PackedStore.IndexedMap

variable {shape : Shape} {image : Image} {capacity : Nat}

/-! ### Storing a row -/

/-- The order of the slots in each dimension after a row has been linked. -/
def entered (shape : Shape) (capacity : Nat) (orders : Nat → Nat → List Nat) (row : Row)
    (slot : Nat) : Nat → Nat → List Nat := fun position =>
  match shape.kinds[position]?, row.cells[position]? with
  | some kind, some key => HashChains.enter (orders position) (kind.home capacity key) slot
  | _, _ => orders position

/-- The order of the slots in each dimension after a row has been unlinked. -/
def departed (shape : Shape) (capacity : Nat) (orders : Nat → Nat → List Nat) (row : Row)
    (slot : Nat) : Nat → Nat → List Nat := fun position =>
  match shape.kinds[position]?, row.cells[position]? with
  | some kind, some key => HashChains.leave (orders position) (kind.home capacity key) slot
  | _, _ => orders position

section

variable {cell : Nat → Nat → Option Bytes} {orders : Nat → Nat → List Nat} {slot : Nat} {row : Row}

/-- The keys and links of a row have been stored, and the links of other slots are the same. -/
theorem run_storeRow (tabled : Tabled shape capacity cell orders image.dimensions)
    (fits : row.Fits shape) (below : slot < capacity) (vacant : ∀ position, cell position slot = none)
    (size : image.values.size = Codec.arraySize shape.value.size capacity) :
    ∃ key indices,
      storeRow shape slot row image = .ok () { image with
        values := image.values.setIfInBounds slot row.value, key, indices } ∧
      Tabled shape capacity
        (fun position => Function.update (cell position) slot row.cells[position]?)
        (entered shape capacity orders row slot) (key :: indices) ∧
      ∀ other, other ≠ slot → key.next[other]? = image.key.next[other]? := by
  have lengths : (shape.kinds.zip row.cells).length = shape.kinds.length := by
    rw [List.length_zip, fits.length_cells, Nat.min_self]
  obtain ⟨key, indices, runKey, runIndices, stored, other⟩ :=
    @Tabled.run_each shape image capacity cell
      (fun position => Function.update (cell position) slot row.cells[position]?) orders
      (entered shape capacity orders row slot) tabled
      (HashChains.insert shape.key.hash slot row.key)
      ((shape.indices.zip row.indices).map fun part => HashChains.insert part.1.hash slot part.2)
      (fun _ before changed => ∀ other, other ≠ slot → changed.next[other]? = before.next[other]?)
      (by simpa [Shape.kinds, Row.cells] using lengths)
      (by
        intro position kind edit chains thereKind thereEdit table
        have mapped : ((shape.kinds.zip row.cells).map fun part =>
            HashChains.insert part.1.hash slot part.2)[position]? = some edit := thereEdit
        rw [List.getElem?_map, Option.map_eq_some_iff] at mapped
        obtain ⟨⟨kind', content⟩, therePair, rfl⟩ := mapped
        obtain ⟨thereKind', thereContent⟩ := List.getElem?_zip_eq_some.mp therePair
        obtain rfl : kind = kind' := Option.some.inj (thereKind.symm.trans thereKind')
        simp only [entered, thereKind, thereContent]
        exact table.insert_spec below (vacant position)
          ⟨fits.cells position kind content thereKind thereContent,
            fits.sized.kinds kind (List.mem_of_getElem? thereKind)⟩)
  refine ⟨key, indices, ?_, stored, other⟩
  have inside : slot < image.values.size := by
    rw [size]
    exact Codec.lt_arraySize.mpr ⟨fits.sized.value, below⟩
  let valued : Image := { image with values := image.values.setIfInBounds slot row.value }
  have stepKey := @run_onKey valued _ _ _ _ runKey
  have stepIndices := @run_onIndices { valued with key } _ _ runIndices
  simp only [storeRow, Edit.run_bind, Edit.run_get, require_of inside, Edit.run_lift_ok,
    Edit.run_set]
  rw [stepKey]
  exact stepIndices

/-- An index without bytes cannot be linked. -/
theorem run_insertIndices_unsized (tabled : Tabled shape capacity cell orders image.dimensions)
    (typed : row.Typed shape) (below : slot < capacity) {kind : KeyType}
    (member : kind ∈ shape.indices) (unsized : kind.size = 0) :
    ∃ broken, Edit.onEach ((shape.indices.zip row.indices).map fun part =>
      HashChains.insert part.1.hash slot part.2) image.indices =
        .error (.fault .outOfRange) broken := by
  have lengthIndices : image.indices.length = shape.indices.length :=
    Nat.succ.inj tabled.length_eq
  have lengthRow : row.indices.length = shape.indices.length := Nat.succ.inj typed.length_cells
  have linked (position : Nat) (edit : Edit (HashChains Bytes) Unit) (chains : HashChains Bytes)
      (thereEdit : ((shape.indices.zip row.indices).map fun part =>
        HashChains.insert part.1.hash slot part.2)[position]? = some edit)
      (thereChains : image.indices[position]? = some chains) :
      (∃ changed, edit chains = .ok () changed) ∨
        ∃ changed, edit chains = .error (.fault .outOfRange) changed := by
    rw [List.getElem?_map, Option.map_eq_some_iff] at thereEdit
    obtain ⟨⟨kind', content⟩, therePair, rfl⟩ := thereEdit
    have thereKind := (List.getElem?_zip_eq_some.mp therePair).1
    rcases (tabled.table (position + 1) kind' chains thereKind thereChains).insert_cases below
      content with ⟨-, run⟩ | ⟨-, run⟩
    · exact Or.inl run
    · exact Or.inr ⟨_, run⟩
  obtain ⟨position, inside, isKind⟩ := List.getElem_of_mem member
  have thereKind : shape.indices[position]? = some kind := isKind ▸ List.getElem?_eq_getElem inside
  have insideRow : position < row.indices.length := lengthRow ▸ inside
  have thereChains :=
    List.getElem?_eq_getElem (lengthIndices ▸ inside : position < image.indices.length)
  have therePair : (shape.indices.zip row.indices)[position]? = some (kind, row.indices[position]) :=
    List.getElem?_zip_eq_some.mpr ⟨thereKind, List.getElem?_eq_getElem insideRow⟩
  have thereEdit : ((shape.indices.zip row.indices).map fun part =>
      HashChains.insert part.1.hash slot part.2)[position]? =
        some (HashChains.insert kind.hash slot row.indices[position]) := by
    rw [List.getElem?_map, therePair]
    rfl
  rcases (tabled.table (position + 1) kind _ thereKind thereChains).insert_cases below
    row.indices[position] with ⟨sized, -⟩ | ⟨-, run⟩
  · omega
  · exact Edit.run_onEach_error linked thereEdit thereChains run

/-- A row with a part that takes no bytes cannot be stored, because the array of that part has no
members. The parts are written in order, and what was written before stays. -/
theorem run_storeRow_unsized (tabled : Tabled shape capacity cell orders image.dimensions)
    (typed : row.Typed shape) (unsized : ¬ shape.Sized) (below : slot < capacity)
    (size : image.values.size = Codec.arraySize shape.value.size capacity) :
    ∃ broken, storeRow shape slot row image = .error (.fault .outOfRange) broken := by
  by_cases inside : slot < image.values.size
  · have value : 0 < shape.value.size := by
      rw [size] at inside
      exact (Codec.lt_arraySize.mp inside).1
    simp only [storeRow, Edit.run_bind, Edit.run_get, require_of inside, Edit.run_lift_ok,
      Edit.run_set]
    rcases tabled.key.insert_cases below row.key with ⟨keySized, key, runKey⟩ | ⟨-, runKey⟩
    · obtain ⟨kind, member, none⟩ : ∃ kind ∈ shape.indices, kind.size = 0 := by
        by_contra all
        refine unsized ⟨value, fun kind member => ?_⟩
        rcases List.mem_cons.mp member with rfl | index
        · exact keySized
        · exact Nat.pos_of_ne_zero fun none => all ⟨kind, index, none⟩
      obtain ⟨broken, runIndices⟩ := run_insertIndices_unsized tabled typed below member none
      rw [@run_onKey { image with values := image.values.setIfInBounds slot row.value } _ _ _ _
        runKey]
      simp only [onIndices, Edit.onPart, runIndices]
      exact ⟨_, rfl⟩
    · simp only [onKey, Edit.onPart, runKey]
      exact ⟨_, rfl⟩
  · simp only [storeRow, Edit.run_bind, Edit.run_get, require_of_not inside, Edit.run_lift_error]
    exact ⟨_, rfl⟩

end

/-! ### Adding a row -/

namespace Represents

variable {table : SlotTable} {orders : Nat → Nat → List Nat}

theorem nextSlot_lt (represents : Represents shape image table orders)
    (space : table.free ≠ [] ∨ table.slots.length < image.header.capacity) :
    table.nextSlot < image.header.capacity := by
  have room := represents.room
  cases isFree : table.free with
  | nil =>
    rw [SlotTable.nextSlot, isFree, List.headD_nil]
    exact space.resolve_left fun some => some isFree
  | cons first rest =>
    have inside : first < table.slots.length :=
      represents.wellFormed.free_lt (by rw [isFree]; exact List.mem_cons_self)
    rw [SlotTable.nextSlot, isFree, List.headD_cons]
    omega

/-- The slot of the next row has been taken off the free ones, and nothing is linked there yet. -/
theorem takeSlot_spec (represents : Represents shape image table orders) :
    ∃ taken, takeSlot image = .ok table.nextSlot taken ∧ image.SameFrame taken ∧
      taken.values = image.values ∧
      taken.header.allocatedIndex =
        (if table.free = [] then table.slots.length + 1 else table.slots.length) ∧
      taken.header.count = table.count + 1 ∧
      FreeSlots.Stacked { head := taken.header.firstFree, next := taken.key.next }
        table.free.tail ∧
      Tabled shape image.header.capacity table.cell orders taken.dimensions := by
  have small := represents.capacity_le
  unfold maxCapacity at small
  have counted := represents.count_le
  have room := represents.room
  have stacked := represents.free
  have countWord : successor image.header.count = .ok (image.header.count + 1) :=
    successor_of (by rw [represents.count]; omega)
  cases isFree : table.free with
  | nil =>
    rw [isFree] at stacked
    have word : successor image.header.allocatedIndex = .ok (image.header.allocatedIndex + 1) :=
      successor_of (by rw [represents.allocated]; omega)
    have popped : onFree FreeSlots.pop image = .ok none image :=
      run_onFree stacked.run_pop_nil
    refine ⟨{ image with header := { image.header with
      allocatedIndex := image.header.allocatedIndex + 1, count := image.header.count + 1 } },
      ?_, ⟨rfl, rfl⟩, rfl, ?_, ?_, stacked, represents.tabled⟩
    · have next : table.nextSlot = image.header.allocatedIndex := by
        rw [SlotTable.nextSlot, isFree, List.headD_nil, represents.allocated]
      simp only [takeSlot, Edit.run_bind, popped, Edit.run_get, word, Edit.run_lift_ok, putHeader,
        Edit.run_modify, countWord, Edit.run_pure, next]
    · rw [if_pos rfl, represents.allocated]
    · simp only [represents.count]
  | cons slot rest =>
    rw [isFree] at stacked
    obtain ⟨head, run, stackedRest⟩ := stacked.run_pop_cons
    have vacant := represents.wellFormed.rowAt_of_free
      (show slot ∈ table.free by rw [isFree]; exact List.mem_cons_self)
    have popped : onFree FreeSlots.pop image = .ok (some slot) { image with
        header := { image.header with firstFree := head }
        key := { image.key with next := image.key.next.setIfInBounds slot none } } :=
      run_onFree run
    have tabled := Tabled.set_next represents.tabled (SlotTable.cell_of_vacant vacant 0)
      (fun _ absurdity => absurd absurdity (by simp : (none : Link) ≠ some _))
    refine ⟨{ image with
      header := { image.header with firstFree := head, count := image.header.count + 1 }
      key := { image.key with next := image.key.next.setIfInBounds slot none } },
      ?_, ⟨rfl, rfl⟩, rfl, ?_, ?_, stackedRest, tabled⟩
    · simp only [takeSlot, Edit.run_bind, popped, Edit.run_get, Edit.run_lift_ok, putHeader,
        Edit.run_modify, countWord, Edit.run_pure, SlotTable.nextSlot, isFree, List.headD_cons]
    · rw [if_neg (List.cons_ne_nil _ _)]
      exact represents.allocated
    · simp only [represents.count]

/-- A new row goes to the next slot and is linked in every dimension. -/
theorem insertRow_spec (represents : Represents shape image table orders)
    (space : table.free ≠ [] ∨ table.slots.length < image.header.capacity) {row : Row}
    (fits : row.Fits shape) (absent : ∀ slot, table.cell 0 slot ≠ some row.key) :
    ∃ changed, insertRow shape row image = .ok table.nextSlot changed ∧ image.SameFrame changed ∧
      Represents shape changed (table.insert row)
        (entered shape image.header.capacity orders row table.nextSlot) := by
  have wellFormed := represents.wellFormed
  have below := represents.nextSlot_lt space
  have vacant := wellFormed.rowAt_nextSlot
  obtain ⟨taken, runTake, same, values, allocated, count, stacked, tabled⟩ :=
    represents.takeSlot_spec
  have size : taken.values.size =
      Codec.arraySize shape.value.size image.header.capacity := by
    rw [values]
    exact represents.valued.size_eq
  obtain ⟨key, indices, runStore, stored, other⟩ :=
    run_storeRow tabled fits below (SlotTable.cell_of_vacant vacant) size
  have notFree : table.nextSlot ∉ table.free.tail := fun member => by
    cases isFree : table.free with
    | nil =>
      rw [isFree] at member
      exact absurd member (by simp)
    | cons first rest =>
      have distinct := wellFormed.nodup_free
      rw [SlotTable.nextSlot, isFree] at member
      rw [isFree] at distinct
      exact (List.nodup_cons.mp distinct).1 member
  refine ⟨{ taken with values := taken.values.setIfInBounds table.nextSlot row.value, key, indices },
    ?_, same.trans ⟨rfl, rfl⟩, ⟨represents.framed.of_same (same.trans ⟨rfl, rfl⟩),
      wellFormed.insert fits absent, ?_, ?_, ?_, ?_, ?_, ?_⟩⟩
  · simp only [insertRow, Edit.run_bind, runTake, runStore, Edit.run_pure]
  · rw [SlotTable.length_insert]
    exact allocated
  · have room := represents.room
    show _ ≤ taken.header.capacity
    rw [SlotTable.length_insert, same.capacity_eq]
    split
    · next isFree => exact space.resolve_left fun some => some isFree
    · exact room
  · rw [wellFormed.count_insert]
    exact count
  · refine Link.Leads.congr stacked fun slot member => other slot fun equal => ?_
    exact notFree (equal ▸ member)
  · show Valued shape taken.header.capacity _ _
    rw [same.capacity_eq, values]
    refine represents.valued.set (wellFormed.rowAt_insert row) ?_ fits.value
    rw [represents.valued.size_eq]
    exact Codec.lt_arraySize.mpr ⟨fits.sized.value, below⟩
  · have cells : (table.insert row).cell =
        fun position => Function.update (table.cell position) table.nextSlot row.cells[position]? :=
      funext (wellFormed.cell_insert row)
    show Tabled shape taken.header.capacity _ _ (key :: indices)
    rw [cells, same.capacity_eq]
    exact stored

/-- A new row with a part that takes no bytes is not inserted, though a slot has been taken for
it. -/
theorem insertRow_unsized (represents : Represents shape image table orders)
    (space : table.free ≠ [] ∨ table.slots.length < image.header.capacity) {row : Row}
    (typed : row.Typed shape) (unsized : ¬ shape.Sized) :
    ∃ broken, insertRow shape row image = .error (.fault .outOfRange) broken := by
  obtain ⟨taken, runTake, -, values, -, -, -, tabled⟩ := represents.takeSlot_spec
  obtain ⟨broken, runStore⟩ := run_storeRow_unsized tabled typed unsized
    (represents.nextSlot_lt space) (values ▸ represents.valued.size_eq)
  exact ⟨broken, by simp only [insertRow, Edit.run_bind, runTake, runStore]⟩

end Represents

/-! ### Removing a row -/

theorem unlinkLinked_of {kind : KeyType} {slot : Nat} {chains changed : HashChains Bytes}
    (run : HashChains.unlink kind.hash slot chains = .ok true changed) :
    unlinkLinked kind slot chains = .ok () changed := by
  simp only [unlinkLinked, Edit.run_bind, run, require_of, Edit.run_lift_ok]

/-- The slot of a row is unlinked in every dimension, and the links of free slots are the same. -/
theorem run_unlinkRow {cell : Nat → Nat → Option Bytes} {orders : Nat → Nat → List Nat} {slot : Nat}
    {row : Row} (tabled : Tabled shape capacity cell orders image.dimensions)
    (fits : row.Fits shape) (linked : ∀ position, cell position slot = row.cells[position]?) :
    ∃ key indices,
      onKey (unlinkLinked shape.key slot) image = .ok () { image with key } ∧
      onIndices (shape.indices.map fun kind => unlinkLinked kind slot) { image with key } =
        .ok () { image with key, indices } ∧
      Tabled shape capacity (fun position => Function.update (cell position) slot none)
        (departed shape capacity orders row slot) (key :: indices) ∧
      ∀ other, cell 0 other = none → key.next[other]? = image.key.next[other]? := by
  obtain ⟨key, indices, runKey, runIndices, unlinked, other⟩ :=
    @Tabled.run_each shape image capacity cell
      (fun position => Function.update (cell position) slot none) orders
      (departed shape capacity orders row slot) tabled (unlinkLinked shape.key slot)
      (shape.indices.map fun kind => unlinkLinked kind slot)
      (fun position before changed => ∀ other, cell position other = none →
        changed.next[other]? = before.next[other]?)
      (by simp [Shape.kinds])
      (by
        intro position kind edit chains thereKind thereEdit table
        have mapped : (shape.kinds.map fun kind => unlinkLinked kind slot)[position]? =
            some edit := thereEdit
        rw [List.getElem?_map, thereKind] at mapped
        obtain rfl := Option.some.inj mapped
        have covered : position < row.cells.length := by
          rw [fits.length_cells]
          exact (List.getElem?_eq_some_iff.mp thereKind).1
        have content := List.getElem?_eq_getElem covered
        obtain ⟨changed, run, keyTable, other⟩ := table.unlink_spec ((linked position).trans content)
        simp only [departed, thereKind, content]
        exact ⟨changed, unlinkLinked_of run, keyTable, other⟩)
  exact ⟨key, indices, run_onKey runKey, @run_onIndices { image with key } _ _ runIndices, unlinked,
    other⟩

namespace Represents

variable {table : SlotTable} {orders : Nat → Nat → List Nat}

/-- A removed row is unlinked in every dimension, and its slot is freed. -/
theorem removeRow_spec (represents : Represents shape image table orders) {slot : Nat} {row : Row}
    (there : table.rowAt slot = some row) :
    ∃ changed, removeRow shape slot image = .ok () changed ∧ image.SameFrame changed ∧
      Represents shape changed (table.remove slot)
        (departed shape image.header.capacity orders row slot) := by
  have wellFormed := represents.wellFormed
  have inside := SlotTable.row_lt there
  have room := represents.room
  obtain ⟨key, indices, stepKey, stepIndices, unlinked, other⟩ :=
    run_unlinkRow represents.tabled (wellFormed.fits slot row there)
      (SlotTable.cell_of_row there)
  have stacked : FreeSlots.Stacked { head := image.header.firstFree, next := key.next } table.free :=
    Link.Leads.congr represents.free fun free member =>
      other free (SlotTable.cell_of_vacant (wellFormed.rowAt_of_free member) 0)
  have keyTable := unlinked.table 0 shape.key key rfl rfl
  have insideNext : slot < key.next.size := by
    rw [keyTable.size_next]
    omega
  have named : slot < Link.slotLimit :=
    Nat.lt_of_lt_of_le insideNext (keyTable.size_next ▸ keyTable.named)
  have notFree : slot ∉ table.free := fun member => by
    rw [wellFormed.rowAt_of_free member] at there
    exact absurd there (by simp)
  have counted := SlotTable.count_remove there
  have positive : 0 < image.header.count := by
    rw [represents.count]
    omega
  have tabled : Tabled shape image.header.capacity (table.remove slot).cell
      (departed shape image.header.capacity orders row slot)
      ({ key with next := key.next.setIfInBounds slot image.header.firstFree } :: indices) := by
    have cells : (table.remove slot).cell = fun position =>
        Function.update (table.cell position) slot none :=
      funext (SlotTable.cell_remove inside)
    rw [cells]
    exact unlinked.set_next (Function.update_self ..) fun _ => represents.firstFree_lt
  refine ⟨{ image with
    header := { image.header with firstFree := some slot, count := image.header.count - 1 }
    key := { key with next := key.next.setIfInBounds slot image.header.firstFree }
    indices := indices }, ?_, ⟨rfl, rfl⟩, ⟨represents.framed.of_same ⟨rfl, rfl⟩,
      wellFormed.remove there, ?_, ?_, ?_, stacked.pushed insideNext notFree, ?_, tabled⟩⟩
  · have stepFree := @run_onFree { image with key, indices } _ _ _ _
      (FreeSlots.run_push insideNext named)
    simp only [removeRow, Edit.run_bind, stepKey, stepIndices, stepFree, Edit.run_get,
      require_of positive, Edit.run_lift_ok, putHeader, Edit.run_modify]
    rfl
  · show _ = (table.slots.set slot none).length
    rw [List.length_set]
    exact represents.allocated
  · show (table.slots.set slot none).length ≤ _
    rw [List.length_set]
    exact room
  · show image.header.count - 1 = _
    rw [represents.count]
    omega
  · refine ⟨represents.valued.size_eq, represents.valued.fits, fun other content thereOther => ?_⟩
    rw [SlotTable.rowAt_remove inside] at thereOther
    have different : other ≠ slot := fun same => by
      rw [same, Function.update_self] at thereOther
      exact absurd thereOther (by simp)
    rw [Function.update_of_ne different] at thereOther
    exact represents.valued.getElem?_eq other content thereOther

/-- Another value changes the value of the row and nothing else. -/
theorem setValue (represents : Represents shape image table orders) {slot : Nat} {row : Row}
    (there : table.rowAt slot = some row) {value : Bytes} (size : value.size = shape.value.size) :
    Represents shape { image with values := image.values.setIfInBounds slot value }
      (table.setValue slot value) orders := by
  have update : (table.setValue slot value).rowAt =
      Function.update table.rowAt slot (some { row with value }) := by
    funext other
    rw [SlotTable.rowAt_setValue, there]
    by_cases same : other = slot
    · rw [if_pos same, same, Function.update_self]
      rfl
    · rw [if_neg same, Function.update_of_ne same]
  have below : slot < image.values.size :=
    (Array.getElem?_eq_some_iff.mp (represents.valued.getElem?_eq slot row there)).1
  have length : (table.setValue slot value).slots.length = table.slots.length :=
    List.length_modify ..
  refine ⟨represents.framed.of_same ⟨rfl, rfl⟩, represents.wellFormed.setValue size, ?_, ?_, ?_,
    represents.free,
    represents.valued.set update below size, ?_⟩
  · rw [length]
    exact represents.allocated
  · rw [length]
    exact represents.room
  · rw [SlotTable.count_setValue]
    exact represents.count
  · have cells : (table.setValue slot value).cell = table.cell :=
      funext (SlotTable.cell_setValue value)
    rw [cells]
    exact represents.tabled

end Represents

end PackedStore.IndexedMap
