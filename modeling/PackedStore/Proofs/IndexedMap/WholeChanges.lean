/-
This file says what the changes of a whole map do to the slot table that an image
stands for. Clearing empties it whatever was there; storing rows in an empty map
fills the slots from zero on; taking out a range moves the later rows down; a
larger block with the old keys, links and values in front holds the same rows.
-/

import PackedStore.IndexedMap.Basic
import PackedStore.Proofs.IndexedMap.RowChanges

namespace PackedStore.IndexedMap

variable {shape : Shape} {image : Image} {capacity : Nat}

/-! ### Emptying -/

/-- Clearing empties the map, whatever its links were. -/
theorem clearRows_spec (framed : image.Framed shape) (sound : image.Sound shape) :
    ∃ changed, clearRows shape image = .ok () changed ∧ image.SameFrame changed ∧
      Represents shape changed SlotTable.empty fun _ _ => [] := by
  have lengths : (shape.kinds.map fun _ => (HashChains.clear : Edit (HashChains Bytes) Unit)).length =
      image.dimensions.length := by
    rw [List.length_map, sound.length_dimensions]
  obtain ⟨key, indices, runKey, runIndices, length, changed⟩ :=
    @run_dimensions image HashChains.clear (shape.indices.map fun _ => HashChains.clear)
      (fun position chains => ∃ kind, shape.kinds[position]? = some kind ∧
        KeyTable kind image.header.capacity (fun _ => none) (fun _ => []) chains)
      (by simpa [Shape.kinds] using lengths)
      (by
        intro position edit chains thereEdit thereChains
        have mapped : (shape.kinds.map fun _ =>
            (HashChains.clear : Edit (HashChains Bytes) Unit))[position]? = some edit := thereEdit
        rw [List.getElem?_map, Option.map_eq_some_iff] at mapped
        obtain ⟨kind, thereKind, rfl⟩ := mapped
        have soundChains := sound.dimensions position kind chains thereKind thereChains
        rw [framed.bucketCapacity] at soundChains
        obtain ⟨changed, run, table⟩ := KeyTable.clear_spec soundChains framed.reached.pos
          framed.named
        exact ⟨changed, run, kind, thereKind, table⟩)
  refine ⟨{ image with
    header := { image.header with count := 0, allocatedIndex := 0, firstFree := none }
    key, indices }, ?_, ⟨rfl, rfl⟩, ⟨framed.of_same ⟨rfl, rfl⟩, ?_, rfl, Nat.zero_le _, rfl, rfl,
      ⟨sound.size_values, sound.values, ?_⟩, ⟨length.trans sound.length_dimensions, ?_⟩⟩⟩
  · let emptied : Image := { image with
      header := { image.header with count := 0, allocatedIndex := 0, firstFree := none } }
    have stepKey := @run_onKey emptied _ _ _ _ runKey
    have stepIndices := @run_onIndices { emptied with key } _ _ runIndices
    simp only [clearRows, putHeader, Edit.run_bind, Edit.run_modify]
    rw [stepKey]
    exact stepIndices
  · exact @SlotTable.WellFormed.ofRows shape [] List.nodup_nil (fun _ member => by simp at member)
  · intro slot row there
    exact absurd there (by simp [SlotTable.rowAt, SlotTable.empty])
  · intro position kind chains thereKind thereChains
    obtain ⟨kind', thereKind', table⟩ := changed position chains thereChains
    obtain rfl : kind = kind' := Option.some.inj (thereKind.symm.trans thereKind')
    exact table

/-! ### Storing rows from zero on -/

/-- The order of the slots in each dimension after rows have been linked one after another. -/
def enteredAll (shape : Shape) (capacity : Nat) (orders : Nat → Nat → List Nat) :
    Nat → List Row → Nat → Nat → List Nat
  | _, [] => orders
  | slot, row :: rest =>
    enteredAll shape capacity (entered shape capacity orders row slot) (slot + 1) rest

theorem rowAt_ofRows_concat (rows : List Row) (row : Row) :
    (SlotTable.ofRows (rows ++ [row])).rowAt =
      Function.update (SlotTable.ofRows rows).rowAt rows.length (some row) := by
  funext slot
  rw [SlotTable.rowAt_ofRows]
  by_cases last : slot = rows.length
  · rw [last, Function.update_self, List.getElem?_concat_length]
  · rw [Function.update_of_ne last, SlotTable.rowAt_ofRows]
    by_cases inside : slot < rows.length
    · rw [List.getElem?_append_left inside]
    · rw [List.getElem?_eq_none (by simp; omega), List.getElem?_eq_none (by omega)]

/-- Rows that are stored one after another stand behind those that are there already. -/
theorem run_storeRows {stored rows : List Row} {orders : Nat → Nat → List Nat}
    (tabled : Tabled shape capacity (SlotTable.ofRows stored).cell orders image.dimensions)
    (valued : Valued shape capacity (SlotTable.ofRows stored) image.values)
    (fits : ∀ row ∈ rows, row.Fits shape) (room : stored.length + rows.length ≤ capacity) :
    ∃ changed, storeRows shape stored.length rows image = .ok () changed ∧
      changed.layout = image.layout ∧ changed.header = image.header ∧
      Tabled shape capacity (SlotTable.ofRows (stored ++ rows)).cell
        (enteredAll shape capacity orders stored.length rows) changed.dimensions ∧
      Valued shape capacity (SlotTable.ofRows (stored ++ rows)) changed.values := by
  induction rows generalizing image stored orders with
  | nil =>
    rw [List.append_nil]
    exact ⟨image, rfl, rfl, rfl, tabled, valued⟩
  | cons row rest inductionHypothesis =>
    rw [List.length_cons] at room
    have fitsRow := fits row List.mem_cons_self
    have vacant : (SlotTable.ofRows stored).rowAt stored.length = none := by
      rw [SlotTable.rowAt_ofRows, List.getElem?_eq_none (Nat.le_refl _)]
    obtain ⟨key, indices, runStore, tabledRow, -⟩ :=
      run_storeRow tabled fitsRow (show stored.length < capacity by omega)
        (SlotTable.cell_of_vacant vacant) valued.size_eq
    have update := rowAt_ofRows_concat stored row
    have cells : (SlotTable.ofRows (stored ++ [row])).cell = fun position =>
        Function.update ((SlotTable.ofRows stored).cell position) stored.length
          row.cells[position]? :=
      funext (SlotTable.cell_update update)
    rw [← cells] at tabledRow
    have inside : stored.length < image.values.size := by
      rw [valued.size_eq]
      exact Codec.lt_arraySize.mpr ⟨fitsRow.sized.value, by omega⟩
    have valuedRow := valued.set update inside fitsRow.value
    have length : (stored ++ [row]).length = stored.length + 1 := by simp
    obtain ⟨changed, runRest, layout, header, tabledRest, valuedRest⟩ :=
      @inductionHypothesis
        { image with values := image.values.setIfInBounds stored.length row.value, key, indices }
        (stored ++ [row]) _ tabledRow valuedRow
        (fun other member => fits other (List.mem_cons_of_mem _ member)) (by omega)
    rw [length] at runRest tabledRest
    rw [List.append_assoc, List.singleton_append] at tabledRest valuedRest
    refine ⟨changed, ?_, layout, header, tabledRest, valuedRest⟩
    simp only [storeRows, Edit.run_bind, runStore]
    exact runRest

/-- An empty map that is filled with rows holds them in the slots from zero on. -/
theorem fillRows_spec (represents : Represents shape image SlotTable.empty fun _ _ => [])
    {rows : List Row} (distinct : (rows.map Row.key).Nodup) (fits : ∀ row ∈ rows, row.Fits shape)
    (room : rows.length ≤ image.header.capacity) :
    ∃ changed,
      (do
        putHeader fun header => { header with count := rows.length, allocatedIndex := rows.length }
        storeRows shape 0 rows) image = .ok () changed ∧ image.SameFrame changed ∧
      Represents shape changed (SlotTable.ofRows rows)
        (enteredAll shape image.header.capacity (fun _ _ => []) 0 rows) := by
  let counted : Image := { image with
    header := { image.header with count := rows.length, allocatedIndex := rows.length } }
  obtain ⟨changed, run, layout, header, tabled, valued⟩ :=
    @run_storeRows shape counted image.header.capacity [] rows (fun _ _ => [])
      represents.tabled represents.valued fits (by rw [List.length_nil, Nat.zero_add]; exact room)
  have same : image.SameFrame changed := ⟨layout, by rw [header]; rfl⟩
  have stacked : image.header.firstFree = none := represents.free
  have length : (SlotTable.ofRows rows).slots.length = rows.length := List.length_map _
  refine ⟨changed, ?_, same, ⟨represents.framed.of_same same,
    SlotTable.WellFormed.ofRows distinct fits, ?_, ?_, ?_, ?_, ?_, ?_⟩⟩
  · simp only [putHeader, Edit.run_bind, Edit.run_modify]
    exact run
  · rw [header, length]
  · rw [header, length]
    exact room
  · rw [header, SlotTable.count_ofRows]
  · rw [header]
    exact stacked
  · rw [same.capacity_eq]
    exact valued
  · rw [same.capacity_eq]
    exact tabled

/-! ### Taking out a range -/

/-- The order of the slots in each dimension after all slots of a list have been linked anew. -/
def regrouped (shape : Shape) (capacity : Nat) (table : SlotTable) (slots : Nat → List Nat) :
    Nat → Nat → List Nat := fun position =>
  match shape.kinds[position]? with
  | some kind => KeyTable.grouped kind capacity (table.cell position) (slots position)
  | none => fun _ => []

theorem SlotTable.shifted_cell {table : SlotTable} {start count : Nat}
    (range : start + count ≤ table.slots.length) (position : Nat) :
    KeyTable.shifted (table.cell position) start count table.slots.length =
      (table.removeRange start count).cell position := by
  funext slot
  rw [SlotTable.cell, SlotTable.rowAt_removeRange range, KeyTable.shifted]
  by_cases left : slot < table.slots.length - count
  · rw [if_pos left]
    rfl
  · have beyond : table.rowAt (if slot < start then slot else slot + count) = none := by
      rw [SlotTable.rowAt, List.getElem?_eq_none (by split <;> omega)]
      rfl
    rw [if_neg left, beyond, Option.bind_none]

/-- The change of the image when a range of rows is taken out. -/
def dropRange (shape : Shape) (start count rows : Nat) : Edit Image Unit := do
  let image ← get
  set { image with values := ← moveDown? image.values start count rows }
  onKey (HashChains.removeRange shape.key.hash start count rows)
  onIndices (shape.indices.map fun kind => HashChains.removeRange kind.hash start count rows)
  putHeader fun header => { header with count := rows - count, allocatedIndex := rows - count }

namespace Represents

variable {table : SlotTable} {orders : Nat → Nat → List Nat}

/-- Taking out a range keeps the rows before it and moves the later ones down. -/
theorem dropRange_spec (represents : Represents shape image table orders)
    (noHoles : table.free = []) {start count : Nat} (range : start + count ≤ table.slots.length) :
    ∃ changed, dropRange shape start count table.slots.length image = .ok () changed ∧
      image.SameFrame changed ∧
      Represents shape changed (table.removeRange start count)
        (regrouped shape image.header.capacity (table.removeRange start count)
          fun _ => List.range (table.slots.length - count)) := by
  have wellFormed := represents.wellFormed
  have room := represents.room
  obtain ⟨-, full⟩ := wellFormed.full noHoles
  obtain ⟨wellFormed', counted⟩ := wellFormed.removeRange noHoles range
  obtain ⟨key, indices, runKey, runIndices, tabled, -⟩ :=
    @Tabled.run_each shape image image.header.capacity table.cell
      (table.removeRange start count).cell orders
      (regrouped shape image.header.capacity (table.removeRange start count)
        fun _ => List.range (table.slots.length - count))
      represents.tabled (HashChains.removeRange shape.key.hash start count table.slots.length)
      (shape.indices.map fun kind =>
        HashChains.removeRange kind.hash start count table.slots.length)
      (fun _ _ _ => True)
      (by simp [Shape.kinds])
      (by
        intro position kind edit chains thereKind thereEdit keyTable
        have mapped : (shape.kinds.map fun kind =>
            HashChains.removeRange kind.hash start count table.slots.length)[position]? =
            some edit := thereEdit
        rw [List.getElem?_map, thereKind] at mapped
        obtain rfl := Option.some.inj mapped
        have inside := (List.getElem?_eq_some_iff.mp thereKind).1
        obtain ⟨changed, run, shifted⟩ := keyTable.removeRange_spec
          (fun slot => (wellFormed.cell_isSome inside).trans (full slot)) range room
        rw [SlotTable.shifted_cell range] at shifted
        simp only [regrouped, thereKind]
        exact ⟨changed, run, shifted, trivial⟩)
  have valuesRoom : table.slots.length ≤ image.values.size := by
    -- the last row has a value
    by_contra beyond
    obtain ⟨row, there⟩ := Option.isSome_iff_exists.mp
      ((full (table.slots.length - 1)).mpr (by omega))
    have inside :=
      (Array.getElem?_eq_some_iff.mp (represents.valued.getElem?_eq _ row there)).1
    omega
  have stacked := represents.free
  rw [noHoles] at stacked
  refine ⟨{ image with
    header := { image.header with
      count := table.slots.length - count, allocatedIndex := table.slots.length - count }
    values := moveDown image.values start count table.slots.length
    key, indices }, ?_, ⟨rfl, rfl⟩, ⟨represents.framed.of_same ⟨rfl, rfl⟩, wellFormed', ?_, ?_,
      counted.symm, ?_, ⟨?_, ?_, ?_⟩, tabled⟩⟩
  · let moved : Image := { image with
      values := moveDown image.values start count table.slots.length }
    have stepKey := @run_onKey moved _ _ _ _ runKey
    have stepIndices := @run_onIndices { moved with key } _ _ runIndices
    simp only [dropRange, Edit.run_bind, Edit.run_get, moveDown?_of range valuesRoom,
      Edit.run_lift_ok, Edit.run_set]
    rw [stepKey]
    simp only [stepIndices, putHeader, Edit.run_modify]
    rfl
  · rw [SlotTable.length_removeRange range]
  · rw [SlotTable.length_removeRange range]
    exact Nat.le_trans (Nat.sub_le _ _) room
  · have free : (table.removeRange start count).free = [] := noHoles
    rw [free]
    exact stacked
  · exact (size_moveDown range valuesRoom).trans represents.valued.size_eq
  · exact fun value member => represents.valued.fits value (mem_moveDown member)
  · intro slot row there
    have inside := SlotTable.row_lt there
    rw [SlotTable.length_removeRange range] at inside
    rw [SlotTable.rowAt_removeRange range] at there
    exact (getElem?_moveDown range valuesRoom inside).trans
      (represents.valued.getElem?_eq _ row there)

end Represents

/-! ### Growth -/

/-- The fresh image has the old one's values, keys and links in front of its own. -/
structure Image.Extends (old fresh : Image) : Prop where
  values : ∀ slot, slot < old.header.capacity → fresh.values[slot]? = old.values[slot]?
  keys : ∀ (position : Nat) (before after : HashChains Bytes),
    old.dimensions[position]? = some before → fresh.dimensions[position]? = some after →
    ∀ slot, slot < old.header.capacity → after.keys[slot]? = before.keys[slot]?
  next : ∀ (position : Nat) (before after : HashChains Bytes),
    old.dimensions[position]? = some before → fresh.dimensions[position]? = some after →
    ∀ slot, slot < old.header.capacity → after.next[slot]? = before.next[slot]?

/-- The change of the image after it has been moved to a larger block. -/
def relinkAll (shape : Shape) (old : Image) : Edit Image Unit := do
  onKey (relink shape.key old.header.capacity old.key.buckets)
  onIndices ((shape.indices.zip (old.indices.map (·.buckets))).map fun part =>
    relink part.1 old.header.capacity part.2)

/-- A larger image that extends the old one holds the same table after all slots are relinked. -/
theorem Represents.relinkAll_spec {old fresh : Image} {table : SlotTable}
    {orders : Nat → Nat → List Nat} (represents : Represents shape old table orders)
    (framed : fresh.Framed shape) (sound : fresh.Sound shape) (extension : old.Extends fresh)
    (header : fresh.header = { old.header with
      capacity := fresh.header.capacity, bucketCapacity := fresh.header.bucketCapacity })
    (grows : old.header.capacity ≤ fresh.header.capacity) :
    ∃ changed, relinkAll shape old fresh = .ok () changed ∧ fresh.SameFrame changed ∧
      Represents shape changed table
        (regrouped shape fresh.header.capacity table fun position =>
          (List.range (2 * old.header.capacity)).flatMap (orders position)) := by
  have oldLength := represents.tabled.length_eq
  have freshLength := sound.length_dimensions
  have lengths : (shape.kinds.zip (old.dimensions.map (·.buckets))).length =
      fresh.dimensions.length := by
    rw [List.length_zip, List.length_map, oldLength, Nat.min_self, freshLength]
  obtain ⟨key, indices, runKey, runIndices, length, changed⟩ :=
    @run_dimensions fresh (relink shape.key old.header.capacity old.key.buckets)
      ((shape.indices.zip (old.indices.map (·.buckets))).map fun part =>
        relink part.1 old.header.capacity part.2)
      (fun position chains => ∃ kind before, shape.kinds[position]? = some kind ∧
        old.dimensions[position]? = some before ∧
        KeyTable kind fresh.header.capacity (table.cell position)
          (KeyTable.grouped kind fresh.header.capacity (table.cell position)
            ((List.range (2 * old.header.capacity)).flatMap (orders position))) chains ∧
        ∀ slot, slot < old.header.capacity → table.cell position slot = none →
          chains.next[slot]? = before.next[slot]?)
      (by simpa [Shape.kinds, Image.dimensions] using lengths)
      (by
        intro position edit chains thereEdit thereChains
        have mapped : ((shape.kinds.zip (old.dimensions.map (·.buckets))).map fun part =>
            relink part.1 old.header.capacity part.2)[position]? = some edit := thereEdit
        rw [List.getElem?_map, Option.map_eq_some_iff] at mapped
        obtain ⟨⟨kind, buckets⟩, therePair, rfl⟩ := mapped
        obtain ⟨thereKind, thereBuckets⟩ := List.getElem?_zip_eq_some.mp therePair
        rw [List.getElem?_map, Option.map_eq_some_iff] at thereBuckets
        obtain ⟨before, thereBefore, rfl⟩ := thereBuckets
        have keyTable := represents.tabled.table position kind before thereKind thereBefore
        have soundChains := sound.dimensions position kind chains thereKind thereChains
        rw [framed.bucketCapacity] at soundChains
        obtain ⟨changed, run, grown, other⟩ := keyTable.grow_spec soundChains grows
          framed.named (extension.keys position before chains thereBefore thereChains)
          (extension.next position before chains thereBefore thereChains)
        rw [keyTable.size_buckets] at grown
        exact ⟨changed, run, kind, before, thereKind, thereBefore, grown, other⟩)
  obtain ⟨-, before, -, thereBefore, -, other⟩ := changed 0 key rfl
  obtain rfl : old.key = before := Option.some.inj thereBefore
  have room := represents.room
  refine ⟨{ fresh with key, indices }, ?_, ⟨rfl, rfl⟩, ⟨framed.of_same ⟨rfl, rfl⟩,
    represents.wellFormed, ?_, Nat.le_trans room grows, ?_, ?_,
    ⟨sound.size_values, sound.values, ?_⟩, ⟨length.trans freshLength, ?_⟩⟩⟩
  · simp only [relinkAll, Edit.run_bind, run_onKey runKey]
    exact @run_onIndices { fresh with key } _ _ runIndices
  · show fresh.header.allocatedIndex = _
    rw [header]
    exact represents.allocated
  · show fresh.header.count = _
    rw [header]
    exact represents.count
  · show FreeSlots.Stacked { head := fresh.header.firstFree, next := key.next } _
    rw [header]
    refine Link.Leads.congr represents.free fun slot member => other slot ?_ ?_
    · exact Nat.lt_of_lt_of_le (represents.wellFormed.free_lt member) room
    · exact SlotTable.cell_of_vacant (represents.wellFormed.rowAt_of_free member) 0
  · intro slot row there
    exact (extension.values slot (Nat.lt_of_lt_of_le (SlotTable.row_lt there) room)).trans
      (represents.valued.getElem?_eq slot row there)
  · intro position kind chains thereKind thereChains
    obtain ⟨kind', before, thereKind', -, keyTable, -⟩ := changed position chains thereChains
    obtain rfl : kind = kind' := Option.some.inj (thereKind.symm.trans thereKind')
    simp only [regrouped, thereKind]
    exact keyTable

end PackedStore.IndexedMap
