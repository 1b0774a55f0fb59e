/-
This file drops all indices but one from shapes, rows and tables. Dropping them
commutes with every change: a change finds slots by the unique keys, and it links
them in each dimension by the keys of that dimension alone. So a table without the
other indices gives the same answers, and its slots are in the same order.
-/

import PackedStore.Proofs.IndexedMap.Tracking

namespace PackedStore.IndexedMap

/-! ### Dropping the other indices -/

/-- The shape with one of its indices. -/
def Shape.only (position : Nat) (shape : Shape) : Shape :=
  { shape with indices := shape.indices[position]?.toList }

/-- The row with one of its indices. -/
def Row.only (position : Nat) (row : Row) : Row :=
  { row with indices := row.indices[position]?.toList }

def Entry.only (position : Nat) (entry : Entry) : Entry :=
  { entry with row := entry.row.only position }

def Operation.only (position : Nat) : Operation → Operation
  | .tryAdd row => .tryAdd (row.only position)
  | .add row => .add (row.only position)
  | operation => operation

def Change.only (position : Nat) : Change → Change
  | .single operation => .single (operation.only position)
  | change => change

def Answer.only (position : Nat) : Answer → Answer
  | .row found => .row (found.map (Row.only position))
  | answer => answer

def SlotTable.only (position : Nat) (table : SlotTable) : SlotTable :=
  { table with slots := table.slots.map (Option.map (Row.only position)) }

/-- The orders of the key and of one index. -/
def narrowed (position : Nat) (orders : Nat → Nat → List Nat) : Nat → Nat → List Nat
  | 0 => orders 0
  | 1 => orders (position + 1)
  | _ => fun _ => []

def OrderedTable.only (position : Nat) (state : OrderedTable) : OrderedTable :=
  { state with table := state.table.only position, orders := narrowed position state.orders }

/-! ### Shapes -/

variable {shape : Shape} {position : Nat}

theorem getElem?_toList_zero {α : Type} (content : Option α) : content.toList[0]? = content := by
  cases content <;> rfl

theorem getElem?_toList_succ {α : Type} (content : Option α) (position : Nat) :
    content.toList[position + 1]? = none := by
  cases content <;> rfl

namespace Shape

theorem kinds_only_one : (shape.only position).kinds[1]? = shape.kinds[position + 1]? :=
  getElem?_toList_zero _

theorem kinds_only_beyond (dimension : Nat) :
    (shape.only position).kinds[dimension + 2]? = none :=
  getElem?_toList_succ _ dimension

theorem mem_kinds_of_only {kind : KeyType} (member : kind ∈ (shape.only position).kinds) :
    kind ∈ shape.kinds := by
  rcases List.mem_cons.mp member with rfl | member
  · exact List.mem_cons_self
  · exact List.mem_cons_of_mem _ (List.mem_of_getElem? (Option.mem_toList.mp member))

theorem WellFormed.only (wellFormed : shape.WellFormed) (position : Nat) :
    (shape.only position).WellFormed :=
  ⟨wellFormed.value, fun kind member => wellFormed.kinds kind (mem_kinds_of_only member)⟩

theorem Supported.only (supported : shape.Supported) (position : Nat) :
    (shape.only position).Supported :=
  ⟨supported.value, fun kind member => supported.kinds kind (mem_kinds_of_only member)⟩

theorem Sized.only (sized : shape.Sized) (position : Nat) : (shape.only position).Sized :=
  ⟨sized.value, fun kind member => sized.kinds kind (mem_kinds_of_only member)⟩

theorem rowSize_only_le : (shape.only position).rowSize ≤ shape.rowSize := by
  refine Nat.add_le_add_left ?_ _
  show (shape.indices[position]?.toList.map (·.size)).sum ≤ (shape.indices.map (·.size)).sum
  cases there : shape.indices[position]? with
  | none => exact Nat.zero_le _
  | some kind =>
    obtain ⟨before, after, split⟩ := List.append_of_mem (List.mem_of_getElem? there)
    simp only [split, Option.toList_some, List.map_append, List.map_cons, List.map_nil,
      List.sum_append_nat, List.sum_cons, List.sum_nil]
    omega

theorem length_indices_only_le : (shape.only position).indices.length ≤ 2 := by
  show shape.indices[position]?.toList.length ≤ 2
  cases shape.indices[position]? <;> simp

end Shape

/-! ### Rows -/

theorem Row.cells_only_one (row : Row) :
    (row.only position).cells[1]? = row.cells[position + 1]? :=
  getElem?_toList_zero _

theorem Row.Fits.only {row : Row} (fits : row.Fits shape) (position : Nat) :
    (row.only position).Fits (shape.only position) := by
  have lengths : row.indices.length = shape.indices.length := Nat.succ.inj fits.length_cells
  refine ⟨⟨fits.value, congrArg (· + 1) ?_, ?_⟩, fits.sized.only position⟩
  · show row.indices[position]?.toList.length = shape.indices[position]?.toList.length
    by_cases inside : position < shape.indices.length
    · rw [List.getElem?_eq_getElem inside, List.getElem?_eq_getElem (lengths ▸ inside)]
      rfl
    · have beyond := Nat.le_of_not_lt inside
      rw [List.getElem?_eq_none beyond, List.getElem?_eq_none (lengths ▸ beyond)]
      rfl
  · intro dimension kind cell isKind isCell
    match dimension with
    | 0 => exact fits.cells 0 kind cell isKind isCell
    | 1 =>
      rw [Shape.kinds_only_one] at isKind
      rw [Row.cells_only_one] at isCell
      exact fits.cells (position + 1) kind cell isKind isCell
    | dimension + 2 =>
      rw [Shape.kinds_only_beyond] at isKind
      exact absurd isKind (by simp)

theorem Change.Fits.only {change : Change} (fits : change.Fits shape) (position : Nat) :
    (change.only position).Fits (shape.only position) := by
  cases change with
  | single operation =>
    cases operation with
    | tryAdd row | add row => exact Row.Fits.only fits position
    | _ => exact fits
  | _ => trivial

/-! ### Slot tables -/

namespace SlotTable

variable (table : SlotTable) (slot : Nat)

theorem rowAt_only :
    (table.only position).rowAt slot = (table.rowAt slot).map (Row.only position) := by
  rw [rowAt, only, List.getElem?_map, rowAt]
  rcases table.slots[slot]? with _ | _ | row <;> rfl

theorem cell_only_zero : (table.only position).cell 0 = table.cell 0 := by
  funext slot
  rw [cell, rowAt_only, cell]
  cases table.rowAt slot <;> rfl

theorem cell_only_one : (table.only position).cell 1 = table.cell (position + 1) := by
  funext slot
  rw [cell, rowAt_only, cell]
  cases table.rowAt slot with
  | none => rfl
  | some row => exact row.cells_only_one

theorem length_only : (table.only position).slots.length = table.slots.length :=
  List.length_map _

theorem count_only : (table.only position).count = table.count := by
  rw [count, only, List.countP_map, count]
  congr 1
  funext row
  cases row <;> rfl

theorem find_only (key : Bytes) : (table.only position).find key = table.find key := by
  rw [find, only, List.findIdx?_map, find]
  congr 1
  funext row
  cases row <;> rfl

theorem nextSlot_only : (table.only position).nextSlot = table.nextSlot := by
  rw [nextSlot, length_only, nextSlot]
  rfl

theorem insert_only (row : Row) :
    (table.only position).insert (row.only position) = (table.insert row).only position := by
  cases isFree : table.free <;> simp [insert, only, isFree, List.map_set]

theorem remove_only : (table.only position).remove slot = (table.remove slot).only position := by
  simp [remove, only, List.map_set]

theorem setValue_only (value : Bytes) :
    (table.only position).setValue slot value = (table.setValue slot value).only position := by
  refine congrArg (SlotTable.mk · table.free) (List.ext_getElem? fun other => ?_)
  rw [List.getElem?_modify, only, List.getElem?_map, List.getElem?_map, setValue,
    List.getElem?_modify]
  rcases table.slots[other]? with _ | _ | row <;> by_cases same : slot = other <;> simp [same]
  rfl

theorem ofRows_only (rows : List Row) :
    ofRows (rows.map (Row.only position)) = (ofRows rows).only position := by
  simp [ofRows, only]

theorem removeRange_only (start count : Nat) :
    (table.only position).removeRange start count =
      (table.removeRange start count).only position := by
  simp [removeRange, only]

theorem filterMap_rowAt_only (slots : List Nat) :
    slots.filterMap (table.only position).rowAt =
      (slots.filterMap table.rowAt).map (Row.only position) := by
  rw [List.map_filterMap]
  exact congrArg (List.filterMap · slots) (funext table.rowAt_only)

end SlotTable

/-! ### Orders -/

section

variable (capacity slot : Nat) (orders : Nat → Nat → List Nat)

/-- Orders of the key and of one index are told by these two dimensions. -/
theorem eq_narrowed {others : Nat → Nat → List Nat} (key : others 0 = orders 0)
    (index : others 1 = orders (position + 1))
    (beyond : ∀ dimension, others (dimension + 2) = fun _ => []) :
    others = narrowed position orders := by
  funext dimension
  match dimension with
  | 0 => exact key
  | 1 => exact index
  | dimension + 2 => exact beyond dimension

theorem narrowed_empty : narrowed position (fun _ _ => []) = fun _ _ => [] :=
  (@eq_narrowed position (fun _ _ => []) (fun _ _ => []) rfl rfl fun _ => rfl).symm

theorem entered_only (row : Row) :
    entered (shape.only position) capacity (narrowed position orders) (row.only position) slot =
      narrowed position (entered shape capacity orders row slot) := by
  refine eq_narrowed _ rfl ?_ fun dimension => ?_
  · simp only [entered, Shape.kinds_only_one, Row.cells_only_one, narrowed]
  · simp only [entered, Shape.kinds_only_beyond, narrowed]

theorem departed_only (row : Row) :
    departed (shape.only position) capacity (narrowed position orders) (row.only position) slot =
      narrowed position (departed shape capacity orders row slot) := by
  refine eq_narrowed _ rfl ?_ fun dimension => ?_
  · simp only [departed, Shape.kinds_only_one, Row.cells_only_one, narrowed]
  · simp only [departed, Shape.kinds_only_beyond, narrowed]

theorem enteredAll_only (rows : List Row) :
    enteredAll (shape.only position) capacity (narrowed position orders) slot
        (rows.map (Row.only position)) =
      narrowed position (enteredAll shape capacity orders slot rows) := by
  induction rows generalizing orders slot with
  | nil => rfl
  | cons row rest inductionHypothesis =>
    rw [List.map_cons, enteredAll, entered_only, inductionHypothesis, enteredAll]

theorem regrouped_only (table : SlotTable) {slots kept : Nat → List Nat}
    (key : kept 0 = slots 0) (index : kept 1 = slots (position + 1)) :
    regrouped (shape.only position) capacity (table.only position) kept =
      narrowed position (regrouped shape capacity table slots) := by
  refine eq_narrowed _ ?_ ?_ fun dimension => ?_
  · simp only [regrouped, table.cell_only_zero, key]
    rfl
  · simp only [regrouped, Shape.kinds_only_one, table.cell_only_one, index]
  · simp only [regrouped, Shape.kinds_only_beyond]

end

/-! ### Changes -/

namespace OrderedTable

variable (shape) (position) (state : OrderedTable)

theorem grow_only (capacity : Nat) :
    (state.only position).grow (shape.only position) capacity =
      (state.grow shape capacity).only position :=
  congrArg (OrderedTable.mk _ _ _) (regrouped_only capacity state.table rfl rfl)

theorem withSpace_only :
    (state.only position).withSpace (shape.only position) =
      (state.withSpace shape).only position := by
  unfold withSpace
  rw [apply_ite (OrderedTable.only position), ← grow_only]
  simp only [OrderedTable.only, SlotTable.length_only]
  rfl

theorem reserve_only (capacity : Nat) :
    (state.only position).reserve (shape.only position) capacity =
      (state.reserve shape capacity).only position := by
  have counted : (state.only position).table.count = state.table.count := state.table.count_only
  have same : (state.only position).capacity = state.capacity := rfl
  have step : (state.only position).log2MinGrowth = state.log2MinGrowth := rfl
  simp only [reserve, counted, same, step]
  split
  · cases grownCapacity state.table.count capacity state.log2MinGrowth with
    | ok larger => exact state.grow_only shape position larger
    | error failure => rfl
  · rfl

theorem insert_only (row : Row) :
    (state.only position).insert (shape.only position) (row.only position) =
      (state.insert shape row).only position := by
  simp only [insert, OrderedTable.only, SlotTable.insert_only, SlotTable.nextSlot_only, entered_only]

theorem remove_only (slot : Nat) :
    (state.only position).remove (shape.only position) slot =
      (state.remove shape slot).only position := by
  simp only [remove, OrderedTable.only, SlotTable.remove_only, SlotTable.rowAt_only]
  cases state.table.rowAt slot with
  | none => rfl
  | some row => simp only [Option.map_some, Option.elim_some, departed_only]

theorem setValue_only (slot : Nat) (value : Bytes) :
    (state.only position).setValue slot value = (state.setValue slot value).only position := by
  simp only [setValue, OrderedTable.only, SlotTable.setValue_only]

theorem flatten_only (capacity : Nat) :
    (state.only position).flatten (shape.only position) capacity =
      (state.flatten shape capacity).only position := by
  have rows : (state.only position).listed.filterMap (state.only position).table.rowAt =
      (state.listed.filterMap state.table.rowAt).map (Row.only position) :=
    state.table.filterMap_rowAt_only state.listed
  have orders := @enteredAll_only shape position capacity 0 (fun _ _ => [])
    (state.listed.filterMap state.table.rowAt)
  rw [narrowed_empty] at orders
  simp only [flatten, OrderedTable.only] at rows ⊢
  rw [rows, SlotTable.ofRows_only, orders]

theorem removeRange_only (start count : Nat) :
    (state.only position).removeRange (shape.only position) start count =
      (state.removeRange shape start count).only position := by
  have orders := @regrouped_only shape position state.capacity
    (state.table.removeRange start count)
    (fun _ => List.range (state.table.slots.length - count))
    (fun _ => List.range (state.table.slots.length - count)) rfl rfl
  unfold removeRange
  rw [apply_ite (OrderedTable.only position)]
  simp only [OrderedTable.only, SlotTable.removeRange_only, SlotTable.length_only, orders]

theorem demandRange_only (start count : Nat) :
    (state.only position).demandRange start count = state.demandRange start count := by
  simp only [demandRange, OrderedTable.only, SlotTable.count_only]
  rfl

theorem adding_only (row : Row) :
    (state.only position).adding (shape.only position) (row.only position) =
      (state.adding shape row).only position := by
  have counted : (state.only position).table.count = state.table.count := state.table.count_only
  unfold adding
  rw [counted, apply_ite (OrderedTable.only position), withSpace_only, insert_only]

theorem after_only (operation : Operation) :
    (state.only position).after (shape.only position) (operation.only position) =
      (state.after shape operation).only position := by
  have found (key : Bytes) : (state.only position).table.find key = state.table.find key :=
    state.table.find_only key
  cases operation with
  | tryAdd row | add row =>
    simp only [after, Operation.only, found, adding_only]
    exact (apply_ite (OrderedTable.only position) _ _ _).symm
  | remove key =>
    simp only [after, Operation.only, found]
    cases state.table.find key with
    | none => rfl
    | some slot => exact state.remove_only shape position slot
  | exchange key value =>
    simp only [after, Operation.only, found]
    cases state.table.find key with
    | none => rfl
    | some slot => exact state.setValue_only position slot value
  | setCapacity capacity => exact state.reserve_only shape position capacity
  | clear => exact congrArg (OrderedTable.mk _ _ _) narrowed_empty.symm
  | _ => rfl

end OrderedTable

/-! ### Answers -/

theorem SlotTable.answer_adding_only (table : SlotTable) (row : Row) {answer : Nat → Answer}
    (plain : ∀ slot, (answer slot).only position = answer slot) :
    ((table.only position).adding (row.only position) answer).1 =
      (table.adding row answer).1.map (Answer.only position) := by
  unfold adding
  rw [count_only, nextSlot_only]
  split
  · exact congrArg Except.ok (plain _).symm
  · rfl

/-- A table without the other indices gives the same answers, without the other indices. -/
theorem SlotTable.answer_only (table : SlotTable) (operation : Operation) :
    (step (operation.only position) (table.only position)).1 =
      (step operation table).1.map (Answer.only position) := by
  cases operation with
  | tryAdd row | add row =>
    have found : (table.only position).find (row.only position).key = table.find row.key :=
      table.find_only row.key
    simp only [step, Operation.only, found]
    split
    · rfl
    · exact table.answer_adding_only row fun _ => rfl
  | remove key =>
    simp only [step, Operation.only, find_only]
    cases table.find key <;> rfl
  | exchange key value =>
    simp only [step, Operation.only, find_only]
    cases table.find key with
    | none => rfl
    | some slot =>
      simp only [rowAt_only, Option.map_map]
      rfl
  | setCapacity capacity =>
    simp only [step, Operation.only]
    split <;> rfl
  | get key =>
    simp only [step, Operation.only, find_only]
    cases table.find key with
    | none => rfl
    | some slot => simp only [Option.bind_some, rowAt_only]; rfl
  | find key | contains key =>
    simp only [step, Operation.only, find_only]
    rfl
  | count | isEmpty =>
    simp only [step, Operation.only, count_only]
    rfl
  | allocatedIndex =>
    simp only [step, Operation.only, length_only]
    rfl
  | clear | hasHoles => rfl

/-- What a table does without the other indices is what it does with them. -/
theorem OrderedTable.step_only (shape : Shape) (position : Nat) (change : Change)
    (state : OrderedTable) :
    step (shape.only position) (change.only position) (state.only position) =
      ((step shape change state).1.map (Answer.only position),
        (step shape change state).2.only position) := by
  cases change with
  | single operation =>
    exact Prod.ext (state.table.answer_only operation) (state.after_only shape position operation)
  | flatten =>
    have counted : (state.only position).table.count = state.table.count := state.table.count_only
    have same : (state.only position).log2MinGrowth = state.log2MinGrowth := rfl
    simp only [step, Change.only, counted, same]
    cases grownCapacity state.table.count state.table.count state.log2MinGrowth with
    | ok capacity => exact Prod.ext rfl (state.flatten_only shape position capacity)
    | error failure => rfl
  | removeRange start count =>
    simp only [step, Change.only, demandRange_only]
    cases state.demandRange start count with
    | ok => exact Prod.ext rfl (state.removeRange_only shape position start count)
    | error failure => rfl

end PackedStore.IndexedMap
