/-
This file runs an indexed map and a slot table side by side. The table answers
every operation on single rows and every question about the whole map; the map
gives the same answer and then holds the table's next state, unless a capacity it
needs is refused. Growth is invisible in the table, but not in the order in which
the map links its slots.
-/

import PackedStore.Proofs.Host.BlockBuffer
import PackedStore.Proofs.Host.Runs
import PackedStore.Proofs.IndexedMap.Operations

namespace PackedStore.IndexedMap

/-- An operation whose answer depends on the rows, their slots and the free slots only. -/
inductive Operation where
  | tryAdd (row : Row)
  | add (row : Row)
  | remove (key : Bytes)
  | exchange (key value : Bytes)
  | setCapacity (capacity : Nat)
  | clear
  | get (key : Bytes)
  | find (key : Bytes)
  | contains (key : Bytes)
  | count
  | allocatedIndex
  | hasHoles
  | isEmpty

/-- The answers of operations. -/
inductive Answer where
  | done
  | flag (value : Bool)
  | number (value : Nat)
  | slot (value : Option Nat)
  | value (value : Option Bytes)
  | row (value : Option Row)
deriving DecidableEq, Repr

namespace Operation

/-- The operation on a map in a host. -/
def run {Buffer : Type} [Host Buffer] (shape : Shape) : Operation → Store Buffer Answer
  | tryAdd row => return .flag (← IndexedMap.tryAdd shape row)
  | add row => return .number (← IndexedMap.add shape row)
  | remove key => return .flag (← IndexedMap.remove shape key)
  | exchange key value => return .value (← IndexedMap.exchange shape key value)
  | setCapacity capacity => do
    IndexedMap.setCapacity shape capacity
    return .done
  | clear => do
    IndexedMap.clear shape
    return .done
  | get key => return .row (← IndexedMap.get? shape key)
  | find key => return .slot (← IndexedMap.find shape key)
  | contains key => return .flag (← IndexedMap.contains shape key)
  | count => return .number (← header).count
  | allocatedIndex => return .number (← header).allocatedIndex
  | hasHoles => return .flag (← header).firstFree.isSome
  | isEmpty => return .flag ((← header).count == 0)

/-- The operation brings rows and values that have the types of the shape. -/
def Fits (shape : Shape) : Operation → Prop
  | tryAdd row | add row => row.Fits shape
  | exchange _ value => value.size = shape.value.size
  | _ => True

end Operation

namespace SlotTable

/-- The table after a new row has been added, which has the answer for its slot. -/
def adding (table : SlotTable) (row : Row) (answer : Nat → Answer) :
    Except Failure Answer × SlotTable :=
  if table.count < maxCapacity then (.ok (answer table.nextSlot), table.insert row)
  else (.error (.overflow .slotCapacity), table)

/-- What the table answers to an operation, and the table after it. -/
def step : Machine Operation SlotTable Answer
  | .tryAdd row, table =>
    if (table.find row.key).isSome then (.ok (.flag false), table)
    else table.adding row fun _ => .flag true
  | .add row, table =>
    if (table.find row.key).isSome then (.error (.misuse .duplicateKey), table)
    else table.adding row .number
  | .remove key, table =>
    match table.find key with
    | none => (.ok (.flag false), table)
    | some slot => (.ok (.flag true), table.remove slot)
  | .exchange key value, table =>
    match table.find key with
    | none => (.ok (.value none), table)
    | some slot => (.ok (.value ((table.rowAt slot).map Row.value)), table.setValue slot value)
  | .setCapacity capacity, table =>
    if capacity ≤ maxCapacity then (.ok .done, table)
    else (.error (.overflow .slotCapacity), table)
  | .clear, _ => (.ok .done, empty)
  | .get key, table => (.ok (.row ((table.find key).bind table.rowAt)), table)
  | .find key, table => (.ok (.slot (table.find key)), table)
  | .contains key, table => (.ok (.flag (table.find key).isSome), table)
  | .count, table => (.ok (.number table.count), table)
  | .allocatedIndex, table => (.ok (.number table.slots.length), table)
  | .hasHoles, table => (.ok (.flag (!table.free.isEmpty)), table)
  | .isEmpty, table => (.ok (.flag (table.count == 0)), table)

end SlotTable

namespace OrderedTable

variable (shape : Shape) (state : OrderedTable)

/-- The table after a new row has been added, if there can be another one. -/
def adding (row : Row) : OrderedTable :=
  if state.table.count < maxCapacity then (state.withSpace shape).insert shape row else state

/-- The table after an operation. -/
def after : Operation → OrderedTable
  | .tryAdd row | .add row =>
    if (state.table.find row.key).isSome then state else state.adding shape row
  | .remove key =>
    match state.table.find key with
    | none => state
    | some slot => state.remove shape slot
  | .exchange key value =>
    match state.table.find key with
    | none => state
    | some slot => state.setValue slot value
  | .setCapacity capacity => state.reserve shape capacity
  | .clear => .empty state.capacity state.log2MinGrowth
  | _ => state

theorem table_adding (row : Row) (answer : Nat → Answer) :
    (state.adding shape row).table = (state.table.adding row answer).2 := by
  unfold adding SlotTable.adding
  split
  · exact congrArg (SlotTable.insert · row) (state.table_withSpace shape)
  · rfl

/-- The order of the slots plays no part in what the table becomes. -/
theorem table_after (operation : Operation) :
    (state.after shape operation).table = (SlotTable.step operation state.table).2 := by
  cases operation with
  | tryAdd row | add row =>
    simp only [after, SlotTable.step]
    split
    · rfl
    · exact state.table_adding shape row _
  | remove key | exchange key value =>
    simp only [after, SlotTable.step]
    split <;> rfl
  | setCapacity capacity =>
    simp only [after, SlotTable.step, table_reserve]
    split <;> rfl
  | _ => rfl

end OrderedTable

/-! ### Runs of a table -/

namespace SlotTable.WellFormed

variable {table : SlotTable} {shape : Shape} (wellFormed : table.WellFormed shape)

include wellFormed

theorem not_find {key : Bytes} (absent : table.find key = none) (slot : Nat) :
    table.cell 0 slot ≠ some key := by
  intro there
  rw [wellFormed.find_eq_some.mpr there] at absent
  exact absurd absent (by simp)

theorem adding {row : Row} (fits : row.Fits shape) (answer : Nat → Answer)
    (absent : table.find row.key = none) : (table.adding row answer).2.WellFormed shape := by
  unfold SlotTable.adding
  split
  · exact wellFormed.insert fits (wellFormed.not_find absent)
  · exact wellFormed

/-- Every operation leads to a well-formed table. -/
theorem step {operation : Operation} (fits : operation.Fits shape) :
    (SlotTable.step operation table).2.WellFormed shape := by
  cases operation with
  | tryAdd row | add row =>
    simp only [SlotTable.step]
    split
    · exact wellFormed
    · next absent =>
      exact wellFormed.adding fits _ (Option.not_isSome_iff_eq_none.mp absent)
  | remove key =>
    simp only [SlotTable.step]
    split
    · exact wellFormed
    · next slot found =>
      obtain ⟨row, there, -⟩ := cell_zero_eq_some.mp (cell_of_find found)
      exact wellFormed.remove there
  | exchange key value =>
    simp only [SlotTable.step]
    split
    · exact wellFormed
    · exact wellFormed.setValue fits
  | setCapacity capacity =>
    simp only [SlotTable.step]
    split <;> exact wellFormed
  | clear => exact @WellFormed.ofRows shape [] List.nodup_nil (fun _ member => by simp at member)
  | _ => exact wellFormed

theorem find_adding {row : Row} (fits : row.Fits shape) (answer : Nat → Answer)
    (absent : table.find row.key = none) {key : Bytes} {slot : Nat}
    (found : table.find key = some slot) : (table.adding row answer).2.find key = some slot := by
  have wellFormed' := wellFormed.insert fits (wellFormed.not_find absent)
  unfold SlotTable.adding
  split
  · have there := cell_of_find found
    have other : slot ≠ table.nextSlot := fun same => by
      rw [same, cell_of_vacant wellFormed.rowAt_nextSlot] at there
      exact absurd there (by simp)
    refine wellFormed'.find_eq_some.mpr ?_
    rw [wellFormed.cell_insert, Function.update_of_ne other]
    exact there
  · exact found

/-- A row keeps its slot as long as it is not removed. -/
theorem find_step {operation : Operation} (fits : operation.Fits shape) {key : Bytes}
    (notRemoved : operation ≠ .remove key) (notCleared : operation ≠ .clear) {slot : Nat}
    (found : table.find key = some slot) :
    (SlotTable.step operation table).2.find key = some slot := by
  have there := cell_of_find found
  have after := wellFormed.step fits
  cases operation with
  | tryAdd row | add row =>
    simp only [SlotTable.step]
    split
    · exact found
    · next absent =>
      exact wellFormed.find_adding fits _ (Option.not_isSome_iff_eq_none.mp absent) found
  | remove removed =>
    refine after.find_eq_some.mpr ?_
    simp only [SlotTable.step]
    split
    · exact there
    · next other isOther =>
      obtain ⟨row, thereOther, isKey⟩ := cell_zero_eq_some.mp (cell_of_find isOther)
      have different : slot ≠ other := fun same => by
        rw [same, cell_of_find isOther] at there
        exact notRemoved (by rw [Option.some.inj there])
      rw [cell_remove (row_lt thereOther), Function.update_of_ne different]
      exact there
  | exchange changed value =>
    refine after.find_eq_some.mpr ?_
    simp only [SlotTable.step]
    split
    · exact there
    · rw [cell_setValue]
      exact there
  | setCapacity capacity =>
    simp only [SlotTable.step]
    split <;> exact found
  | clear => exact absurd rfl notCleared
  | _ => exact found

end SlotTable.WellFormed

variable {Buffer : Type} [Host Buffer] {shape : Shape} {site : Site Buffer} {image : Image}
  {table : SlotTable} {orders : Nat → Nat → List Nat}

/-! ### Single operations -/

/-- The operation is refused and changes nothing, or the map does what the table does. -/
def Agrees (shape : Shape) (site : Site Buffer) (state : OrderedTable) (operation : Operation) :
    Prop :=
  (∃ failure, Store.outcome (operation.run shape) site = (.error failure, site) ∧
    CannotGrow shape site failure) ∨
  ∃ later, Store.outcome (operation.run shape) site =
      ((SlotTable.step operation state.table).1, later) ∧
    Store.Follows (Carries shape) site later (state.after shape operation)

namespace Holds

/-- An operation that changes nothing agrees when its answer is the table's. -/
theorem agrees_of_kept (holds : Holds shape site image table orders) {operation : Operation}
    {answer : Except Failure Answer}
    (outcome : Store.outcome (operation.run shape) site = (answer, site))
    (step : (SlotTable.step operation table).1 = answer)
    (kept : (image.ordered table orders).after shape operation = image.ordered table orders) :
    Agrees shape site (image.ordered table orders) operation := by
  refine Or.inr ⟨site, ?_, ?_⟩
  · rw [outcome]
    exact congrArg (·, site) step.symm
  · rw [kept]
    exact .refl holds.carries

/-- An operation that reads only agrees when its answer is the table's. -/
theorem agrees_of_read (holds : Holds shape site image table orders) {operation : Operation}
    {answer : Answer} (run : operation.run shape site = .ok answer site)
    (step : (SlotTable.step operation table).1 = .ok answer)
    (kept : (image.ordered table orders).after shape operation = image.ordered table orders) :
    Agrees shape site (image.ordered table orders) operation :=
  holds.agrees_of_kept (Store.outcome_ok run) step kept

section

variable [LawfulHost Buffer] (wellFormed : shape.WellFormed)
  (holds : Holds shape site image table orders)

include wellFormed holds

/-- A new row is added alike, whatever the answer is made of. -/
theorem agrees_of_adding {operation : Operation} {row : Row} {answer : Nat → Answer}
    (fits : row.Fits shape) (absent : table.find row.key = none)
    (run : operation.run shape site =
      (do return answer (← insertNew shape row) : Store Buffer Answer) site)
    (step : SlotTable.step operation table = table.adding row answer)
    (after : (image.ordered table orders).after shape operation =
      (image.ordered table orders).adding shape row) :
    Agrees shape site (image.ordered table orders) operation := by
  rcases holds.run_insertNew wellFormed fits (holds.represents.wellFormed.not_find absent) with
    ⟨failure, refused, ⟨full, rfl⟩ | ⟨-, cannotGrow⟩⟩ | ⟨room, later, inserted, follows⟩
  · have crowded : ¬ table.count < maxCapacity := by omega
    have failed : operation.run shape site = .error (.overflow .slotCapacity) site := by
      simp only [run, Edit.run_bind, refused]
    refine holds.agrees_of_kept (Store.outcome_error failed) ?_ (after.trans (if_neg crowded))
    rw [step, SlotTable.adding, if_neg crowded]
  · refine Or.inl ⟨failure, Store.outcome_error ?_, cannotGrow⟩
    simp only [run, Edit.run_bind, refused]
  · refine Or.inr ⟨later, ?_, ?_⟩
    · show _ = ((SlotTable.step operation table).1, later)
      rw [step, SlotTable.adding, if_pos room]
      refine Store.outcome_ok ?_
      simp only [run, Edit.run_bind, inserted, Edit.run_pure]
    · have grows : (image.ordered table orders).adding shape row =
          ((image.ordered table orders).withSpace shape).insert shape row := if_pos room
      rw [after, grows]
      exact follows

theorem agrees_tryAdd {row : Row} (fits : row.Fits shape) :
    Agrees shape site (image.ordered table orders) (.tryAdd row) := by
  by_cases present : (table.find row.key).isSome
  · refine holds.agrees_of_read ?_ (congrArg Prod.fst (if_pos present)) (if_pos present)
    simp only [Operation.run, Edit.run_bind, holds.run_tryAdd_present present, Edit.run_pure]
  · have absent := Option.not_isSome_iff_eq_none.mp present
    refine holds.agrees_of_adding wellFormed fits absent ?_ (if_neg present) (if_neg present)
    simp only [Operation.run, Edit.run_bind, holds.run_tryAdd_absent absent, Edit.run_discard]
    cases insertNew shape row site <;> rfl

theorem agrees_add {row : Row} (fits : row.Fits shape) :
    Agrees shape site (image.ordered table orders) (.add row) := by
  by_cases present : (table.find row.key).isSome
  · have failed : (Operation.add row).run shape site = .error (.misuse .duplicateKey) site := by
      simp only [Operation.run, Edit.run_bind, holds.run_add_present present]
    exact holds.agrees_of_kept (Store.outcome_error failed) (congrArg Prod.fst (if_pos present))
      (if_pos present)
  · have absent := Option.not_isSome_iff_eq_none.mp present
    refine holds.agrees_of_adding wellFormed fits absent ?_ (if_neg present) (if_neg present)
    simp only [Operation.run, Edit.run_bind, holds.run_add_absent absent]

theorem agrees_remove (key : Bytes) :
    Agrees shape site (image.ordered table orders) (.remove key) := by
  cases found : table.find key with
  | none =>
    refine holds.agrees_of_read ?_ (by rw [SlotTable.step, found])
      (by simp only [OrderedTable.after, Image.ordered, found])
    simp only [Operation.run, Edit.run_bind, holds.run_remove_absent found, Edit.run_pure]
  | some slot =>
    obtain ⟨later, run, follows⟩ := holds.run_remove_present wellFormed found
    refine Or.inr ⟨later, ?_, ?_⟩
    · simp only [SlotTable.step, Image.ordered, found]
      refine Store.outcome_ok ?_
      simp only [Operation.run, Edit.run_bind, run, Edit.run_pure]
    · simpa only [OrderedTable.after, Image.ordered, found] using follows

theorem agrees_exchange {key value : Bytes} (size : value.size = shape.value.size) :
    Agrees shape site (image.ordered table orders) (.exchange key value) := by
  cases found : table.find key with
  | none =>
    refine holds.agrees_of_read ?_ (by rw [SlotTable.step, found])
      (by simp only [OrderedTable.after, Image.ordered, found])
    simp only [Operation.run, Edit.run_bind, holds.run_exchange_absent found, Edit.run_pure]
  | some slot =>
    obtain ⟨row, there, -⟩ := SlotTable.cell_zero_eq_some.mp (SlotTable.cell_of_find found)
    obtain ⟨later, run, follows⟩ := holds.run_exchange_present wellFormed found there size
    refine Or.inr ⟨later, ?_, ?_⟩
    · simp only [SlotTable.step, Image.ordered, found, there, Option.map_some]
      refine Store.outcome_ok ?_
      simp only [Operation.run, Edit.run_bind, run, Edit.run_pure]
    · simpa only [OrderedTable.after, Image.ordered, found] using follows

theorem agrees_setCapacity (capacity : Nat) :
    Agrees shape site (image.ordered table orders) (.setCapacity capacity) := by
  rcases holds.run_setCapacity wellFormed capacity with
    ⟨failure, refused, ⟨large, rfl⟩ | cannotGrow⟩ | ⟨small, later, run, follows⟩
  · have beyond : ¬ capacity ≤ maxCapacity := by omega
    have failed : (Operation.setCapacity capacity).run shape site =
        .error (.overflow .slotCapacity) site := by
      simp only [Operation.run, Edit.run_bind, refused]
    exact holds.agrees_of_kept (Store.outcome_error failed) (congrArg Prod.fst (if_neg beyond))
      (holds.represents.reserve_large large)
  · refine Or.inl ⟨failure, Store.outcome_error ?_, cannotGrow⟩
    simp only [Operation.run, Edit.run_bind, refused]
  · refine Or.inr ⟨later, ?_, follows⟩
    rw [show (SlotTable.step (.setCapacity capacity) (image.ordered table orders).table).1 =
      .ok .done from congrArg Prod.fst (if_pos small)]
    refine Store.outcome_ok ?_
    simp only [Operation.run, Edit.run_bind, run, Edit.run_pure]

theorem agrees_clear : Agrees shape site (image.ordered table orders) .clear := by
  obtain ⟨later, run, follows⟩ := holds.run_clear wellFormed
  refine Or.inr ⟨later, Store.outcome_ok ?_, follows⟩
  simp only [Operation.run, Edit.run_bind, run, Edit.run_pure]

/-- Every operation on the map agrees with the same operation on its table. -/
theorem agrees {operation : Operation} (fits : operation.Fits shape) :
    Agrees shape site (image.ordered table orders) operation := by
  have represents := holds.represents
  cases operation with
  | tryAdd row => exact holds.agrees_tryAdd wellFormed fits
  | add row => exact holds.agrees_add wellFormed fits
  | remove key => exact holds.agrees_remove wellFormed key
  | exchange key value => exact holds.agrees_exchange wellFormed fits
  | setCapacity capacity => exact holds.agrees_setCapacity wellFormed capacity
  | clear => exact holds.agrees_clear wellFormed
  | get key =>
    refine holds.agrees_of_read ?_ rfl rfl
    simp only [Operation.run, Edit.run_bind, holds.run_get?, Edit.run_pure]
  | find key =>
    refine holds.agrees_of_read ?_ rfl rfl
    simp only [Operation.run, Edit.run_bind, holds.run_find, Edit.run_pure]
  | contains key =>
    refine holds.agrees_of_read ?_ rfl rfl
    simp only [Operation.run, Edit.run_bind, holds.run_contains, Edit.run_pure]
  | count =>
    refine holds.agrees_of_read ?_ rfl rfl
    simp only [Operation.run, Edit.run_bind, holds.run_header, Edit.run_pure, represents.count]
  | allocatedIndex =>
    refine holds.agrees_of_read ?_ rfl rfl
    simp only [Operation.run, Edit.run_bind, holds.run_header, Edit.run_pure, represents.allocated]
  | hasHoles =>
    refine holds.agrees_of_read ?_ rfl rfl
    simp only [Operation.run, Edit.run_bind, holds.run_header, Edit.run_pure,
      represents.firstFree_isSome]
  | isEmpty =>
    refine holds.agrees_of_read ?_ rfl rfl
    simp only [Operation.run, Edit.run_bind, holds.run_header, Edit.run_pure, represents.count]

end

end Holds

/-! ### Rows of words -/

/-- Rows of words with a number of indices. -/
def Shape.words (indices : Nat) : Shape where
  value := .word32
  key := wordKey
  indices := List.replicate indices wordKey

theorem Shape.kinds_words {indices : Nat} {kind : KeyType} (member : kind ∈ (words indices).kinds) :
    kind = wordKey := by
  rcases List.mem_cons.mp member with rfl | repeated
  · rfl
  · exact List.eq_of_mem_replicate repeated

theorem Shape.wellFormed_words (indices : Nat) : (words indices).WellFormed where
  value := ElementType.wellFormed_word32
  kinds kind member := by
    rw [kinds_words member]
    exact ElementType.wellFormed_word32

theorem Shape.supported_words (indices : Nat) : (words indices).Supported where
  value := (by decide : 4 ≤ 16)
  kinds kind member := by
    rw [kinds_words member]
    exact (by decide : 4 ≤ 16)

theorem Shape.sized_words (indices : Nat) : (words indices).Sized where
  value := (by decide : 0 < 4)
  kinds kind member := by
    rw [kinds_words member]
    exact (by decide : 0 < 4)

/-- A row of words. -/
def Row.ofWords (key : Nat) (indices : List Nat) (value : Nat) : Row where
  key := (Bytes.littleEndian 4 key).toArray
  indices := indices.map fun index => (Bytes.littleEndian 4 index).toArray
  value := (Bytes.littleEndian 4 value).toArray

theorem Row.fits_ofWords (key : Nat) (indices : List Nat) (value : Nat) :
    (ofWords key indices value).Fits (Shape.words indices.length) := by
  refine ⟨⟨rfl, ?_, ?_⟩, Shape.sized_words _⟩
  · simp [cells, ofWords, Shape.kinds, Shape.words]
  · intro position kind cell thereKind thereCell
    rw [Shape.kinds_words (List.mem_of_getElem? thereKind)]
    have member := List.mem_of_getElem? thereCell
    simp only [cells, ofWords, List.mem_cons, List.mem_map] at member
    rcases member with rfl | ⟨index, -, rfl⟩ <;> rfl

/-! ### Runs -/

/-- The host of the site grants resizes, and the site holds the table. -/
def Mirrors (granted : Buffer → Prop) (shape : Shape) (site : Site Buffer) (table : SlotTable) :
    Prop :=
  granted site.buffer ∧ ∃ image orders, Holds shape site image table orders

variable [LawfulHost Buffer] {granted : Buffer → Prop}

/-- A host that grants resizes is never in the way. -/
theorem Mirrors.step (granting : Granting granted) (wellFormed : shape.WellFormed)
    (few : shape.indices.length ≤ 2) {operation : Operation} (fits : operation.Fits shape)
    (mirrors : Mirrors granted shape site table) :
    (Store.machine (Operation.run shape) operation site).1 = (SlotTable.step operation table).1 ∧
      Mirrors granted shape (Store.machine (Operation.run shape) operation site).2
        (SlotTable.step operation table).2 := by
  obtain ⟨here, image, orders, holds⟩ := mirrors
  rcases holds.agrees wellFormed fits with ⟨failure, -, refused⟩ | ⟨later, outcome, follows⟩
  · exact absurd refused (holds.not_cannotGrow wellFormed granting here few)
  · obtain ⟨continues, image', held, -⟩ := follows
    rw [OrderedTable.table_after] at held
    rw [Store.machine, outcome]
    exact ⟨rfl, continues granted granting here, image', _, held⟩

/-- The map and the table stay side by side in every run. -/
theorem Mirrors.reached (granting : Granting granted) (wellFormed : shape.WellFormed)
    (few : shape.indices.length ≤ 2) {operations : List Operation}
    (fits : ∀ operation ∈ operations, operation.Fits shape)
    (mirrors : Mirrors granted shape site table) :
    Mirrors granted shape ((Store.machine (Operation.run shape)).reached operations site)
      (Machine.reached SlotTable.step operations table) := by
  have step (operation : Operation) (site : Site Buffer) (table : SlotTable)
      (fits : operation.Fits shape) (mirrors : Mirrors granted shape site table) :=
    mirrors.step granting wellFormed few fits
  exact (Machine.answers_eq_of_step step fits mirrors).2

/-- On a host that grants resizes, a map of one or two indices answers every run from its creation
on as the slot table does, and a row keeps its slot until it is removed. The rows that it is given
take bytes in all their parts. -/
theorem answers_eq_table (granting : Granting granted) (wellFormed : shape.WellFormed)
    (few : shape.indices.length ≤ 2) {start : Site Buffer} (here : granted start.buffer)
    {sizing : Sizing} (run : init shape sizing start = .ok () site) {operations : List Operation}
    (fits : ∀ operation ∈ operations, operation.Fits shape) :
    (Store.machine (Operation.run shape)).answers operations site =
        Machine.answers SlotTable.step operations SlotTable.empty ∧
      ∀ (more : List Operation) (key : Bytes) (slot : Nat),
        (∀ operation ∈ more, operation.Fits shape ∧ operation ≠ .remove key ∧ operation ≠ .clear) →
        (Store.outcome (find shape key)
          ((Store.machine (Operation.run shape)).reached operations site)).1 = .ok (some slot) →
        (Store.outcome (find shape key)
          ((Store.machine (Operation.run shape)).reached (operations ++ more) site)).1 =
            .ok (some slot) := by
  obtain ⟨image, created, continues, -⟩ := holds_of_init wellFormed run
  have step (operation : Operation) (site : Site Buffer) (table : SlotTable)
      (fits : operation.Fits shape) (mirrors : Mirrors granted shape site table) :=
    mirrors.step granting wellFormed few fits
  have mirrors : Mirrors granted shape site SlotTable.empty :=
    ⟨continues granted granting here, image, _, created⟩
  obtain ⟨answers, -, image', orders', holds⟩ :=
    Machine.answers_eq_of_step step fits mirrors
  refine ⟨answers, fun more key slot kept found => ?_⟩
  rw [Store.outcome_ok (holds.run_find key)] at found
  have fitsAll : ∀ operation ∈ operations ++ more, operation.Fits shape := by
    intro operation member
    rcases List.mem_append.mp member with front | back
    · exact fits operation front
    · exact (kept operation back).1
  obtain ⟨-, -, image'', orders'', holdsAll⟩ := Machine.answers_eq_of_step step fitsAll mirrors
  rw [Store.outcome_ok (holdsAll.run_find key), Machine.reached_append]
  obtain ⟨-, foundAll⟩ := @Machine.reached_of_step _ _ _ SlotTable.step
    (fun table => table.WellFormed shape ∧ table.find key = some slot)
    (fun operation => operation.Fits shape ∧ operation ≠ .remove key ∧ operation ≠ .clear)
    (fun operation table allowed here => ⟨here.1.step allowed.1,
      here.1.find_step allowed.1 allowed.2.1 allowed.2.2 here.2⟩)
    more kept _ ⟨holds.represents.wellFormed, Except.ok.inj found⟩
  rw [foundAll]

/-- Two rows come, one goes, and a third one takes its slot. -/
theorem words_answer_as_table :
    ∃ site : Site BlockBuffer, init (Shape.words 2) {} ⟨.empty none, []⟩ = .ok () site ∧
      (Store.machine (Operation.run (Shape.words 2))).answers
        [.tryAdd (.ofWords 1 [7, 8] 10), .add (.ofWords 2 [7, 9] 20),
          .tryAdd (.ofWords 1 [5, 5] 30), .remove (Row.ofWords 1 [] 0).key, .hasHoles,
          .add (.ofWords 3 [7, 9] 40), .find (Row.ofWords 2 [] 0).key, .allocatedIndex] site =
        [.ok (.flag true), .ok (.number 1), .ok (.flag false), .ok (.flag true), .ok (.flag true),
          .ok (.number 0), .ok (.slot (some 1)), .ok (.number 2)] := by
  obtain ⟨site, run⟩ := @run_init_of_granting BlockBuffer _ (Shape.words 2) ⟨.empty none, []⟩ _ _
    BlockBuffer.granting rfl (Shape.wellFormed_words 2) (Shape.supported_words 2) (by decide)
    (by decide) rfl {} (by decide) (by decide)
  refine ⟨site, run, (answers_eq_table BlockBuffer.granting (Shape.wellFormed_words 2) (by decide)
    rfl run ?_).1.trans rfl⟩
  simp only [List.mem_cons, List.not_mem_nil, or_false, forall_eq_or_imp, forall_eq]
  exact ⟨Row.fits_ofWords 1 [7, 8] 10, Row.fits_ofWords 2 [7, 9] 20, Row.fits_ofWords 1 [5, 5] 30,
    trivial, trivial, Row.fits_ofWords 3 [7, 9] 40, trivial, trivial⟩

/-- Rows of a key and an index without a value. -/
def Shape.valueless : Shape := { Shape.words 1 with value := .unit }

theorem Shape.wellFormed_valueless : valueless.WellFormed :=
  ⟨ElementType.wellFormed_unit, (wellFormed_words 1).kinds⟩

theorem Shape.supported_valueless : valueless.Supported :=
  ⟨(by decide : 1 ≤ 16), (supported_words 1).kinds⟩

/-- A row without a value. -/
def Row.valueless : Row := { Row.ofWords 1 [2] 0 with value := #[] }

theorem Row.typed_valueless : valueless.Typed Shape.valueless :=
  ⟨rfl, rfl, (fits_ofWords 1 [2] 0).cells⟩

/-- A new map has no place for the value of the row. -/
theorem run_add_valueless :
    ∃ site later : Site BlockBuffer, init Shape.valueless {} ⟨.empty none, []⟩ = .ok () site ∧
      add Shape.valueless Row.valueless site = .error (.fault .outOfRange) later := by
  obtain ⟨site, run⟩ := @run_init_of_granting BlockBuffer _ Shape.valueless ⟨.empty none, []⟩ _ _
    BlockBuffer.granting rfl Shape.wellFormed_valueless Shape.supported_valueless (by decide)
    (by decide) rfl {} (by decide) (by decide)
  obtain ⟨image, created, -, -⟩ := holds_of_init Shape.wellFormed_valueless run
  obtain ⟨later, fails, -⟩ :=
    created.run_add_unsized Row.typed_valueless fun sized => absurd sized.value (by decide)
  exact ⟨site, later, run, fails⟩

/-- A table stores a row whose value takes no bytes, and a map does not. -/
theorem valueless_row_not_stored :
    Row.valueless.Typed Shape.valueless ∧
    ∃ site : Site BlockBuffer, init Shape.valueless {} ⟨.empty none, []⟩ = .ok () site ∧
      (Store.machine (Operation.run Shape.valueless)).answers [.add Row.valueless] site =
        [.error (.fault .outOfRange)] ∧
      Machine.answers SlotTable.step [.add Row.valueless] SlotTable.empty = [.ok (.number 0)] := by
  obtain ⟨site, later, run, fails⟩ := run_add_valueless
  refine ⟨Row.typed_valueless, site, run, ?_, rfl⟩
  have outcome : (Operation.add Row.valueless).run Shape.valueless site =
      .error (.fault .outOfRange) later := by
    simp only [Operation.run, Edit.run_bind, fails]
  simp only [Machine.answers, Store.machine, Store.outcome_error outcome]

end PackedStore.IndexedMap
