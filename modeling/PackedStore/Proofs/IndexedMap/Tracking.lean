/-
This file follows an indexed map through changes of one row or of many, on a host
that grants resizes, and keeps track of the order of its slots. The ordered table
answers every change; the map gives the same answer and then lists its rows, all of
them or those with an index, in the order of the table.
-/

import PackedStore.Proofs.IndexedMap.Reading

namespace PackedStore.IndexedMap

/-- The change of a map in a host, with its answer. -/
def Change.ask {Buffer : Type} [Host Buffer] (shape : Shape) : Change → Store Buffer Answer
  | .single operation => operation.run shape
  | .flatten => do
    IndexedMap.flatten shape
    return .done
  | .removeRange start count => do
    IndexedMap.removeRange shape start count
    return .done

/-- What a table answers to a change, and the table after it. -/
def OrderedTable.step (shape : Shape) : Machine Change OrderedTable Answer
  | .single operation, state =>
    ((SlotTable.step operation state.table).1, state.after shape operation)
  | .flatten, state =>
    match grownCapacity state.table.count state.table.count state.log2MinGrowth with
    | .ok capacity => (.ok .done, state.flatten shape capacity)
    | .error failure => (.error failure, state)
  | .removeRange start count, state =>
    match state.demandRange start count with
    | .ok () => (.ok .done, state.removeRange shape start count)
    | .error failure => (.error failure, state)

variable {Buffer : Type} [Host Buffer] {shape : Shape} {site : Site Buffer} {state : OrderedTable}

/-! ### Changes -/

/-- The host of the site grants resizes, and the site carries the table. -/
def Tracks (granted : Buffer → Prop) (shape : Shape) (site : Site Buffer) (state : OrderedTable) :
    Prop :=
  granted site.buffer ∧ Carries shape site state

section

variable [LawfulHost Buffer] {granted : Buffer → Prop} (granting : Granting granted)
  (wellFormed : shape.WellFormed) (few : shape.indices.length ≤ 2)

include granting wellFormed

/-- A new map carries the empty table, of the least capacity for its sizing. -/
theorem Tracks.of_init {start : Site Buffer} (here : granted start.buffer) {sizing : Sizing}
    (run : init shape sizing start = .ok () site) {capacity : Nat}
    (least : grownCapacity 0 sizing.capacity sizing.log2MinGrowth = .ok capacity) :
    Tracks granted shape site (.empty capacity sizing.log2MinGrowth) := by
  obtain ⟨image, holds, continues, isLeast, step, -⟩ := holds_of_init wellFormed run
  obtain rfl := Except.ok.inj (least.symm.trans isLeast)
  refine ⟨continues granted granting here, image, holds, ?_⟩
  rw [Image.ordered, step]
  rfl

include few

/-- On a host that grants resizes the map does what the table does. -/
theorem Tracks.step {change : Change} (fits : change.Fits shape)
    (tracks : Tracks granted shape site state) :
    (Store.machine (Change.ask shape) change site).1 = (OrderedTable.step shape change state).1 ∧
      Tracks granted shape (Store.machine (Change.ask shape) change site).2
        (OrderedTable.step shape change state).2 := by
  obtain ⟨here, image, holds, same⟩ := tracks
  rw [← same]
  have followed {later : Site Buffer} {changed : OrderedTable}
      (follows : Store.Follows (Carries shape) site later changed) :
      Tracks granted shape later changed :=
    ⟨follows.continues granted granting here, follows.stands⟩
  cases change with
  | single operation =>
    rcases holds.agrees wellFormed fits with ⟨failure, -, refused⟩ | ⟨later, outcome, follows⟩
    · exact absurd refused (holds.not_cannotGrow wellFormed granting here few)
    · rw [Store.machine, Change.ask, outcome]
      exact ⟨rfl, followed follows⟩
  | flatten =>
    rcases holds.run_flatten wellFormed with
      ⟨failure, -, refused⟩ | ⟨later, run, capacity, least, follows⟩
    · exact absurd refused (holds.not_cannotGrow wellFormed granting here few)
    · have answered : Change.ask shape .flatten site = .ok .done later := by
        simp only [Change.ask, Edit.run_bind, run, Edit.run_pure]
      have flattens : OrderedTable.step shape .flatten (image.ordered state.table state.orders) =
          (.ok .done, (image.ordered state.table state.orders).flatten shape capacity) := by
        simp only [OrderedTable.step, Image.ordered, least]
      rw [Store.machine, Store.outcome_ok answered, flattens]
      exact ⟨rfl, followed follows⟩
  | removeRange start count =>
    simp only [OrderedTable.step]
    rcases holds.run_removeRange wellFormed start count with
      ⟨misuse, run, -, demanded⟩ | ⟨later, run, demanded, follows⟩
    · have failed : Change.ask shape (.removeRange start count) site =
          .error (.misuse misuse) site := by
        simp only [Change.ask, Edit.run_bind, run]
      rw [Store.machine, Store.outcome_error failed, demanded]
      exact ⟨rfl, here, holds.carries⟩
    · have answered : Change.ask shape (.removeRange start count) site = .ok .done later := by
        simp only [Change.ask, Edit.run_bind, run, Edit.run_pure]
      rw [Store.machine, Store.outcome_ok answered, demanded]
      exact ⟨rfl, followed follows⟩

/-- The map and the table stay side by side in every run. -/
theorem Tracks.run {changes : List Change} (fits : ∀ change ∈ changes, change.Fits shape)
    (tracks : Tracks granted shape site state) :
    (Store.machine (Change.ask shape)).answers changes site =
        Machine.answers (OrderedTable.step shape) changes state ∧
      Tracks granted shape ((Store.machine (Change.ask shape)).reached changes site)
        (Machine.reached (OrderedTable.step shape) changes state) :=
  Machine.answers_eq_of_step
    (fun _ _ _ fits tracks => tracks.step granting wellFormed few fits) fits tracks

end

/-! ### Reading -/

namespace Carries

variable (carries : Carries shape site state)

include carries

theorem run_header :
    ∃ found, header site = .ok found site ∧ found.count = state.table.count ∧
      found.capacity = state.capacity ∧ found.allocatedIndex = state.table.slots.length ∧
      found.firstFree = state.table.free.head? := by
  obtain ⟨image, holds, same⟩ := carries
  have represents := holds.represents
  refine ⟨image.header, holds.run_header, represents.count, congrArg OrderedTable.capacity same,
    represents.allocated, ?_⟩
  have stacked := represents.free
  cases isFree : state.table.free with
  | nil => exact represents.firstFree_eq_none.mpr isFree
  | cons slot rest =>
    rw [isFree] at stacked
    exact stacked.1

theorem run_entries : entries shape site = .ok (rowsIn state.table state.listed) site := by
  obtain ⟨image, holds, same⟩ := carries
  have capacity : image.header.capacity = state.capacity := congrArg OrderedTable.capacity same
  rw [holds.run_entries, capacity]
  rfl

/-- The rows with an index are listed and walked over in the order of its bucket. -/
theorem run_entriesFor {position : Nat} {kind : KeyType}
    (isKind : shape.indices[position]? = some kind) (index : Bytes) :
    entriesFor shape position index site =
        .ok (rowsIn state.table (state.table.matching position index
          (state.orders (position + 1) (kind.home state.capacity index)))) site ∧
      Walked shape position index site (rowsIn state.table (state.table.matching position index
        (state.orders (position + 1) (kind.home state.capacity index)))) := by
  obtain ⟨image, holds, same⟩ := carries
  have capacity : image.header.capacity = state.capacity := congrArg OrderedTable.capacity same
  have walked := holds.walked isKind index
  have listed := holds.run_entriesFor isKind index
  rw [capacity] at walked listed
  exact ⟨listed, walked⟩

end Carries

end PackedStore.IndexedMap
