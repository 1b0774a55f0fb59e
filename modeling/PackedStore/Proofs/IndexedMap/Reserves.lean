/-
This file says when an indexed map needs its host to take one more row. Live and free
slots together are the slots that have been handed out, so a map that has fewer rows
than slots finds one for a new row, be it a free one or the next one, and its block
stays as long as it is. A map that has as many rows as slots needs the block of the
next capacity first.
-/

import PackedStore.Proofs.Host.Requests
import PackedStore.Proofs.IndexedMap.Reachable
import PackedStore.Proofs.IndexedMap.Twins

namespace PackedStore.IndexedMap

open Host (Rewrites)
open Store (Asks Enacts Needs Quiet)

variable {Buffer : Type} [Host Buffer] {shape : Shape} {site : Site Buffer} {image : Image}
  {table : SlotTable} {orders : Nat → Nat → List Nat} {row : Row}

/-- The length of the block of a full map after its next growth. -/
def Header.nextLength (shape : Shape) (header : Header) : Checked Nat := do
  let capacity ← nextCapacity header.count header.capacity header.log2MinGrowth
  let layout ← Layout.compute shape capacity (2 * capacity)
  return layout.total

/-- A map is full exactly if it has as many rows as slots. -/
theorem Represents.isFull_iff_count (represents : Represents shape image table orders) :
    (image.header.firstFree = none ∧ image.header.allocatedIndex = image.header.capacity) ↔
      image.header.count = image.header.capacity := by
  have counted := represents.wellFormed.count
  have room := represents.room
  rw [represents.isFull_iff, represents.count, ← List.length_eq_zero_iff]
  omega

/-- What an insertion into a full map does with a layout that exists. -/
def growAndInsert (shape : Shape) (capacity : Nat) (image : Image) (row : Row) (new : Layout) :
    Store Buffer Nat := do
  growInto shape capacity image new
  Store.edit (format shape) (insertRow shape row)

theorem asks_growAndInsert (shape : Shape) (capacity : Nat) (image : Image) (row : Row)
    (new : Layout) :
    Asks new.total (growAndInsert shape capacity image row new : Store Buffer Nat) :=
  (asks_growInto shape capacity image new).bind fun _ => .edit _ _

theorem growTo_eq (shape : Shape) (capacity : Nat) (image : Image) :
    (growTo shape capacity image : Store Buffer Unit) =
      (liftM (Layout.compute shape capacity (2 * capacity)) >>= growInto shape capacity image) :=
  rfl

namespace Holds

theorem insertNew_eq_of_full (holds : Holds shape site image table orders)
    (full : image.header.count = image.header.capacity) :
    insertNew shape row site = (do
      let capacity ← nextCapacity image.header.count image.header.capacity
        image.header.log2MinGrowth
      grow shape capacity
      Store.edit (format shape) (insertRow shape row) : Store Buffer Nat) site := by
  simp only [insertNew, Edit.run_bind, holds.run_header,
    if_pos (holds.represents.isFull_iff_count.mpr full)]

section

variable [LawfulHost Buffer] (wellFormed : shape.WellFormed)
  (holds : Holds shape site image table orders) (fits : row.Fits shape)
  (absent : table.find row.key = none)

include wellFormed holds fits absent

/-- Growth asks for the length of the larger layout, and then there is a slot for the row. -/
theorem enacts_growAndInsert {capacity : Nat}
    (reached : IsCapacity image.header.log2MinGrowth capacity)
    (grows : image.header.capacity < capacity) :
    Enacts (fun _ (_ : Unit) => True) site
      (do
        grow shape capacity
        Store.edit (format shape) (insertRow shape row))
      ((Script.ends (Layout.compute shape capacity (2 * capacity)) ()).bind fun new _ =>
        .asks new.total () (.ends (.ok table.nextSlot) ())) := by
  have unfolded : (do
      grow shape capacity
      Store.edit (format shape) (insertRow shape row) : Store Buffer Nat) site = (do
      let new ← Layout.compute shape capacity (2 * capacity)
      growAndInsert shape capacity image row new : Store Buffer Nat) site := by
    rw [Edit.run_bind, holds.grow_eq reached grows, ← Edit.run_bind, growTo_eq, bind_assoc]
    rfl
  refine Enacts.congr (.check trivial fun new computed => ?_) unfolded
  have same : growInto shape capacity image new site = grow shape capacity site := by
    rw [holds.grow_eq reached grows, growTo, computed]
    rfl
  refine .of_asks (asks_growAndInsert shape capacity image row new) trivial
    (fun error refused => ?_) fun resized granted => ?_
  · have run := holds.run_grow_refused wellFormed reached grows
      (Or.inr ⟨new, error, computed, refused, rfl⟩)
    simp only [growAndInsert, Edit.run_bind, same, run]
  · obtain ⟨roomy, grown, run, holdsRoomy, capacityEq, -⟩ :=
      holds.run_grow wellFormed reached grows computed granted
    have space : table.slots.length < grown.header.capacity := by
      rw [capacityEq]
      exact Nat.lt_of_le_of_lt holds.represents.room grows
    obtain ⟨later, inserted, -⟩ := holdsRoomy.run_insertRow wellFormed (Or.inr space) fits
      (holds.represents.wellFormed.not_find absent)
    refine ⟨later, ?_, trivial⟩
    simp only [growAndInsert, Edit.run_bind, same, run, inserted]

/-- An insertion into a full map asks for the length of the next capacity. -/
theorem needs_insertNew (full : image.header.count = image.header.capacity) :
    Needs (insertNew shape row) site (some (image.header.nextLength shape)) := by
  have reached := holds.represents.framed.reached
  -- what the site stands for plays no part, only which length is asked for
  have enacts : Enacts (fun _ (_ : Unit) => True) site (insertNew shape row)
      ((Script.ends (nextCapacity image.header.count image.header.capacity
          image.header.log2MinGrowth) ()).bind fun capacity _ =>
        (Script.ends (Layout.compute shape capacity (2 * capacity)) ()).bind fun new _ =>
          .asks new.total () (.ends (.ok table.nextSlot) ())) := by
    refine Enacts.congr (.check trivial fun capacity next => ?_) (holds.insertNew_eq_of_full full)
    rw [nextCapacity_eq reached (Nat.le_of_eq full)] at next
    by_cases largest : image.header.capacity = maxCapacity
    · rw [if_pos largest] at next
      exact absurd next (by simp)
    · rw [if_neg largest] at next
      obtain rfl := Except.ok.inj next
      exact holds.enacts_growAndInsert wellFormed fits absent (reached.double largest)
        reached.lt_double
  have needs := enacts.needs
  rw [Script.needed_check fun capacity => Script.needed_check fun new => rfl] at needs
  exact needs

/-- An insertion into a map that is not full writes to the block that is there. -/
theorem run_insertNew_within (room : image.header.count < image.header.capacity) :
    ∃ later changed order, insertNew shape row site = .ok table.nextSlot later ∧
      Rewrites site.buffer later.buffer ∧ Holds shape later changed (table.insert row) order ∧
      image.SameFrame changed := by
  have represents := holds.represents
  have notFull := Nat.ne_of_lt room
  have counted := represents.wellFormed.count
  have space : table.free ≠ [] ∨ table.slots.length < image.header.capacity := by
    rw [represents.count] at room
    by_cases free : table.free = []
    · rw [free, List.length_nil] at counted
      exact Or.inr (by omega)
    · exact Or.inl free
  obtain ⟨changed, run, same, representsChanged⟩ :=
    represents.insertRow_spec space fits (represents.wellFormed.not_find absent)
  obtain ⟨later, edited, holdsLater, -⟩ :=
    run_edit wellFormed holds.loaded holds.size_eq run same representsChanged
  have written := Quiet.edit (format shape) (insertRow shape row) site
  rw [Store.outcome_ok edited] at written
  refine ⟨later, changed, _, ?_, written, holdsLater, same⟩
  simp only [insertNew, Edit.run_bind, holds.run_header,
    if_neg (fun full => notFull (represents.isFull_iff_count.mp full)), edited]

end

end Holds

/-! ### Insertions -/

/-- A row with a new key needs the block of the next capacity if all slots are in use. Otherwise it
is added whatever the host does, and the map keeps its capacity and its length. -/
structure InsertsWithinCapacity (shape : Shape) (row : Row) (site : Site Buffer) (before : Header) :
    Prop where
  read : header site = .ok before site
  count_le : before.count ≤ before.capacity
  full : before.count = before.capacity →
    Needs (add shape row) site (some (before.nextLength shape)) ∧
      Needs (tryAdd shape row) site (some (before.nextLength shape))
  within : before.count < before.capacity → ∃ slot later after,
    add shape row site = .ok slot later ∧ tryAdd shape row site = .ok true later ∧
      Rewrites site.buffer later.buffer ∧ header later = .ok after later ∧
      after.count = before.count + 1 ∧ after.capacity = before.capacity ∧
      later.bytes.size = site.bytes.size

/-- In every reachable map, whether it has free slots or not, a row with a new key goes to a slot that
is there, if there is one. -/
theorem Reachable.insertsWithinCapacity [LawfulHost Buffer] (wellFormed : shape.WellFormed)
    (reachable : Reachable shape site) (fits : row.Fits shape)
    (isNew : contains shape row.key site = .ok false site) :
    ∃ before, InsertsWithinCapacity shape row site before := by
  obtain ⟨image, table, orders, holds⟩ := reachable.sound wellFormed
  have represents := holds.represents
  have absent : table.find row.key = none := by
    have found := (EStateM.Result.ok.inj ((holds.run_contains row.key).symm.trans isNew)).1
    exact Option.not_isSome_iff_eq_none.mp (by simp [found])
  have adds : add shape row site = insertNew shape row site := holds.run_add_absent absent
  have tries : tryAdd shape row site =
      ((fun _ => true) <$> insertNew shape row : Store Buffer Bool) site := by
    rw [holds.run_tryAdd_absent absent]
    simp only [Edit.run_bind, Edit.run_map, Edit.run_discard]
    cases insertNew shape row site <;> rfl
  refine ⟨image.header, holds.run_header, ?_, fun full => ?_, fun room => ?_⟩
  · rw [represents.count]
    exact represents.count_le
  · have needs := holds.needs_insertNew wellFormed fits absent full
    exact ⟨needs.congr adds, (needs.map fun _ => true).congr tries⟩
  · obtain ⟨later, changed, order, run, rewrites, holdsLater, same⟩ :=
      holds.run_insertNew_within wellFormed fits absent room
    refine ⟨table.nextSlot, later, changed.header, adds.trans run, ?_, rewrites,
      holdsLater.run_header, ?_, same.capacity_eq, ?_⟩
    · rw [tries, Edit.run_map, run]
    · rw [holdsLater.represents.count, represents.wellFormed.count_insert, represents.count]
    · rw [holdsLater.size_eq, same.layout, holds.size_eq]

end PackedStore.IndexedMap
