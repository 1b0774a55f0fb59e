/-
This file says that an indexed map grows, shrinks, is created and is disposed of as
a whole or not at all. Whatever such a call needs is computed and granted before
its first write: a new row takes its slot only when there is room for it, and the
rows of a map are laid out anew only in a block that is large enough. A call that
fails leaves its site as it was, to the last byte.
-/

import PackedStore.Proofs.Host.Outcomes
import PackedStore.Proofs.IndexedMap.Reachable

namespace PackedStore.IndexedMap

variable {Buffer : Type} [Host Buffer] {shape : Shape} {site : Site Buffer} {image : Image}
  {table : SlotTable} {orders : Nat → Nat → List Nat}

/-! ### Creation -/

/-- A map that cannot be created leaves its block as it was. It fails because the block is in use,
because no block suits a type of its rows, or for want of a resource. -/
theorem init_failsOnly [LawfulHost Buffer] (wellFormed : shape.WellFormed) (sizing : Sizing)
    (site : Site Buffer) {allowed : Failure → Prop}
    (storage : ∀ failure : Failure, failure.IsStorage → allowed failure)
    (inUse : site.bytes.size ≠ 0 → allowed (.misuse (.blockInUse .indexedMap site.bytes.size)))
    (value : blockAlign < shape.value.align → allowed (.misuse (.arrayAlignment shape.value.align)))
    (kinds : ∀ kind ∈ shape.kinds, blockAlign < kind.align →
      allowed (.misuse (.arrayAlignment kind.align))) :
    Store.Withdraws allowed site (init shape sizing) := by
  have extent (what : Quantity) (_ : what.IsExtent) := storage _ (Failure.isStorage_overflow what)
  refine .read Store.run_length (.check (.demand _ inUse) fun _ isEmpty =>
    .check (bounded_grownCapacity.weaken storage) fun capacity grown =>
    .check (bounded_bucketCapacityFor.weaken storage) fun buckets isBuckets =>
    .check (Layout.failsOnly_compute extent value kinds) fun layout computed =>
    .check ((bounded_toWord32 _ _).weaken storage) fun _ isCapacity =>
    .check ((bounded_toWord32 _ _).weaken storage) fun _ isBucketCapacity =>
    .check ((bounded_toWord32 _ _).weaken storage) fun _ isRowSize =>
    .resize storage fun buffer resized => ?_)
  obtain ⟨-, rfl⟩ := toWord32_eq_ok.mp isCapacity
  obtain ⟨-, rfl⟩ := toWord32_eq_ok.mp isBucketCapacity
  obtain ⟨rowSize, rfl⟩ := toWord32_eq_ok.mp isRowSize
  have reached := (IsCapacity.of_grown grown).1
  obtain rfl : 2 * capacity = buckets :=
    Except.ok.inj ((bucketCapacityFor_eq reached).symm.trans isBuckets)
  exact ⟨(), run_create wellFormed reached rowSize computed resized⟩

theorem init_withdraws [LawfulHost Buffer] (wellFormed : shape.WellFormed) (sizing : Sizing)
    (site : Site Buffer) : Store.Withdraws Failure.Documented site (init shape sizing) :=
  init_failsOnly wellFormed sizing site (fun _ => Failure.IsStorage.documented) (fun _ => trivial) id
    fun _ _ => id

/-- A block that cannot be given back stays as it was. -/
theorem dispose_withdraws (site : Site Buffer) :
    Store.Withdraws Failure.Documented site (dispose : Store Buffer Unit) :=
  .of_resize (fun _ => Failure.IsStorage.documented) 0

/-! ### Growth -/

namespace Holds

variable [LawfulHost Buffer] (wellFormed : shape.WellFormed)
  (holds : Holds shape site image table orders)

include wellFormed holds

theorem setCapacity_withdraws (capacity : Nat) :
    Store.Withdraws Failure.Documented site (setCapacity shape capacity) := by
  rcases holds.run_setCapacity wellFormed capacity with
    ⟨failure, refused, ⟨-, rfl⟩ | cannotGrow⟩ | ⟨-, later, run, -⟩
  · exact .of_error refused trivial
  · exact .of_error refused cannotGrow.documented
  · exact .of_ok run

theorem flatten_withdraws : Store.Withdraws Failure.Documented site (flatten shape) := by
  rcases holds.run_flatten wellFormed with ⟨failure, refused, cannotGrow⟩ | ⟨later, run, -⟩
  · exact .of_error refused cannotGrow.documented
  · exact .of_ok run

/-- A new row takes nothing before there is room for it. -/
theorem insertNew_withdraws {row : Row} (fits : row.Fits shape)
    (absent : table.find row.key = none) :
    Store.Withdraws Failure.Documented site (insertNew shape row) := by
  rcases holds.run_insertNew wellFormed fits (holds.represents.wellFormed.not_find absent) with
    ⟨failure, refused, ⟨-, rfl⟩ | ⟨-, cannotGrow⟩⟩ | ⟨-, later, run, -⟩
  · exact .of_error refused trivial
  · exact .of_error refused cannotGrow.documented
  · exact .of_ok run

theorem tryAdd_withdraws {row : Row} (fits : row.Fits shape) :
    Store.Withdraws Failure.Documented site (tryAdd shape row) := by
  by_cases present : (table.find row.key).isSome
  · exact .of_ok (holds.run_tryAdd_present present)
  · have absent := Option.not_isSome_iff_eq_none.mp present
    refine ((holds.insertNew_withdraws wellFormed fits absent).map fun _ => true).congr ?_
    simp only [holds.run_tryAdd_absent absent, Edit.run_bind, Edit.run_discard, Edit.run_map]
    cases insertNew shape row site <;> rfl

theorem add_withdraws {row : Row} (fits : row.Fits shape) :
    Store.Withdraws Failure.Documented site (add shape row) := by
  by_cases present : (table.find row.key).isSome
  · exact .of_error (holds.run_add_present present) trivial
  · have absent := Option.not_isSome_iff_eq_none.mp present
    exact (holds.insertNew_withdraws wellFormed fits absent).congr (holds.run_add_absent absent)

end Holds

/-! ### All calls that need storage -/

/-- A call that may need another block. -/
inductive Call where
  | init (sizing : Sizing)
  | tryAdd (row : Row)
  | add (row : Row)
  | setCapacity (capacity : Nat)
  | flatten
  | dispose

namespace Call

def run (shape : Shape) : Call → Store Buffer Unit
  | init sizing => IndexedMap.init shape sizing
  | tryAdd row => discard (IndexedMap.tryAdd shape row)
  | add row => discard (IndexedMap.add shape row)
  | setCapacity capacity => IndexedMap.setCapacity shape capacity
  | flatten => IndexedMap.flatten shape
  | dispose => IndexedMap.dispose

/-- Creation can be asked of every block, anything else of a map; rows have the types of the
shape. -/
def Admitted (shape : Shape) (site : Site Buffer) : Call → Prop
  | init _ => True
  | tryAdd row | add row => Reachable shape site ∧ row.Fits shape
  | setCapacity _ | flatten | dispose => Reachable shape site

theorem withdraws [LawfulHost Buffer] (wellFormed : shape.WellFormed) {call : Call}
    (admitted : call.Admitted shape site) :
    Store.Withdraws Failure.Documented site (call.run shape) := by
  cases call with
  | init sizing => exact init_withdraws wellFormed sizing site
  | tryAdd row =>
    obtain ⟨image, table, orders, holds⟩ := admitted.1.sound wellFormed
    exact (holds.tryAdd_withdraws wellFormed admitted.2).map fun _ => ()
  | add row =>
    obtain ⟨image, table, orders, holds⟩ := admitted.1.sound wellFormed
    exact (holds.add_withdraws wellFormed admitted.2).map fun _ => ()
  | setCapacity capacity =>
    obtain ⟨image, table, orders, holds⟩ := Reachable.sound wellFormed admitted
    exact holds.setCapacity_withdraws wellFormed capacity
  | flatten =>
    obtain ⟨image, table, orders, holds⟩ := Reachable.sound wellFormed admitted
    exact holds.flatten_withdraws wellFormed
  | dispose => exact dispose_withdraws site

end Call

/-- A call that fails changes no byte of the block, and every later operation runs as if the call had
never been made. -/
theorem Call.nothing_changed [LawfulHost Buffer] (wellFormed : shape.WellFormed) {call : Call}
    (admitted : call.Admitted shape site) {failure : Failure} {later : Site Buffer}
    (failed : call.run shape site = .error failure later) :
    later.bytes = site.bytes ∧
      ∀ (α : Type) (operation : Store Buffer α), operation later = operation site := by
  obtain ⟨-, rfl⟩ := call.withdraws wellFormed admitted failure later failed
  exact ⟨rfl, fun _ _ => rfl⟩

/-- A block that may not grow to the length of a map stays empty, and a map that is asked for too
many slots stays as it was. -/
theorem words_nothing_changed :
    (∃ later : Site BlockBuffer, (Call.init {}).run (Shape.words 2) ⟨.empty (some 100), []⟩ =
        .error (.storage (.allocationFailed 13344)) later ∧ later.bytes = #[]) ∧
      ∃ site : Site BlockBuffer, init (Shape.words 2) {} ⟨.empty none, []⟩ = .ok () site ∧
        ∃ failure later, (Call.setCapacity (maxCapacity + 1)).run (Shape.words 2) site =
          .error failure later ∧ later.bytes = site.bytes := by
  constructor
  · refine ⟨⟨.empty (some 100), []⟩, rfl, ?_⟩
    exact (@Call.nothing_changed BlockBuffer _ (Shape.words 2) ⟨.empty (some 100), []⟩ _
      (Shape.wellFormed_words 2) (.init {}) trivial _ _ rfl).1
  · obtain ⟨site, run⟩ := @run_init_of_granting BlockBuffer _ (Shape.words 2) ⟨.empty none, []⟩ _ _
      BlockBuffer.granting rfl (Shape.wellFormed_words 2) (Shape.supported_words 2) (by decide)
      (by decide) rfl {} (by decide) (by decide)
    have reachable := Reachable.init {} run
    obtain ⟨image, table, orders, holds⟩ := reachable.sound (Shape.wellFormed_words 2)
    rcases holds.run_setCapacity (Shape.wellFormed_words 2) (maxCapacity + 1) with
      ⟨failure, refused, -⟩ | ⟨small, -⟩
    · exact ⟨site, run, failure, site, refused,
        (@Call.nothing_changed BlockBuffer _ (Shape.words 2) site _ (Shape.wellFormed_words 2)
          (.setCapacity (maxCapacity + 1)) reachable _ _ refused).1⟩
    · exact absurd small (by omega)

end PackedStore.IndexedMap
