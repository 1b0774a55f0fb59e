/-
This file says that an indexed map is safe to use: a block that holds one can be
attached to and taken apart into its arrays, and whatever is asked of it leads to a
block that holds a map again. A change fails only where the caller broke a
documented rule or a resource ran out; a question about rows never fails, and
neither does a cursor that the map was not changed under.
-/

import PackedStore.Proofs.IndexedMap.Atomicity
import PackedStore.Proofs.IndexedMap.Queries

namespace PackedStore.IndexedMap

/-! ### The parts of a map -/

/-- The parts of the map that a block holds. -/
def parts (shape : Shape) (bytes : Bytes) : Checked (List (Segment × Segment.Content)) := do
  let image ← Image.load shape bytes
  return image.layout.parts shape image.header.capacity image.header.bucketCapacity

/-- Wherever there are parts, the block can be taken apart into them. -/
theorem carved_parts {shape : Shape} (wellFormed : shape.WellFormed) {bytes : Bytes}
    {taken : List (Segment × Segment.Content)} (isParts : parts shape bytes = .ok taken) :
    Segment.Carved bytes taken := by
  obtain ⟨image, loaded, returned⟩ := Checked.bind_eq_ok.mp isParts
  obtain rfl := Except.ok.inj returned
  obtain ⟨header, layout, -, computed, inside, rfl⟩ := Image.load_eq_ok.mp loaded
  have placed := Layout.placed_of_compute wellFormed computed
  exact Segment.carved_of_spans (placed.map_parts.symm ▸ placed.spans) inside placed.suits

/-! ### Failures of tables -/

/-- A slot table refuses keys that are there already and more rows than a map can have. -/
theorem SlotTable.documented_step (operation : Operation) (table : SlotTable) :
    Checked.FailsOnly Failure.Documented (SlotTable.step operation table).1 := by
  have adding (row : Row) (answer : Nat → Answer) :
      Checked.FailsOnly Failure.Documented (table.adding row answer).1 := by
    unfold SlotTable.adding
    split
    · exact .ok _
    · exact .error trivial
  cases operation with
  | tryAdd row =>
    simp only [SlotTable.step]
    split
    · exact .ok _
    · exact adding _ _
  | add row =>
    simp only [SlotTable.step]
    split
    · exact .error trivial
    · exact adding _ _
  | remove key | exchange key value =>
    simp only [SlotTable.step]
    split <;> exact .ok _
  | setCapacity capacity =>
    simp only [SlotTable.step]
    split
    · exact .ok _
    · exact .error trivial
  | _ => exact .ok _

/-! ### Requests -/

/-- Everything that can be asked of an indexed map. -/
inductive Request where
  | perform (change : Change)
  | header
  | entryAt (slot : Nat)
  | entriesFor (position : Nat) (index : Bytes)
  | entries
  | first (position : Nat) (index : Bytes)
  | next (position : Nat) (cursor : Cursor)
  | listing (text : RowText)

namespace Request

variable {Buffer : Type} [Host Buffer]

def run (shape : Shape) : Request → Store Buffer Unit
  | .perform change => change.run shape
  | .header => discard IndexedMap.header
  | .entryAt slot => discard (IndexedMap.entryAt shape slot)
  | .entriesFor position index => discard (IndexedMap.entriesFor shape position index)
  | .entries => discard (IndexedMap.entries shape)
  | .first position index => discard (IndexedMap.first shape position index)
  | .next position cursor => discard (IndexedMap.next shape position cursor)
  | .listing text => discard (IndexedMap.listing shape text)

/-- The request brings rows and values of the types of the shape and names an index that the map
has; a cursor has not been carried over from another state of the map. -/
def Fits (shape : Shape) (site : Site Buffer) : Request → Prop
  | .perform change => change.Fits shape
  | .entriesFor position _ | .first position _ => position < shape.indices.length
  | .next position cursor => position < shape.indices.length ∧ cursor.Current shape site
  | _ => True

end Request

variable {Buffer : Type} [Host Buffer] {shape : Shape} {site : Site Buffer} {image : Image}
  {table : SlotTable} {orders : Nat → Nat → List Nat}

namespace Holds

variable (wellFormed : shape.WellFormed) (holds : Holds shape site image table orders)

include holds

theorem sound : Sound shape site :=
  ⟨image, table, orders, holds⟩

theorem run_listing (text : RowText) : ∃ listed, listing shape text site = .ok listed site := by
  simp only [listing, Edit.run_bind, holds.run_entries, Edit.run_pure]
  exact ⟨_, rfl⟩

include wellFormed

/-- The map in a block can be attached to. -/
theorem run_attach : attach shape site = .ok () site := by
  have framed := holds.represents.framed
  have placed := Layout.placed_of_compute wellFormed framed.computed
  have long : headerLength ≤ site.bytes.size := by
    rw [holds.size_eq]
    exact placed.header_le
  have whole : image.layout.total ≤ site.bytes.size := Nat.le_of_eq holds.size_eq.symm
  have recorded : Layout.ofHeader shape image.header = .ok image.layout :=
    recorded_eq_ok.mpr framed.computed
  simp only [attach, Edit.run_bind, Store.run_bytes, demand_of long, Edit.run_lift_ok,
    holds.load_header, demand_of framed.magic, demand_of framed.rowSize, recorded, demand_of whole]

variable [LawfulHost Buffer]

theorem safe_operation {operation : Operation} (fits : operation.Fits shape) :
    Store.Safe (Sound shape) site (operation.run shape) := by
  rcases holds.agrees wellFormed fits with ⟨failure, outcome, cannotGrow⟩ | ⟨later, outcome, follows⟩
  · refine ⟨by rw [outcome]; exact holds.sound, fun other failed => ?_⟩
    rw [outcome] at failed
    exact Except.error.inj failed ▸ cannotGrow.documented
  · refine ⟨by rw [outcome]; exact follows.stands.sound, fun other failed => ?_⟩
    rw [outcome] at failed
    exact SlotTable.documented_step operation table other failed

theorem safe_change {change : Change} (fits : change.Fits shape) :
    Store.Safe (Sound shape) site (change.run shape) := by
  cases change with
  | single operation => exact (holds.safe_operation wellFormed fits).discard
  | flatten =>
    refine .of_withdraws (holds.flatten_withdraws wellFormed) holds.sound fun answer later ran => ?_
    rcases holds.run_flatten wellFormed with ⟨failure, refused, -⟩ | ⟨other, run, _, -, follows⟩
    · exact absurd (ran.symm.trans refused) (by simp)
    · obtain ⟨-, rfl⟩ := EStateM.Result.ok.inj (ran.symm.trans run)
      exact follows.stands.sound
  | removeRange start count =>
    rcases holds.run_removeRange wellFormed start count with
      ⟨misuse, refused, documented, -⟩ | ⟨later, run, -, follows⟩
    · exact .of_error refused documented holds.sound
    · exact .of_ok run follows.stands.sound

/-- Whatever is asked of a map leads to a map again. -/
theorem safe {request : Request} (fits : request.Fits shape site) :
    Store.Safe (Sound shape) site (request.run shape) := by
  have answered {α : Type} {operation : Store Buffer α} {answer : α}
      (run : operation site = .ok answer site) :
      Store.Safe (Sound shape) site (discard operation : Store Buffer Unit) :=
    (Store.Safe.of_ok run holds.sound).discard
  cases request with
  | perform change => exact holds.safe_change wellFormed fits
  | header => exact answered holds.run_header
  | entryAt slot => exact answered (holds.run_entryAt slot)
  | entriesFor position index =>
    exact answered (holds.run_entriesFor (List.getElem?_eq_getElem fits) index)
  | entries => exact answered holds.run_entries
  | first position index =>
    rcases holds.run_first (List.getElem?_eq_getElem fits) index with run | ⟨_, _, -, -, run⟩
    · exact answered run
    · exact answered run
  | next position cursor =>
    rcases holds.run_next (List.getElem?_eq_getElem fits.1) (fits.2.live holds) with
      run | ⟨_, _, -, -, run⟩
    · exact answered run
    · exact answered run
  | listing text =>
    obtain ⟨listed, run⟩ := holds.run_listing text
    exact answered run

end Holds

end PackedStore.IndexedMap
