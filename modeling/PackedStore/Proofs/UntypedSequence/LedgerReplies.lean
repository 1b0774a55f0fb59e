/-
This file says what a sequence replies to everything that can be asked of it, its
header and its listing included, and how it is created. All of it is planned from
the ledger of the sequence alone, and so is the length of its block.
-/

import PackedStore.Proofs.UntypedSequence.LedgerOperations
import PackedStore.Proofs.UntypedSequence.Safety

namespace PackedStore.UntypedSequence

open Store (Asks Enacts Quiet)

/-! ### Replies -/

/-- What a sequence replies. -/
inductive Reply where
  | answer (answer : Answer)
  | header (header : Header)
  | text (text : String)
deriving DecidableEq

/-- The listing of the counts and the tags of a ledger. -/
def Ledger.listing (tagText : TypeTag → String) (ledger : Ledger) : String :=
  let tags := ledger.elements.map fun datum => datum.type.tag
  let types := ", ".intercalate (tags.map (TypeTag.listing tagText))
  s!"UntypedSeq \x7b len: {ledger.header.count}, capacity: {ledger.header.capacity}, "
    ++ s!"data_allocated: {ledger.header.dataAllocated}, data_capacity: {ledger.header.dataCapacity}, "
    ++ s!"types: [{types}] \x7d"

namespace Request

/-- The request to a sequence in a host, with its reply. -/
def ask {Buffer : Type} [Host Buffer] : Request → Store Buffer Reply
  | perform operation => .answer <$> operation.run
  | header => .header <$> UntypedSequence.header
  | listing tagText => .text <$> UntypedSequence.listing tagText

/-- What a request does to the ledger of a sequence. -/
def plan : Request → Plan Ledger Reply
  | perform operation => .answer <$> operation.plan
  | header => Plan.tell fun ledger => .ok (.header ledger.header)
  | listing tagText => Plan.tell fun ledger => .ok (.text (ledger.listing tagText))

/-- The request brings values of any types that there can be. -/
def Brings : Request → Prop
  | perform operation => operation.Fits ElementType.WellFormed
  | _ => True

end Request

variable {Buffer : Type} [Host Buffer] {site : Site Buffer} {image : Image}
  {elements : List Datum} {ledger : Ledger}

/-- The tags in front are those of the elements. -/
theorem Represents.takeFront?_types (represents : Represents image elements) :
    takeFront? image.types image.header.count = .ok (elements.map fun datum => datum.type.tag) := by
  have room : image.header.count ≤ image.types.size := by
    rw [represents.sound.size_types]
    exact represents.regular.count_le
  rw [takeFront?_of room]
  refine congrArg Except.ok (List.ext_getElem? fun index => ?_)
  rw [represents.count, List.getElem?_map, List.getElem?_take, Array.getElem?_toList]
  by_cases inside : index < elements.length
  · have there := List.getElem?_eq_getElem inside
    rw [if_pos inside, there, (represents.stored there).tag_eq, Option.map_some]
  · rw [if_neg inside, List.getElem?_eq_none (Nat.le_of_not_lt inside), Option.map_none]

namespace Records

variable (records : Records site ledger)

include records

theorem run_listing (tagText : TypeTag → String) :
    listing tagText site = .ok (ledger.listing tagText) site := by
  obtain ⟨image, holds, isHeader⟩ := records
  refine Store.run_view_ok holds.loaded (Checked.bind_eq_ok.mpr
    ⟨_, holds.represents.takeFront?_types, ?_⟩)
  rw [isHeader]
  rfl

theorem enacts_request [LawfulHost Buffer] {request : Request} (brings : request.Brings) :
    Enacts Records site request.ask (request.plan.run ledger) := by
  obtain ⟨image, holds, isHeader⟩ := id records
  cases request with
  | perform operation => exact (records.enacts brings).map Reply.answer
  | header =>
    exact .of_read (by rw [Request.ask, Edit.run_map, holds.run_header, isHeader]) records
  | listing tagText =>
    exact .of_read (by rw [Request.ask, Edit.run_map, records.run_listing]) records

theorem run_attach : attach site = .ok () site := by
  obtain ⟨image, holds, -⟩ := records
  exact holds.run_attach

/-- The header tells how long the block is. -/
theorem size_eq : ∃ layout, Layout.compute ledger.capacity ledger.dataCapacity = .ok layout ∧
    site.bytes.size = layout.total := by
  obtain ⟨image, holds, isHeader⟩ := records
  have computed := holds.represents.sound.computed
  rw [isHeader] at computed
  exact ⟨image.layout, computed, holds.size_eq⟩

end Records

/-! ### Creation -/

/-- A new sequence needs a block of the length of its layout. -/
def Ledger.create (sizing : Sizing) : Plan (Option Ledger) Unit := do
  let capacity ← grownCapacity 0 sizing.capacity sizing.log2MinGrowth
  let dataCapacity ← initialData sizing
  let layout ← Layout.compute capacity dataCapacity
  Plan.ask layout.total
  set (some (Ledger.initial capacity dataCapacity sizing.log2MinGrowth))

theorem asks_initTo (header : Header) (layout : Layout) :
    Asks layout.total (initTo header layout : Store Buffer Unit) :=
  (Asks.resize _).bind fun _ => quiet_writeHeader _

/-- Creation in an empty block does what is planned. -/
theorem enacts_init [LawfulHost Buffer] (empty : site.bytes.size = 0) (sizing : Sizing) :
    Enacts (Store.Contains Records) site (init sizing) ((Ledger.create sizing).run none) := by
  have nothing : Store.Contains Records site none := empty
  simp only [Ledger.create, Plan.run_bind, Plan.run_lift]
  refine .read Store.run_length (.passed (demand_of empty _) ?_)
  refine .check nothing fun capacity grown => ?_
  rw [lift_initialData]
  simp only [Plan.run_bind, Plan.run_lift]
  refine .check nothing fun dataCapacity grownData => ?_
  have small := (IsCapacity.of_grown grown).1.lt_word
  have dataSmall := (isArenaCapacity_of_initialData grownData).le_max
  unfold maxCapacity at dataSmall
  simp only [Plan.run_bind, Plan.run_lift]
  refine .check nothing fun layout computed =>
    .passed (toWord32_of (show capacity < 2 ^ 32 by omega) _) <|
    .passed (toWord32_of (show dataCapacity < 2 ^ 32 by omega) _) ?_
  refine .of_asks (asks_initTo _ layout) nothing (fun error refused => ?_) fun buffer granted => ?_
  · exact (Edit.run_bind _ _ _).trans (by rw [Store.run_resize_error refused])
  · obtain ⟨later, image, run, holds, isHeader, -⟩ :=
      run_init_granted empty grown grownData computed granted
    exact ⟨later, (init_eq empty grown grownData computed).symm.trans run, image, holds, isHeader⟩

/-- A sequence that has been created has the ledger of an empty one with the capacities of the
sizing. -/
theorem records_of_init [LawfulHost Buffer] {sizing : Sizing} {later : Site Buffer}
    (run : init sizing site = .ok () later) :
    ∃ capacity dataCapacity, grownCapacity 0 sizing.capacity sizing.log2MinGrowth = .ok capacity ∧
      initialData sizing = .ok dataCapacity ∧
      Records later (.initial capacity dataCapacity sizing.log2MinGrowth) := by
  have empty : site.bytes.size = 0 := by
    by_contra used
    simp only [init, Edit.run_bind, Store.run_length, demand_of_not used, Edit.run_lift_error,
      reduceCtorEq] at run
  obtain ⟨state, ends, stands⟩ := (enacts_init empty sizing).answered run
  obtain ⟨capacity, grown, ends⟩ := Plan.granted_check ends
  obtain ⟨dataCapacity, grownData, ends⟩ := Plan.granted_check ends
  obtain ⟨layout, -, ends⟩ := Plan.granted_check ends
  obtain rfl := congrArg Prod.snd ends
  exact ⟨capacity, dataCapacity, grown, grownData, stands⟩

end PackedStore.UntypedSequence
