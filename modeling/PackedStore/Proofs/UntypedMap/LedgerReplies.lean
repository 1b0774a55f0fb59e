/-
This file says what a map replies to everything that can be asked of it, its header
and its listing included, and how it is created. All of it is planned from the
ledger of the map alone, and so is the length of its block.
-/

import PackedStore.Proofs.Host.Limits
import PackedStore.Proofs.UntypedMap.LedgerOperations
import PackedStore.Proofs.UntypedMap.Reachable
import PackedStore.Proofs.UntypedMap.Safety

namespace PackedStore.UntypedMap

open Store (Asks Enacts Quiet)

/-! ### Replies -/

/-- What a map replies. -/
inductive Reply where
  | answer (answer : Answer)
  | header (header : Header)
  | text (text : String)
deriving DecidableEq, Repr

/-- The listing of the counts and the keys of a ledger. -/
def Ledger.listing (keyText : Bytes → String) (ledger : Ledger) : String :=
  let keys := ", ".intercalate ((ledger.entries.map Entry.key).map keyText)
  s!"UntypedHashMap \x7b len: {ledger.header.count}, capacity: {ledger.header.capacity}, "
    ++ s!"data_allocated: {ledger.header.dataAllocated}, data_capacity: {ledger.header.dataCapacity}, "
    ++ s!"keys: [{keys}] \x7d"

namespace Request

/-- The request to a map in a host, with its reply. -/
def ask {Buffer : Type} [Host Buffer] (key : KeyType) : Request → Store Buffer Reply
  | perform operation => .answer <$> operation.run key
  | header => .header <$> UntypedMap.header
  | listing keyText => .text <$> UntypedMap.listing key keyText

/-- What a request does to the ledger of a map. -/
def plan (key : KeyType) : Request → Plan Ledger Reply
  | perform operation => .answer <$> operation.plan key
  | header => Plan.tell fun ledger => .ok (.header ledger.header)
  | listing keyText => Plan.tell fun ledger => .ok (.text (ledger.listing keyText))

/-- The request brings keys of the key type and values of any types that there can be. -/
def Brings (key : KeyType) : Request → Prop
  | perform operation => operation.Fits ElementType.WellFormed key
  | _ => True

end Request

variable {Buffer : Type} [Host Buffer] {key : KeyType} {site : Site Buffer} {ledger : Ledger}

namespace Records

variable (wellFormed : key.toElementType.WellFormed) (records : Records key site ledger)

include wellFormed records

theorem enacts_request [LawfulHost Buffer] {request : Request} (brings : request.Brings key) :
    Enacts (Records key) site (request.ask key) ((request.plan key).run ledger) := by
  obtain ⟨image, order, holds, isHeader, -⟩ := id records
  cases request with
  | perform operation => exact (records.enacts wellFormed brings).map Reply.answer
  | header =>
    exact .of_read (by rw [Request.ask, Edit.run_map, holds.run_header, isHeader]) records
  | listing keyText =>
    refine .of_read ?_ records
    simp only [Request.ask, listing, Edit.run_map, Edit.run_bind, holds.run_header, holds.run_keys,
      Edit.run_pure, isHeader]
    rfl

theorem run_attach : attach key site = .ok () site := by
  obtain ⟨image, order, holds, -, -⟩ := records
  exact holds.run_attach wellFormed

omit wellFormed in
theorem run_header : header site = .ok ledger.header site := by
  obtain ⟨image, order, holds, isHeader, -⟩ := records
  rw [holds.run_header, isHeader]

omit wellFormed in
/-- The header tells how long the block is. -/
theorem size_eq : ∃ layout, Layout.compute key.toElementType ledger.header.capacity
      (2 * ledger.header.capacity) ledger.header.dataCapacity = .ok layout ∧
    site.bytes.size = layout.total := by
  obtain ⟨image, order, holds, isHeader, -⟩ := records
  have computed := holds.represents.framed.computed
  rw [holds.represents.framed.header.bucketCapacity, isHeader] at computed
  exact ⟨image.layout, computed, holds.size_eq⟩

end Records

/-! ### Creation -/

/-- A new map needs a block of the length of its layout. -/
def Ledger.create (key : KeyType) (sizing : Sizing) : Plan (Option Ledger) Unit := do
  let capacity ← grownCapacity 0 sizing.capacity sizing.log2MinGrowth
  let dataCapacity ← initialData sizing
  let layout ← Layout.compute key.toElementType capacity (2 * capacity) dataCapacity
  let _ ← toWord32 key.size .keySize
  Plan.ask layout.total
  set (some (Ledger.initial key capacity dataCapacity sizing.log2MinGrowth))

theorem asks_initTo (key : KeyType) (header : Header) (layout : Layout) :
    Asks layout.total (initTo key header layout : Store Buffer Unit) :=
  (Asks.resize _).bind fun _ => (quiet_writeHeader _).bind fun _ => .edit _ _

/-- A block of the right length records the ledger of a new map. -/
theorem records_initial [LawfulHost Buffer] (wellFormed : key.toElementType.WellFormed)
    {capacity dataCapacity log2MinGrowth : Nat}
    (regular : (Header.initial key capacity dataCapacity log2MinGrowth).Regular key)
    {layout : Layout}
    (computed : Layout.compute key.toElementType capacity (2 * capacity) dataCapacity = .ok layout)
    {buffer : Buffer} (granted : Host.resize site.buffer layout.total = .ok buffer) :
    ∃ later, initTo key (.initial key capacity dataCapacity log2MinGrowth) layout site =
        .ok () later ∧
      Records key later (.initial key capacity dataCapacity log2MinGrowth) := by
  obtain ⟨written, later, image, runWrite, runClear, holds, isHeader, -⟩ :=
    @run_emptied _ _ (fun _ => False) key (site.withBuffer buffer) _ wellFormed _ regular rfl layout
      computed (LawfulHost.size_resize site.buffer buffer layout.total granted)
  refine ⟨later, ?_, image, _, holds, isHeader, image.located_nil⟩
  simp only [initTo, Edit.run_bind, Store.run_resize_ok granted, runWrite]
  exact runClear

/-- Creation in an empty block does what is planned. -/
theorem enacts_init [LawfulHost Buffer] (wellFormed : key.toElementType.WellFormed)
    (empty : site.bytes.size = 0) (sizing : Sizing) :
    Enacts (Store.Contains (Records key)) site (init key sizing)
      ((Ledger.create key sizing).run none) := by
  have nothing : Store.Contains (Records key) site none := empty
  simp only [Ledger.create, Plan.run_bind, Plan.run_lift]
  refine .read Store.run_length (.passed (demand_of empty _) ?_)
  refine .check nothing fun capacity grown => ?_
  have reached := (IsCapacity.of_grown grown).1
  have word := reached.lt_word
  refine .passed (bucketCapacityFor_eq reached) ?_
  rw [lift_initialData]
  simp only [Plan.run_bind, Plan.run_lift]
  refine .check nothing fun dataCapacity grownData => ?_
  have dataReached := isArenaCapacity_of_initialData grownData
  have small := dataReached.le_max
  unfold maxCapacity at small
  simp only [Plan.run_bind, Plan.run_lift]
  refine .check nothing fun layout computed =>
    .passed (toWord32_of (show capacity < 2 ^ 32 by omega) _) <|
    .passed (toWord32_of word _) <|
    .passed (toWord32_of (show dataCapacity < 2 ^ 32 by omega) _) ?_
  simp only [Plan.run_bind, Plan.run_lift]
  refine .check nothing fun keySize isKeySize => ?_
  obtain ⟨small, rfl⟩ := toWord32_eq_ok.mp isKeySize
  have regular := Header.regular_initial reached dataReached small
  refine .of_asks (asks_initTo key _ layout) nothing (fun error refused => ?_)
    fun buffer granted => ?_
  · exact (Edit.run_bind _ _ _).trans (by rw [Store.run_resize_error refused])
  · exact records_initial wellFormed regular computed granted

/-- A map that has been created has the ledger of an empty map with the capacities of the sizing. -/
theorem records_of_init [LawfulHost Buffer] (wellFormed : key.toElementType.WellFormed)
    {sizing : Sizing} {later : Site Buffer} (run : init key sizing site = .ok () later) :
    ∃ capacity dataCapacity, grownCapacity 0 sizing.capacity sizing.log2MinGrowth = .ok capacity ∧
      initialData sizing = .ok dataCapacity ∧
      Records key later (.initial key capacity dataCapacity sizing.log2MinGrowth) := by
  obtain ⟨_, _, _, empty, -⟩ := accepted_of_init run
  obtain ⟨state, ends, stands⟩ := (enacts_init wellFormed empty sizing).answered run
  obtain ⟨capacity, grown, ends⟩ := Plan.granted_check ends
  obtain ⟨dataCapacity, grownData, ends⟩ := Plan.granted_check ends
  obtain ⟨layout, -, ends⟩ := Plan.granted_check ends
  obtain ⟨_, -, ends⟩ := Plan.granted_check ends
  obtain rfl := congrArg Prod.snd ends
  exact ⟨capacity, dataCapacity, grown, grownData, stands⟩

/-- A reachable map has a ledger. -/
theorem Reachable.records [LawfulHost Buffer] {known : ElementType → Prop}
    (wellFormed : key.toElementType.WellFormed) (types : ∀ type, known type → type.WellFormed)
    (reachable : Reachable known key site) : ∃ ledger, Records key site ledger := by
  induction reachable with
  | init sizing run =>
    obtain ⟨capacity, dataCapacity, -, -, records⟩ := records_of_init wellFormed run
    exact ⟨_, records⟩
  | operation operation fits _ inductionHypothesis =>
    obtain ⟨ledger, records⟩ := inductionHypothesis
    exact (records.enacts wellFormed (fits.weaken types)).stands

/-! ### Maps in a host with a limit -/

/-- What an operation does to a ledger in a host with a limit. -/
def Ledger.machine (key : KeyType) (bound : Option Nat) : Machine Operation Ledger Answer :=
  fun operation ledger => ((operation.plan key).run ledger).within bound

section

variable [LawfulHost Buffer] (wellFormed : key.toElementType.WellFormed)
  {limit : Buffer → Option Nat} (limited : Limited limit) {bound : Option Nat}

include wellFormed limited

/-- The map at the site has the ledger, in a host with the limit. -/
def RecordsWithin (key : KeyType) (limit : Buffer → Option Nat) (bound : Option Nat)
    (site : Site Buffer) (ledger : Ledger) : Prop :=
  limit site.buffer = bound ∧ Records key site ledger

/-- An operation does to the map what it does to the ledger. -/
theorem RecordsWithin.step (within : RecordsWithin key limit bound site ledger)
    {operation : Operation} (fits : operation.Fits ElementType.WellFormed key) :
    (Store.outcome (operation.run key) site).1 = (Ledger.machine key bound operation ledger).1 ∧
      RecordsWithin key limit bound (Store.outcome (operation.run key) site).2
        (Ledger.machine key bound operation ledger).2 := by
  obtain ⟨same, unchanged, stands⟩ := limited.enacted (within.2.enacts wellFormed fits)
  rw [within.1] at same unchanged stands
  exact ⟨same, unchanged, stands⟩

/-- A map in a host with a limit does what its ledger does within that limit. -/
theorem RecordsWithin.run (within : RecordsWithin key limit bound site ledger)
    {operations : List Operation}
    (fits : ∀ operation ∈ operations, operation.Fits ElementType.WellFormed key) :
    (Store.machine (Operation.run key)).answers operations site =
        (Ledger.machine key bound).answers operations ledger ∧
      RecordsWithin key limit bound ((Store.machine (Operation.run key)).reached operations site)
        ((Ledger.machine key bound).reached operations ledger) :=
  Machine.answers_eq_of_step (fun _ _ _ fits within => within.step wellFormed limited fits) fits
    within

end

end PackedStore.UntypedMap
