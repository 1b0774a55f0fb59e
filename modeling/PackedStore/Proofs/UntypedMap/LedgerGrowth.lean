/-
This file follows a map and its ledger through growth, side by side. More slots and
more arena ask for the length of a layout that the ledger knows, and leave all
values at their places, so the site has the planned ledger afterwards and the
ledger it had before where the host refuses.
-/

import PackedStore.Proofs.UntypedMap.Ledgers

namespace PackedStore.UntypedMap

open Store (Asks Enacts Quiet)

variable {Buffer α : Type} [Host Buffer] {key : KeyType} {site : Site Buffer} {image : Image}
  {entries : List Entry} {places : List Nat} {order : Nat → List Nat} {ledger : Ledger}

/-! ### Places -/

namespace Image.Located

/-- Where only one slot has another value or place, the places of all others are as before. -/
theorem update (located : image.Located entries places) {changed : Image}
    {others : List Entry} {otherPlaces : List Nat} (slot : Nat)
    (length_eq : otherPlaces.length = others.length)
    (values : ∀ other, other ≠ slot → Entries.stored others other = Entries.stored entries other)
    (words : ∀ other, other ≠ slot → other < entries.length →
      changed.cells.words[other]? = image.cells.words[other]?)
    (same : ∀ other, other ≠ slot → other < places.length → otherPlaces[other]? = places[other]?)
    (own : ∀ value word, changed.cells.Large (Entries.stored others) slot value word →
      otherPlaces[slot]? = some word.toNat) : changed.Located others otherPlaces where
  length_eq := length_eq
  place other value word large := by
    by_cases isSlot : other = slot
    · subst isSlot
      exact own value word large
    · have stored := large.stored
      rw [values other isSlot] at stored
      have inside := Entries.stored_lt stored
      rw [same other isSlot (by rw [located.length_eq]; exact inside)]
      refine located.place other value word ⟨stored, large.large, ?_⟩
      rw [← words other isSlot inside]
      exact large.word

/-- The places stay where the words stay. -/
theorem congr (located : image.Located entries places) {changed : Image}
    (words : ∀ slot, slot < entries.length →
      changed.cells.words[slot]? = image.cells.words[slot]?) : changed.Located entries places where
  length_eq := located.length_eq
  place slot value word large := by
    refine located.place slot value word ⟨large.stored, large.large, ?_⟩
    rw [← words slot (Entries.stored_lt large.stored)]
    exact large.word

end Image.Located

theorem Image.located_nil (image : Image) : image.Located [] [] where
  length_eq := rfl
  place _ _ _ large := absurd large.stored (by simp [Entries.stored])

namespace Records

theorem count_eq (records : Records key site ledger) :
    ledger.header.count = ledger.entries.length := by
  obtain ⟨image, order, holds, isHeader, -⟩ := records
  rw [← isHeader]
  exact holds.represents.count

theorem regular (records : Records key site ledger) : ledger.header.Regular key := by
  obtain ⟨image, order, holds, isHeader, -⟩ := records
  rw [← isHeader]
  exact holds.represents.framed.header

end Records

/-! ### Operations that only write -/

theorem quiet_header : Quiet (header : Store Buffer Header) :=
  Quiet.bytes.bind fun _ => .lift _

theorem quiet_writeHeader (header : Header) : Quiet (writeHeader header : Store Buffer Unit) :=
  Quiet.bytes.bind fun _ => .write _

/-! ### More slots -/

/-- What growth does with a layout that exists. -/
def growInto (key : KeyType) (capacity : Nat) (image : Image) (new : Layout) :
    Store Buffer Unit := do
  Store.relocate (image.layout.moves new) new.total
  writeHeader { ← header with capacity := capacity, bucketCapacity := 2 * capacity }
  Store.edit (format key.toElementType) <| onChains do
    HashChains.endLinksFrom image.header.capacity
    HashChains.rehash key.hash image.chains.buckets
  Store.report (.slotsGrow .untypedMap image.header.capacity capacity)
  Store.report (.rehashed image.chains.buckets.size (2 * capacity))

theorem asks_growInto (key : KeyType) (capacity : Nat) (image : Image) (new : Layout) :
    Asks new.total (growInto key capacity image new : Store Buffer Unit) :=
  (Asks.relocate _ _).bind fun _ => quiet_header.bind fun _ => (quiet_writeHeader _).bind fun _ =>
    (Quiet.edit _ _).bind fun _ => (Quiet.report _).bind fun _ => .report _

section

variable [LawfulHost Buffer] (wellFormed : key.toElementType.WellFormed)
  (records : Records key site ledger)

include wellFormed records

theorem Records.enacts_grow {capacity : Nat}
    (reached : IsCapacity ledger.header.log2MinGrowth capacity)
    (grows : ledger.header.capacity < capacity) :
    Enacts (Records key) site (grow key capacity) ((Ledger.grow key capacity).run ledger) := by
  have stands := records
  obtain ⟨image, order, holds, isHeader, located⟩ := records
  rw [← isHeader] at reached grows
  refine Enacts.congr ?_ (holds.grow_eq reached grows)
  simp only [Ledger.grow, growTo, Plan.run_bind, Plan.run_get, Plan.run_lift, Script.bind_ok,
    ← isHeader]
  refine .check stands fun new computed => ?_
  simp only [Plan.run_bind, Plan.run_ask, Plan.run_set, Script.bind_asks, Script.bind_ok]
  have same : growInto key capacity image new site = grow key capacity site := by
    rw [holds.grow_eq reached grows, growTo, computed]
    rfl
  refine .of_asks (asks_growInto key capacity image new) stands (fun error refused => ?_)
    fun resized granted => ?_
  · exact same.trans (holds.run_grow_refused wellFormed reached grows
      (Or.inr ⟨new, error, computed, refused, rfl⟩))
  · obtain ⟨later, grown, relinked, run, holdsLater, headerLater, words, -⟩ :=
      holds.run_grow wellFormed reached grows computed granted
    exact ⟨later, same.trans run, grown, relinked, holdsLater, headerLater,
      located.congr fun slot below => words slot
        (Nat.lt_of_lt_of_le below holds.represents.length_le)⟩

theorem Records.enacts_setCapacity (capacity : Nat) :
    Enacts (Records key) site (setCapacity key capacity)
      ((Ledger.setCapacity key capacity).run ledger) := by
  obtain ⟨image, order, holds, isHeader, located⟩ := id records
  refine .read holds.run_header ?_
  simp only [Ledger.setCapacity, Plan.run_bind, Plan.run_get, Script.bind_ok, isHeader]
  by_cases enough : ledger.header.capacity < capacity
  · rw [if_pos enough, if_pos enough]
    refine .check records fun larger grown => ?_
    obtain ⟨reached, -, room⟩ := IsCapacity.of_grown grown
    exact records.enacts_grow wellFormed reached (Nat.lt_of_lt_of_le enough room)
  · rw [if_neg enough, if_neg enough]
    exact .of_read rfl records

theorem Records.enacts_makeRoom :
    Enacts (Records key) site (makeRoom key ledger.header) ((Ledger.makeRoom key).run ledger) := by
  have regular := records.regular
  simp only [makeRoom, Ledger.makeRoom, Plan.run_bind, Plan.run_get, Script.bind_ok]
  by_cases full : ledger.header.count = ledger.header.capacity
  · rw [if_pos full, if_pos full]
    refine .check records fun larger grown => ?_
    rw [nextCapacity_eq regular.reached (Nat.le_of_eq full)] at grown
    by_cases largest : ledger.header.capacity = maxCapacity
    · rw [if_pos largest] at grown
      exact absurd grown (by simp)
    · rw [if_neg largest] at grown
      obtain rfl := Except.ok.inj grown
      exact records.enacts_grow wellFormed (regular.reached.double largest)
        regular.reached.lt_double
  · rw [if_neg full, if_neg full]
    exact .of_read rfl records

end

/-! ### More arena -/

/-- What the growth of the arena does with a layout that exists. -/
def widenInto (dataCapacity : Nat) (image : Image) (new : Layout) : Store Buffer Unit := do
  Store.resize new.total
  writeHeader { ← header with dataCapacity := dataCapacity }
  Store.report (.arenaGrows .untypedMap image.header.dataCapacity dataCapacity)

theorem asks_widenInto (dataCapacity : Nat) (image : Image) (new : Layout) :
    Asks new.total (widenInto dataCapacity image new : Store Buffer Unit) :=
  (Asks.resize _).bind fun _ => quiet_header.bind fun _ => (quiet_writeHeader _).bind fun _ =>
    .report _

/-- Where there is a layout, the host has refused its length. -/
theorem Refuses.of_computed {capacity dataCapacity : Nat} {failure : Failure}
    (refuses : Refuses key site capacity dataCapacity failure) {new : Layout}
    (computed : Layout.compute key.toElementType capacity (2 * capacity) dataCapacity = .ok new) :
    ∃ error, Host.resize site.buffer new.total = .error error ∧ failure = .storage error := by
  rcases refuses with failed | ⟨other, error, again, refused, rfl⟩
  · exact absurd (computed.symm.trans failed) (by simp)
  · obtain rfl := Except.ok.inj (computed.symm.trans again)
    exact ⟨error, refused, rfl⟩

section

variable [LawfulHost Buffer] (wellFormed : key.toElementType.WellFormed)
  (records : Records key site ledger)

include wellFormed records

theorem Records.enacts_widenTo (holds : Holds (fun _ => False) key site image ledger.entries order)
    (isHeader : image.header = ledger.header)
    (located : image.Located ledger.entries ledger.places) {dataCapacity : Nat}
    (more : ledger.header.dataCapacity ≤ dataCapacity)
    (reached : IsCapacity ledger.header.log2MinGrowth dataCapacity) :
    Enacts (Records key) site (widenTo key dataCapacity image) ((do
      let layout ← Layout.compute key.toElementType ledger.header.capacity
        (2 * ledger.header.capacity) dataCapacity
      Plan.ask layout.total
      set { ledger with header := ledger.header.withData dataCapacity ledger.header.dataAllocated } :
        Plan Ledger Unit).run ledger) := by
  rw [← isHeader] at more reached ⊢
  simp only [widenTo, Plan.run_bind, Plan.run_lift]
  refine .check records fun new computed => ?_
  simp only [Plan.run_bind, Plan.run_ask, Plan.run_set, Script.bind_asks, Script.bind_ok]
  have same : widenInto dataCapacity image new site = widenTo key dataCapacity image site := by
    rw [widenTo, computed]
    rfl
  rcases holds.run_widenTo wellFormed more reached with
    ⟨failure, run, refuses⟩ | ⟨later, wide, run, holdsLater, widens, headerLater, -⟩
  · obtain ⟨error, refused, rfl⟩ := refuses.of_computed computed
    refine .of_asks (asks_widenInto dataCapacity image new) records (fun other again => ?_)
      fun resized granted => absurd (refused.symm.trans granted) (by simp)
    obtain rfl := Except.error.inj (refused.symm.trans again)
    exact same.trans run
  · obtain ⟨resized, granted, -⟩ := asks_widenInto dataCapacity image new _ _ _ (same.trans run)
    refine .of_asks (asks_widenInto dataCapacity image new) records
      (fun other refused => absurd (granted.symm.trans refused) (by simp)) fun _ _ => ?_
    exact ⟨later, same.trans run, wide, order, holdsLater, headerLater,
      located.congr fun slot _ => by rw [widens.words]⟩

theorem Records.enacts_ensureData (required : Nat) :
    Enacts (Records key) site (ensureData key required)
      ((Ledger.ensureData key required).run ledger) := by
  obtain ⟨image, order, holds, isHeader, located⟩ := id records
  have regular := records.regular
  have step := regular.reached.le_log2
  simp only [Ledger.ensureData, Plan.run_bind, Plan.run_get, Script.bind_ok]
  by_cases more : ledger.header.dataCapacity < required
  · rw [if_pos more]
    by_cases large : maxCapacity < required
    · have grown := grownDataCapacity_eq_error step regular.dataReached more large
      have fails : ensureData key required site =
          (liftM (.error (.overflow .arenaCapacity) : Checked Unit) : Store Buffer Unit) site := by
        simp only [ensureData, Edit.run_bind, holds.run_header, isHeader, if_pos more, grown,
          Edit.run_lift_error]
      rw [grown]
      exact .of_checked fails records
    · obtain ⟨dataCapacity, grown, reached, room⟩ :=
        grownDataCapacity_of step regular.dataReached more (Nat.le_of_not_lt large)
      rw [grown]
      refine (records.enacts_widenTo wellFormed holds isHeader located (by omega) reached).congr ?_
      rw [← isHeader] at more grown reached
      exact holds.ensureData_eq more grown reached
  · rw [if_neg more]
    refine .of_read ?_ records
    simp only [ensureData, Edit.run_bind, holds.run_header, isHeader, if_neg more, Edit.run_pure]

theorem Records.enacts_reserveData (additional : Nat) :
    Enacts (Records key) site (reserveData key additional)
      ((Ledger.reserveData key additional).run ledger) := by
  obtain ⟨image, order, holds, isHeader, located⟩ := id records
  refine .read holds.run_header ?_
  simp only [Ledger.reserveData, Plan.run_bind, Plan.run_get, Plan.run_lift, Script.bind_ok,
    isHeader]
  exact .check records fun required _ => records.enacts_ensureData wellFormed required

end

end PackedStore.UntypedMap
