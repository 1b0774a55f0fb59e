/-
This file follows a sequence and its ledger side by side. Growth asks for the length
of a layout that the ledger knows and leaves the ledger as it was where the host
refuses; all other changes ask for nothing. So every operation asks its host for the
planned lengths, answers as planned, and leaves the planned ledger.
-/

import PackedStore.Proofs.UntypedSequence.Ledgers
import PackedStore.Proofs.UntypedSequence.Simulation

namespace PackedStore.UntypedSequence

open Store (Asks Enacts Quiet)

variable {Buffer : Type} [Host Buffer] {site : Site Buffer} {image : Image}
  {elements : List Datum} {ledger : Ledger}

/-! ### Operations that only write -/

theorem quiet_header : Quiet (header : Store Buffer Header) :=
  Quiet.bytes.bind fun _ => .lift _

theorem quiet_writeHeader (header : Header) : Quiet (writeHeader header : Store Buffer Unit) :=
  Quiet.bytes.bind fun _ => .write _

/-! ### More slots -/

/-- What growth does with a layout that exists. -/
def growInto (capacity : Nat) (image : Image) (new : Layout) : Store Buffer Unit := do
  Store.relocate (image.layout.moves new) new.total
  writeHeader { ← header with capacity := capacity }
  Store.report (.slotsGrow .untypedSequence image.header.capacity capacity)

theorem asks_growInto (capacity : Nat) (image : Image) (new : Layout) :
    Asks new.total (growInto capacity image new : Store Buffer Unit) :=
  (Asks.relocate _ _).bind fun _ => quiet_header.bind fun _ => (quiet_writeHeader _).bind fun _ =>
    .report _

/-- Growth moves to the layout of the new capacity, if there is one. -/
theorem Holds.grow_eq (holds : Holds site image elements) {capacity : Nat}
    (reached : IsCapacity image.header.log2MinGrowth capacity)
    (grows : image.header.capacity < capacity) :
    grow capacity site = (liftM (Layout.compute capacity image.header.dataCapacity) >>=
      growInto capacity image : Store Buffer Unit) site := by
  have old : Layout.ofHeader image.header = .ok image.layout :=
    recorded_eq_ok.mpr holds.represents.sound.computed
  have word := toWord32_of (show capacity < 2 ^ 32 by have := reached.lt_word; omega) .slotCapacity
  simp only [grow, growInto, Edit.run_bind, holds.run_header, require_of grows, Edit.run_lift_ok,
    word, old]

/-- Where there is a layout, the host has refused its length. -/
theorem Refuses.of_computed {capacity dataCapacity : Nat} {failure : Failure}
    (refuses : Refuses site capacity dataCapacity failure) {new : Layout}
    (computed : Layout.compute capacity dataCapacity = .ok new) :
    ∃ error, Host.resize site.buffer new.total = .error error ∧ failure = .storage error := by
  rcases refuses with failed | ⟨other, error, again, refused, rfl⟩
  · exact absurd (computed.symm.trans failed) (by simp)
  · obtain rfl := Except.ok.inj (computed.symm.trans again)
    exact ⟨error, refused, rfl⟩

/-! ### More arena -/

/-- What the growth of the arena does with a layout that exists. -/
def widenInto (dataCapacity : Nat) (image : Image) (new : Layout) : Store Buffer Unit := do
  Store.resize new.total
  writeHeader { ← header with dataCapacity := dataCapacity }
  Store.report (.arenaGrows .untypedSequence image.header.dataCapacity dataCapacity)

theorem asks_widenInto (dataCapacity : Nat) (image : Image) (new : Layout) :
    Asks new.total (widenInto dataCapacity image new : Store Buffer Unit) :=
  (Asks.resize _).bind fun _ => quiet_header.bind fun _ => (quiet_writeHeader _).bind fun _ =>
    .report _

/-- A larger arena needs the layout of its capacity. -/
theorem Holds.widen_eq (holds : Holds site image elements) {required dataCapacity : Nat}
    (needed : image.header.dataCapacity < required)
    (grown : grownDataCapacity image.header.dataCapacity required image.header.log2MinGrowth =
      .ok dataCapacity)
    (reached : IsCapacity image.header.log2MinGrowth dataCapacity) :
    ensureData required site = (liftM (Layout.compute image.header.capacity dataCapacity) >>=
      widenInto dataCapacity image : Store Buffer Unit) site := by
  have word :=
    toWord32_of (show dataCapacity < 2 ^ 32 by have := reached.lt_word; omega) .arenaCapacity
  simp only [ensureData, widenInto, Edit.run_bind, holds.run_header, if_pos needed, grown, word,
    Edit.run_lift_ok]

/-! ### Growth as planned -/

namespace Records

section

variable [LawfulHost Buffer] (records : Records site ledger)

include records

theorem enacts_grow {capacity : Nat} (reached : IsCapacity ledger.log2MinGrowth capacity)
    (grows : ledger.capacity < capacity) :
    Enacts Records site (grow capacity) ((Ledger.grow capacity).run ledger) := by
  obtain ⟨image, holds, isHeader⟩ := id records
  have slots : image.header.capacity = ledger.capacity := congrArg Header.capacity isHeader
  have data : image.header.dataCapacity = ledger.dataCapacity :=
    congrArg Header.dataCapacity isHeader
  have step : image.header.log2MinGrowth = ledger.log2MinGrowth :=
    congrArg Header.log2MinGrowth isHeader
  rw [← step] at reached
  rw [← slots] at grows
  refine Enacts.congr ?_ (holds.grow_eq reached grows)
  simp only [Ledger.grow, Plan.run_bind, Plan.run_get, Plan.run_lift, Script.bind_ok, ← data]
  refine .check records fun new computed => ?_
  simp only [Plan.run_bind, Plan.run_ask, Plan.run_set, Script.bind_asks, Script.bind_ok]
  have same : growInto capacity image new site = grow capacity site := by
    rw [holds.grow_eq reached grows, computed]
    rfl
  rcases holds.run_grow reached grows with
    ⟨failure, run, refuses⟩ | ⟨later, grown, run, holdsLater, headerLater, -⟩
  · obtain ⟨error, refused, rfl⟩ := refuses.of_computed computed
    refine .of_asks (asks_growInto capacity image new) records (fun other again => ?_)
      fun resized granted => absurd (refused.symm.trans granted) (by simp)
    obtain rfl := Except.error.inj (refused.symm.trans again)
    exact same.trans run
  · obtain ⟨resized, granted, -⟩ := asks_growInto capacity image new _ _ _ (same.trans run)
    refine .of_asks (asks_growInto capacity image new) records
      (fun other refused => absurd (granted.symm.trans refused) (by simp)) fun _ _ => ?_
    refine ⟨later, same.trans run, grown, holdsLater, ?_⟩
    rw [headerLater, isHeader]
    rfl

theorem enacts_setCapacity (capacity : Nat) :
    Enacts Records site (setCapacity capacity) ((Ledger.setCapacity capacity).run ledger) := by
  obtain ⟨image, holds, isHeader⟩ := id records
  refine .read holds.run_header ?_
  simp only [Ledger.setCapacity, Plan.run_bind, Plan.run_get, Script.bind_ok, isHeader,
    Ledger.header]
  by_cases enough : ledger.capacity < capacity
  · rw [if_pos enough, if_pos enough]
    refine .check records fun larger grown => ?_
    obtain ⟨reached, -, room⟩ := IsCapacity.of_grown grown
    exact records.enacts_grow reached (Nat.lt_of_lt_of_le enough room)
  · rw [if_neg enough, if_neg enough]
    exact .of_read rfl records

theorem enacts_makeRoom :
    Enacts Records site (makeRoom ledger.header) (Ledger.makeRoom.run ledger) := by
  have reached : IsCapacity ledger.log2MinGrowth ledger.capacity := records.regular.reached
  simp only [makeRoom, Ledger.makeRoom, Plan.run_bind, Plan.run_get, Script.bind_ok]
  by_cases full : ledger.elements.length = ledger.capacity
  · rw [if_pos full, if_pos (show ledger.header.count = ledger.header.capacity from full)]
    refine .check records fun larger grown => ?_
    simp only [Ledger.header, nextCapacity_eq reached (Nat.le_of_eq full)] at grown
    by_cases largest : ledger.capacity = maxCapacity
    · rw [if_pos largest] at grown
      exact absurd grown (by simp)
    · rw [if_neg largest] at grown
      obtain rfl := Except.ok.inj grown
      exact records.enacts_grow (reached.double largest) reached.lt_double
  · rw [if_neg full, if_neg (show ¬ ledger.header.count = ledger.header.capacity from full)]
    exact .of_read rfl records

theorem enacts_widen (holds : Holds site image ledger.elements)
    (isHeader : image.header = ledger.header) {required dataCapacity : Nat}
    (more : ledger.dataCapacity < required)
    (grown : grownDataCapacity ledger.dataCapacity required ledger.log2MinGrowth = .ok dataCapacity)
    (reached : IsCapacity ledger.log2MinGrowth dataCapacity) (room : required ≤ dataCapacity) :
    Enacts Records site (ensureData required) ((do
      let layout ← Layout.compute ledger.capacity dataCapacity
      Plan.ask layout.total
      set { ledger with dataCapacity } : Plan Ledger Unit).run ledger) := by
  have slots : image.header.capacity = ledger.capacity := congrArg Header.capacity isHeader
  have data : image.header.dataCapacity = ledger.dataCapacity :=
    congrArg Header.dataCapacity isHeader
  have step : image.header.log2MinGrowth = ledger.log2MinGrowth :=
    congrArg Header.log2MinGrowth isHeader
  rw [← data] at more grown
  rw [← step] at grown reached
  refine Enacts.congr ?_ (holds.widen_eq more grown reached)
  simp only [Plan.run_bind, Plan.run_lift, ← slots]
  refine .check records fun new computed => ?_
  simp only [Plan.run_bind, Plan.run_ask, Plan.run_set, Script.bind_asks, Script.bind_ok]
  have same : widenInto dataCapacity image new site = ensureData required site := by
    rw [holds.widen_eq more grown reached, computed]
    rfl
  rcases holds.run_widen more grown reached (by omega) with
    ⟨failure, run, refuses⟩ | ⟨later, wide, run, holdsLater, headerLater, -⟩
  · obtain ⟨error, refused, rfl⟩ := refuses.of_computed computed
    refine .of_asks (asks_widenInto dataCapacity image new) records (fun other again => ?_)
      fun resized granted => absurd (refused.symm.trans granted) (by simp)
    obtain rfl := Except.error.inj (refused.symm.trans again)
    exact same.trans run
  · obtain ⟨resized, granted, -⟩ := asks_widenInto dataCapacity image new _ _ _ (same.trans run)
    refine .of_asks (asks_widenInto dataCapacity image new) records
      (fun other refused => absurd (granted.symm.trans refused) (by simp)) fun _ _ => ?_
    refine ⟨later, same.trans run, wide, holdsLater, ?_⟩
    rw [headerLater, isHeader]
    rfl

theorem enacts_ensureData (required : Nat) :
    Enacts Records site (ensureData required) ((Ledger.ensureData required).run ledger) := by
  obtain ⟨image, holds, isHeader⟩ := id records
  have reached : IsArenaCapacity ledger.log2MinGrowth ledger.dataCapacity :=
    records.regular.dataReached
  have step : ledger.log2MinGrowth ≤ 29 := records.regular.reached.le_log2
  have runHeader : header site = .ok ledger.header site := by rw [← isHeader]; exact holds.run_header
  simp only [Ledger.ensureData, Plan.run_bind, Plan.run_get, Script.bind_ok]
  by_cases more : ledger.dataCapacity < required
  · rw [if_pos more]
    by_cases large : maxCapacity < required
    · have grown := grownDataCapacity_eq_error step reached more large
      have fails : ensureData required site =
          (liftM (.error (.overflow .arenaCapacity) : Checked Unit) : Store Buffer Unit) site := by
        simp only [ensureData, Edit.run_bind, runHeader, Ledger.header, if_pos more, grown,
          Edit.run_lift_error]
      rw [grown]
      exact .of_checked fails records
    · obtain ⟨dataCapacity, grown, reachedMore, room⟩ :=
        grownDataCapacity_of step reached more (Nat.le_of_not_lt large)
      rw [grown]
      exact records.enacts_widen holds isHeader more grown reachedMore room
  · rw [if_neg more]
    refine .of_read ?_ records
    simp only [ensureData, Edit.run_bind, runHeader, Ledger.header, if_neg more, Edit.run_pure]

/-! ### Adding -/

theorem enacts_fillSlot {datum : Datum} (storable : Storable datum.type)
    (below : ledger.elements.length < ledger.capacity) :
    Enacts Records site (fillSlot datum (startFrom (packedFrom 0 ledger.elements) datum)
        (packedFrom 0 (ledger.elements ++ [datum])))
      ((Ledger.fillSlot datum (packedFrom 0 (ledger.elements ++ [datum]))).run ledger) := by
  simp only [Ledger.fillSlot, Plan.run_bind]
  refine (records.enacts_ensureData _).bind fun _ wide later ends stands => ?_
  obtain ⟨rfl, fits⟩ := Ledger.granted_ensureData records.regular ends
  obtain ⟨image, holds, isHeader⟩ := stands
  have slots : image.header.capacity = ledger.capacity := congrArg Header.capacity isHeader
  have room : packedFrom 0 (ledger.elements ++ [datum]) ≤ image.header.dataCapacity := by
    rw [isHeader]
    exact fits
  obtain ⟨changed, runPlace, layout, represents, step⟩ :=
    holds.represents.place_spec (by rw [slots]; exact below) storable room
  obtain ⟨last, runEdit, holdsLast, -⟩ := holds.run_edit runPlace layout represents
  exact .of_ok (.edit _ _) runEdit (of_changed holds isHeader holdsLast layout step)

theorem enacts_add {datum : Datum} (power : ∃ exponent, datum.type.align = 2 ^ exponent) :
    Enacts Records site (add datum) ((Ledger.add datum).run ledger) := by
  obtain ⟨image, holds, isHeader⟩ := id records
  have near : packedFrom 0 ledger.elements < 2 ^ 32 :=
    Nat.lt_of_le_of_lt holds.represents.packed_le_max (by decide)
  have ends : packedFrom 0 (ledger.elements ++ [datum]) =
      stopFrom (packedFrom 0 ledger.elements) datum := by
    rw [packedFrom_append, packedFrom_cons, packedFrom_nil]
  rw [add_eq]
  simp only [Ledger.add, Plan.run_bind, Plan.run_lift]
  refine .check records fun _ checked => .read holds.run_header ?_
  have storable := storable_of power checked
  rw [isHeader]
  simp only [Plan.run_bind, Plan.run_get, Plan.run_lift, Script.bind_ok]
  refine .check records fun place placed => ?_
  obtain ⟨-, rfl⟩ := (placeBehind_eq_ok storable near).mp placed
  refine records.enacts_makeRoom.bind fun _ roomy later made stands => ?_
  obtain ⟨rfl, -, below⟩ := Ledger.granted_makeRoom records.regular made
  have filled := stands.enacts_fillSlot storable below
  rw [show packedFrom 0 (ledger.roomy.elements ++ [datum]) = _ from ends] at filled
  exact filled

/-! ### Writing and removing -/

omit [LawfulHost Buffer] in
/-- An operation on an element fails as planned if there is none with the index. -/
theorem enacts_at {α : Type} {index : Nat} {operation : Store Buffer α}
    {rest : Datum → Ledger → Script Ledger α}
    (enacts : ∀ datum, ledger.elements[index]? = some datum →
      Enacts Records site operation (rest datum ledger)) :
    Enacts Records site
      (do
        demandIndex index
        operation)
      ((Script.ends (Elements.element ledger.elements index) ledger).bind rest) := by
  obtain ⟨image, holds, -⟩ := id records
  have count := holds.represents.count
  cases there : ledger.elements[index]? with
  | none =>
    have outside := Nat.not_lt_of_le (List.getElem?_eq_none_iff.mp there)
    rw [Elements.element_of_none there]
    refine .of_checked ?_ records
    simp only [demandIndex, Edit.run_bind, holds.run_header, count, demand_of_not outside,
      Edit.run_lift_error]
  | some datum =>
    have inside := (List.getElem?_eq_some_iff.mp there).1
    have found : demandIndex index site = .ok () site := by
      simp only [demandIndex, Edit.run_bind, holds.run_header, count, demand_of inside,
        Edit.run_lift_ok]
    rw [Elements.element_of there]
    exact .read found (enacts datum there)

theorem enacts_exchange (index : Nat) (datum : Datum) :
    Enacts Records site (exchange index datum) ((Ledger.exchange index datum).run ledger) := by
  obtain ⟨image, holds, isHeader⟩ := id records
  have planned : (Ledger.exchange index datum).run ledger =
      (Script.ends (Elements.element ledger.elements index) ledger).bind fun _ _ =>
        (Ledger.exchange index datum).run ledger := by
    simp only [Ledger.exchange, Plan.run_bind, Plan.run_get, Plan.run_lift, Script.bind_ok]
    cases found : Elements.element ledger.elements index with
    | error failure =>
      rw [Elements.access, found, Checked.bind_error, Script.bind_error, Script.bind_error]
    | ok datum => rfl
  rw [planned]
  refine records.enacts_at fun old there => ?_
  simp only [Ledger.exchange, Plan.run_bind, Plan.run_get, Plan.run_lift, Script.bind_ok]
  rcases holds.represents.replacement_spec there datum with
    ⟨failure, accessed, run⟩ | ⟨content, changed, accessed, run, layout, represents, step⟩
  · obtain ⟨later, runEdit, same, -⟩ := holds.run_edit_failed run
    rw [accessed]
    exact .of_error (.edit _ _) runEdit (records.of_bytes same)
  · obtain ⟨later, runEdit, holdsLater, -⟩ := holds.run_edit run layout represents
    rw [accessed]
    exact .of_ok (.edit _ _) runEdit (of_changed holds isHeader holdsLater layout step)

theorem enacts_removeAt (index : Nat) :
    Enacts Records site (removeAt index) ((Ledger.removeAt index).run ledger) := by
  obtain ⟨image, holds, isHeader⟩ := id records
  simp only [Ledger.removeAt, Plan.run_bind, Plan.run_get, Plan.run_lift, Script.bind_ok]
  refine records.enacts_at fun datum there => ?_
  obtain ⟨inside, -⟩ := List.getElem?_eq_some_iff.mp there
  obtain ⟨changed, run, layout, represents, step⟩ := holds.represents.removal_spec inside
  obtain ⟨later, runEdit, holdsLater, -⟩ := holds.run_edit run layout represents
  unfold removal at runEdit
  have edited := Enacts.of_ok (.edit _ _) runEdit (of_changed holds isHeader holdsLater layout step)
  exact edited.bind fun _ changed last _ stands =>
    .of_ok (.report _) (Store.run_report _) (stands.of_bytes rfl)

theorem enacts_clear : Enacts Records site clear (Ledger.clear.run ledger) := by
  obtain ⟨image, holds, isHeader⟩ := id records
  have cleared := holds.represents.regular.cleared
  obtain ⟨later, run, -, size, loaded, -⟩ :=
    run_writeHeader cleared.fits holds.represents.sound.computed holds.size_eq
  refine .read holds.run_header (.of_ok (quiet_writeHeader _) run ⟨_, ⟨loaded, size,
    (Image.sound_of_load loaded).represents_nil cleared rfl rfl⟩, ?_⟩)
  show { image.header with count := 0, dataAllocated := 0 } = _
  rw [isHeader]
  rfl

/-! ### Any operation -/

/-- Every operation does what is planned. -/
theorem enacts {operation : Operation} (fits : operation.Fits ElementType.WellFormed) :
    Enacts Records site operation.run (operation.plan.run ledger) := by
  obtain ⟨image, holds, isHeader⟩ := id records
  cases operation with
  | add datum => exact (records.enacts_add fits.align_eq).map _
  | exchange index datum => exact (records.enacts_exchange index datum).map _
  | removeAt index => exact (records.enacts_removeAt index).map _
  | setCapacity capacity => exact (records.enacts_setCapacity capacity).map _
  | clear => exact records.enacts_clear.map _
  | elementAt index type =>
    exact (Enacts.of_checked (holds.run_elementAt index type) records).map _
  | bytesAt index => exact (Enacts.of_checked (holds.run_bytesAt index) records).map _
  | tagAt index => exact (Enacts.of_checked (holds.run_tagAt index) records).map _
  | sizeAt index => exact (Enacts.of_checked (holds.run_sizeAt index) records).map _
  | count =>
    exact .of_read (by rw [Operation.run, Edit.run_map, holds.run_header, isHeader]; rfl) records

end

end Records

end PackedStore.UntypedSequence
