/-
This file puts together what the operations on a map do to its ledger. Whatever an
operation is asked, the site has the planned ledger afterwards, and the operation
has asked its host for the planned lengths and answered as planned.
-/

import PackedStore.Proofs.UntypedMap.LedgerReplacing

namespace PackedStore.UntypedMap

open Store (Asks Enacts Quiet)

variable {Buffer : Type} [Host Buffer] {key : KeyType} {site : Site Buffer} {ledger : Ledger}

/-- The payload of a value of a well-formed type that can be stored. -/
theorem fits_of_storable {datum : Datum} (wellFormed : datum.type.WellFormed)
    (storable : demandStorable datum.type = .ok ()) : datum.payload.Fits fun _ => False where
  supported := by
    obtain ⟨_, aligned, -⟩ := Checked.bind_eq_ok.mp storable
    exact wellFormed.isAlign (demand_eq_ok.mp aligned)
  covers _ isKnown := isKnown.elim

theorem fits_raw (tag : TypeTag) (content : Bytes) :
    (Payload.raw tag content).Fits fun _ => False where
  supported := isAlign_erasedAlign content.size
  covers _ isKnown := isKnown.elim

/-! ### Storing by key -/

namespace Records

section

variable [LawfulHost Buffer] (wellFormed : key.toElementType.WellFormed)
  (records : Records key site ledger)

include wellFormed records

section

variable {entryKey : Bytes} (isKey : key.Fits entryKey) {payload : Payload}
  (fits : payload.Fits fun _ => False)

include isKey fits

theorem enacts_insertUnique :
    Enacts (Records key) site (insertUnique key entryKey payload)
      ((Ledger.insertUnique key entryKey payload).run ledger) := by
  obtain ⟨image, order, holds, -, -⟩ := id records
  refine .read (holds.run_contains entryKey) ?_
  simp only [Ledger.insertUnique, Plan.run_bind, Plan.run_get, Plan.run_lift, Script.bind_ok]
  have same : demand ((Entries.find ledger.entries entryKey).isSome = false) .duplicateKey =
      demand (Entries.find ledger.entries entryKey = none) .duplicateKey := by
    cases Entries.find ledger.entries entryKey <;> rfl
  rw [same]
  refine .check records fun _ absent => ?_
  exact records.enacts_insertNew wellFormed isKey (demand_eq_ok.mp absent) fits

theorem enacts_store :
    Enacts (Records key) site (store key entryKey payload)
      ((Ledger.store key entryKey payload).run ledger) := by
  obtain ⟨image, order, holds, -, -⟩ := id records
  refine .read (holds.run_find entryKey) ?_
  simp only [Ledger.store, Plan.run_bind, Plan.run_get, Script.bind_ok]
  cases found : Entries.find ledger.entries entryKey with
  | some slot =>
    obtain ⟨old, there⟩ := Entries.exists_stored found
    exact records.enacts_replace wellFormed there fits
  | none =>
    exact (records.enacts_insertNew wellFormed isKey found fits).map fun _ => ()

end

omit [LawfulHost Buffer] wellFormed in
theorem enacts_readSlot {slot : Nat} {value : Value}
    (there : Entries.stored ledger.entries slot = some value) (type : ElementType) :
    Enacts (Records key) site (Store.view (format key.toElementType) (readSlot slot type))
      (.ends (ledger.read slot type) ledger) := by
  obtain ⟨image, order, holds, -, located⟩ := id records
  refine .of_checked ?_ records
  simp only [Store.view, Edit.run_bind, Store.run_bytes, format, holds.loaded, Edit.run_lift_ok,
    holds.readSlot_eq located there type]

/-- What has been added is read in the end. -/
theorem enacts_getOrAdd {entryKey : Bytes} (isKey : key.Fits entryKey) {default : Datum}
    (fits : default.payload.Fits fun _ => False) :
    Enacts (Records key) site
      (do
        let slot ← match ← find key entryKey with
          | some slot => pure slot
          | none => insertNew key entryKey default.payload
        Store.view (format key.toElementType) (readSlot slot default.type))
      ((Ledger.getOrAdd key entryKey default).run ledger) := by
  obtain ⟨image, order, holds, -, -⟩ := id records
  refine .read (holds.run_find entryKey) ?_
  simp only [Ledger.getOrAdd, Plan.run_bind, Plan.run_get, Script.bind_ok]
  cases found : Entries.find ledger.entries entryKey with
  | some slot =>
    obtain ⟨value, there⟩ := Entries.exists_stored found
    exact records.enacts_readSlot there default.type
  | none =>
    refine (records.enacts_insertNew wellFormed isKey found fits).bind ?_
    intro slot changed later ends stands
    obtain ⟨rfl, place, -, rfl⟩ := Ledger.granted_insertNew records.regular ends
    exact stands.enacts_readSlot (Ledger.stored_push ⟨_, _, _⟩ entryKey _ place) default.type

/-! ### Other operations by key -/

theorem enacts_exchange (wanted : Bytes) (datum : Datum) :
    Enacts (Records key) site (exchange key wanted datum)
      ((Ledger.exchange wanted datum).run ledger) := by
  obtain ⟨image, order, holds, -, -⟩ := id records
  refine .read (holds.run_find wanted) ?_
  simp only [Ledger.exchange, Plan.run_bind, Plan.run_get, Script.bind_ok]
  cases found : Entries.find ledger.entries wanted with
  | some slot =>
    obtain ⟨old, there⟩ := Entries.exists_stored found
    exact records.enacts_exchangeSlot wellFormed there datum
  | none => exact .of_read rfl records

omit [LawfulHost Buffer] wellFormed in
theorem enacts_get? (wanted : Bytes) (type : ElementType) :
    Enacts (Records key) site (get? key wanted type) ((Ledger.get? wanted type).run ledger) := by
  obtain ⟨image, order, holds, -, located⟩ := id records
  have run : get? key wanted type site = ((do
      (← find key wanted).elim (pure none) fun slot =>
        some <$> Store.view (format key.toElementType) (readSlot slot type) :
        Store Buffer (Option Bytes)) site) := by
    simp only [get?, find, Store.view, Edit.run_bind, Store.run_bytes, format, holds.loaded,
      Edit.run_lift_ok, holds.represents.find_eq, Checked.bind_ok]
    cases Entries.find ledger.entries wanted with
    | none => rfl
    | some slot =>
      simp only [Option.elim_some, Edit.run_map, Edit.run_bind, Store.run_bytes, holds.loaded,
        Edit.run_lift_ok]
      cases readSlot slot type image <;> rfl
  refine Enacts.congr (.read (holds.run_find wanted) ?_) run
  simp only [Ledger.get?, Plan.run_bind, Plan.run_get, Script.bind_ok]
  cases found : Entries.find ledger.entries wanted with
  | some slot =>
    obtain ⟨value, there⟩ := Entries.exists_stored found
    exact (records.enacts_readSlot there type).map some
  | none => exact .of_read rfl records

theorem enacts_clear : Enacts (Records key) site (clear key) (Ledger.clear.run ledger) := by
  obtain ⟨image, order, holds, isHeader, -⟩ := records
  obtain ⟨changed, ran, layout, headerChanged, represents⟩ :=
    @clear_spec (fun _ => False) key image holds.represents.sound holds.represents.framed.header
  obtain ⟨later, run, holdsLater, -⟩ :=
    run_edit wellFormed holds.loaded holds.size_eq ran layout represents
  refine .of_ok (.edit _ _) run ⟨changed, _, holdsLater, ?_, changed.located_nil⟩
  rw [headerChanged, isHeader]

end

/-- Every operation does what is planned. -/
theorem enacts [LawfulHost Buffer] (wellFormed : key.toElementType.WellFormed)
    (records : Records key site ledger) {operation : Operation}
    (fits : operation.Fits ElementType.WellFormed key) :
    Enacts (Records key) site (operation.run key) ((operation.plan key).run ledger) := by
  obtain ⟨image, order, holds, isHeader, located⟩ := id records
  cases operation with
  | add entryKey datum =>
    exact (Enacts.check records fun _ storable =>
      records.enacts_insertUnique wellFormed fits.1 (fits_of_storable fits.2 storable)).map _
  | addBytes entryKey tag content =>
    exact (Enacts.check records fun _ _ =>
      records.enacts_insertUnique wellFormed fits (fits_raw tag content)).map _
  | addOrSet entryKey datum =>
    exact (Enacts.check records fun _ storable =>
      records.enacts_store wellFormed fits.1 (fits_of_storable fits.2 storable)).map _
  | addOrSetBytes entryKey tag content =>
    exact (Enacts.check records fun _ _ =>
      records.enacts_store wellFormed fits (fits_raw tag content)).map _
  | getOrAdd entryKey default =>
    exact (Enacts.check records fun _ storable =>
      records.enacts_getOrAdd wellFormed fits.1 (fits_of_storable fits.2 storable)).map _
  | exchange wanted datum => exact (records.enacts_exchange wellFormed wanted datum).map _
  | setCapacity capacity => exact (records.enacts_setCapacity wellFormed capacity).map _
  | reserveData additional => exact (records.enacts_reserveData wellFormed additional).map _
  | clear => exact (records.enacts_clear wellFormed).map _
  | get wanted type => exact (records.enacts_get? wanted type).map _
  | getBytes wanted =>
    exact .of_read (by rw [Operation.run, Edit.run_map, holds.run_getBytes?]) records
  | find wanted => exact .of_read (by rw [Operation.run, Edit.run_map, holds.run_find]) records
  | contains wanted =>
    exact .of_read (by rw [Operation.run, Edit.run_map, holds.run_contains]) records
  | keys => exact .of_read (by rw [Operation.run, Edit.run_map, holds.run_keys]) records
  | count =>
    exact .of_read (by rw [Operation.run, Edit.run_map, holds.run_header, isHeader]) records

end Records

end PackedStore.UntypedMap
