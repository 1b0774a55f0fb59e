/-
This file says what the operations by key do to the entries of a site: each one
does what the same operation does to the list of entries, whether the key is there
or not, or is refused for want of room. Typed accesses never fail on the place of
a value, because the places suit the types that the values can be read as.
-/

import PackedStore.Proofs.UntypedMap.Storing

namespace PackedStore.UntypedMap

variable {Buffer α : Type} [Host Buffer] {known : ElementType → Prop} {key : KeyType}
  {site : Site Buffer} {image : Image} {entries : List Entry} {order : Nat → List Nat}

/-! ### Storing by key -/

/-- There is room for a value of a key that is not there. -/
def Image.AddRoom (key : KeyType) (image : Image) (entryKey : Bytes) (payload : Payload) : Prop :=
  image.chains.find key.hash entryKey = .ok none → image.InsertRoom payload

/-- There is room for a value of a key, whether it is there or not. -/
def Image.StoreRoom (key : KeyType) (image : Image) (entryKey : Bytes) (payload : Payload) :
    Prop :=
  image.AddRoom key entryKey payload ∧
    ∀ slot, image.chains.find key.hash entryKey = .ok (some slot) → image.ReplaceRoom slot payload

/-- How a value is written over the one of a slot through a typed access. -/
def exchangeSlot (slot : Nat) (datum : Datum) : Edit Image (Option Bytes) := do
  let old ← readSlot slot datum.type (← get)
  onCells (ValueCells.overwrite slot datum.bytes)
  return some old

theorem run_exchangeSlot {slot : Nat} {datum : Datum} {content : Bytes} {cells : ValueCells}
    (read : readSlot slot datum.type image = .ok content)
    (written : ValueCells.overwrite slot datum.bytes image.cells = .ok () cells) :
    exchangeSlot slot datum image = .ok (some content) { image with cells } := by
  simp only [exchangeSlot, Edit.run_bind, Edit.run_get, read, Edit.run_lift_ok,
    run_onCells written, Edit.run_pure]

theorem run_exchangeSlot_error {slot : Nat} {datum : Datum} {failure : Failure}
    (read : readSlot slot datum.type image = .error failure) :
    exchangeSlot slot datum image = .error failure image := by
  simp only [exchangeSlot, Edit.run_bind, Edit.run_get, read, Edit.run_lift_error]

namespace Holds

variable [LawfulHost Buffer] (wellFormed : key.toElementType.WellFormed)
  (holds : Holds known key site image entries order)

include wellFormed holds

theorem run_insertUnique {entryKey : Bytes} (isKey : key.Fits entryKey)
    {payload : Payload} (fits : payload.Fits known) :
    Performs known key site entries (image.AddRoom key entryKey payload)
      (insertUnique key entryKey payload) (Entries.insertUnique entries entryKey payload) := by
  by_cases absent : Entries.find entries entryKey = none
  · have expects : Entries.insertUnique entries entryKey payload =
        Entries.insert entries entryKey payload := by
      rw [Entries.insertUnique, demand_of absent]
      rfl
    rw [expects]
    have vacant : (Entries.find entries entryKey).isSome = false := by
      rw [absent]
      rfl
    refine ((holds.run_insertNew wellFormed isKey absent fits).weaken fun room =>
      room ((holds.represents.find_eq entryKey).trans (congrArg Except.ok absent))).congr ?_
    simp only [insertUnique, Edit.run_bind, holds.run_contains, demand_of vacant, Edit.run_lift_ok]
  · have present : ¬ (Entries.find entries entryKey).isSome = false := fun isNone =>
      absent (Option.not_isSome_iff_eq_none.mp (by simp [isNone]))
    refine .failed ?_ (by rw [Entries.insertUnique, demand_of_not absent]; rfl) holds.follows
    simp only [insertUnique, Edit.run_bind, holds.run_contains, demand_of_not present,
      Edit.run_lift_error]

theorem run_store {entryKey : Bytes} (isKey : key.Fits entryKey) {payload : Payload}
    (fits : payload.Fits known) :
    Performs known key site entries (image.StoreRoom key entryKey payload)
      (store key entryKey payload) (Entries.store entries entryKey payload) := by
  have searched := holds.represents.find_eq entryKey
  unfold Entries.store
  cases found : Entries.find entries entryKey with
  | some slot =>
    obtain ⟨old, there⟩ := Entries.exists_stored found
    refine ((holds.run_replace wellFormed there fits).weaken fun room =>
      room.2 slot (searched.trans (congrArg Except.ok found))).congr ?_
    simp only [store, Edit.run_bind, holds.run_find, found]
  | none =>
    refine (((holds.run_insertNew wellFormed isKey found fits).map fun _ => ()).weaken fun room =>
      room.1 (searched.trans (congrArg Except.ok found))).congr ?_
    simp only [store, Edit.run_bind, holds.run_find, found]
    rfl

/-! ### Reading what was there or has been added -/

/-- A value that has been inserted can be read back. -/
theorem run_readInserted (types : AlignedTypes known) {entryKey : Bytes}
    (isKey : key.Fits entryKey) (absent : Entries.find entries entryKey = none)
    {default : Datum} (isKnown : known default.type) {slot : Nat} {later : Site Buffer}
    (inserted : insertNew key entryKey default.payload site = .ok slot later) :
    Store.view (format key.toElementType) (readSlot slot default.type) later =
      .ok default.bytes later := by
  cases holds.run_insertNew wellFormed isKey absent (types.fits_payload isKnown) with
  | answered run same follows =>
    obtain ⟨rfl, rfl⟩ := EStateM.Result.ok.inj (inserted.symm.trans run)
    obtain ⟨image', order', holdsLater⟩ := follows.stands
    obtain ⟨-, rfl, rfl⟩ := Entries.insert_eq_ok.mp same
    have there : Entries.stored (entries ++ [⟨entryKey, default.payload.value⟩]) entries.length =
        some default.payload.value := by
      rw [Entries.stored_concat, Function.update_self]
    rw [holdsLater.run_readSlot there isKnown (types.isAlign isKnown).pos,
      Entries.read_of_stored there, default.readAs_value, Edit.run_lift_ok]
  | failed run => exact absurd (inserted.symm.trans run) (by simp)
  | refused run => exact absurd (inserted.symm.trans run) (by simp)

/-- A value that has been added is the answer. -/
theorem performs_insertAndRead (types : AlignedTypes known) {entryKey : Bytes}
    (isKey : key.Fits entryKey) (absent : Entries.find entries entryKey = none)
    {default : Datum} (isKnown : known default.type) :
    Performs known key site entries (image.InsertRoom default.payload)
      (do
        let slot ← insertNew key entryKey default.payload
        Store.view (format key.toElementType) (readSlot slot default.type))
      (Prod.map (fun _ => default.bytes) id <$>
        Entries.insert entries entryKey default.payload) := by
  cases holds.run_insertNew wellFormed isKey absent (types.fits_payload isKnown) with
  | answered inserted same follows =>
    refine .answered ?_ (by rw [same]; rfl) follows
    rw [Edit.run_bind, inserted]
    exact holds.run_readInserted wellFormed types isKey absent isKnown inserted
  | failed inserted same follows =>
    exact .failed (by rw [Edit.run_bind, inserted]) (by rw [same]; rfl) follows
  | refused inserted follows storage cause =>
    exact .refused (by rw [Edit.run_bind, inserted]) follows storage cause

/-- The value of a key is read, or added first. -/
theorem run_getOrAdd (types : AlignedTypes known) {entryKey : Bytes}
    (isKey : key.Fits entryKey) {default : Datum} (isKnown : known default.type) :
    Performs known key site entries (image.AddRoom key entryKey default.payload)
      (getOrAdd key entryKey default) (do
        demandStorable default.type
        Entries.getOrAdd entries entryKey default) := by
  refine Store.Performs.guard holds.carries fun _ => ?_
  unfold Entries.getOrAdd
  cases found : Entries.find entries entryKey with
  | some slot =>
    obtain ⟨value, there⟩ := Entries.exists_stored found
    refine (Store.Performs.of_checked holds.carries
      (holds.run_readSlot there isKnown (types.isAlign isKnown).pos)).congr ?_
    simp only [Edit.run_bind, holds.run_find, found, Edit.run_pure]
  | none =>
    refine ((holds.performs_insertAndRead wellFormed types isKey found isKnown).weaken fun room =>
      room ((holds.represents.find_eq entryKey).trans (congrArg Except.ok found))).congr ?_
    simp only [Edit.run_bind, holds.run_find, found]

/-! ### Writing through a typed access -/

/-- An edit that fails before it changes anything changes no byte. -/
theorem run_edit_unchanged {change : Edit Image α} {failure : Failure}
    (run : change image = .error failure image) :
    ∃ later, Store.edit (format key.toElementType) change site = .error failure later ∧
      later.bytes = site.bytes ∧ site.Continues later := by
  have saved : Image.save key.toElementType image site.bytes = site.bytes :=
    Image.save_of_load wellFormed holds.loaded
  have edited := @Store.run_edit_error _ _ _ _ site (format key.toElementType) image holds.loaded
    change failure image run
  rw [format_save, saved] at edited
  exact ⟨_, edited, Site.bytes_put rfl, Site.Continues.put site _⟩

/-- A value of its type replaces the value of a slot, and the old one is the answer. -/
theorem performs_exchangeSlot (types : AlignedTypes known) {slot : Nat} {old : Value}
    (there : Entries.stored entries slot = some old) {datum : Datum} (isKnown : known datum.type)
    {Hinders : Site Buffer → Failure → Prop} :
    Store.Performs (Carries known key) Hinders site entries True
      (Store.edit (format key.toElementType) (exchangeSlot slot datum))
      (do
        let old ← Entries.read entries slot datum.type
        return (some old, Entries.put entries slot datum.payload.value)) := by
  have read := holds.represents.readSlot_eq there isKnown (types.isAlign isKnown).pos
  rw [Entries.read_of_stored there] at read ⊢
  by_cases same : old.tag = datum.type.tag ∧ old.bytes.size = datum.type.size
  · rw [Value.readAs_of same] at read ⊢
    obtain ⟨cells, written, represents⟩ :=
      holds.represents.overwrite_typed there types isKnown same
    obtain ⟨later, runEdit, holdsLater, continues⟩ :=
      run_edit wellFormed holds.loaded holds.size_eq (run_exchangeSlot read written) rfl represents
    exact .answered runEdit rfl ⟨continues, _, order, holdsLater⟩
  · rw [Value.readAs_of_not same] at read ⊢
    obtain ⟨later, runEdit, same, continues⟩ :=
      holds.run_edit_unchanged wellFormed (run_exchangeSlot_error read)
    exact .failed runEdit rfl ⟨continues, image, order, holds.of_bytes same⟩

/-- The value of a key is replaced by another one of its type, and the old one is the answer.
Nothing can hinder that. -/
theorem run_exchange (types : AlignedTypes known) {wanted : Bytes} {datum : Datum}
    (isKnown : known datum.type) {Hinders : Site Buffer → Failure → Prop} :
    Store.Performs (Carries known key) Hinders site entries True (exchange key wanted datum)
      (Entries.exchange entries wanted datum) := by
  unfold Entries.exchange
  cases found : Entries.find entries wanted with
  | none =>
    refine .answered ?_ rfl holds.follows
    simp only [exchange, Edit.run_bind, holds.run_find, found, Edit.run_pure]
  | some slot =>
    obtain ⟨old, there⟩ := Entries.exists_stored found
    refine (holds.performs_exchangeSlot wellFormed types there isKnown).congr ?_
    simp only [exchange, Edit.run_bind, holds.run_find, found, exchangeSlot]

end Holds

end PackedStore.UntypedMap
