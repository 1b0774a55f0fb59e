/-
This file says what an operation on an untyped map leaves when it fails. Everything
is checked before anything grows, and everything has grown before anything is
written; the arena grows last. So the block is what it was, to the last byte, unless
a new key found all slots in use: then the slots may have grown when the arena could
not, and the map holds the same entries in more slots.
-/

import PackedStore.Proofs.UntypedMap.LedgerReplies

namespace PackedStore.UntypedMap

/-- The operation inserts the key if it is not there. -/
def Operation.Inserts (key : Bytes) : Operation → Prop
  | add entryKey _ | addBytes entryKey _ _ | addOrSet entryKey _ | addOrSetBytes entryKey _ _ =>
    entryKey = key
  | getOrAdd entryKey _ => entryKey = key
  | _ => False

variable {Buffer α : Type} [Host Buffer] {known : ElementType → Prop} {key : KeyType}
  {site later : Site Buffer} {image : Image} {entries : List Entry} {order : Nat → List Nat}

/-! ### Half insertions -/

/-- All slots were in use and have grown for a key that is not there. Then the arena could not grow
for its value. -/
structure HalfInserted (key : KeyType) (entryKey : Bytes) (site : Site Buffer) (failure : Failure)
    (later : Site Buffer) : Prop where
  absent : find key entryKey site = .ok none site
  grew : ∃ before capacity, header site = .ok before site ∧ before.count = before.capacity ∧
    nextCapacity before.count before.capacity before.log2MinGrowth = .ok capacity ∧
    grow key capacity site = .ok () later
  refused : ∃ required, ensureData key required later = .error failure later
  storage : failure.IsStorage

/-- What a failed operation leaves. -/
def Remains (key : KeyType) (operation : Operation) (site : Site Buffer) (failure : Failure)
    (later : Site Buffer) : Prop :=
  later.bytes = site.bytes ∨
    ∃ entryKey, operation.Inserts entryKey ∧ HalfInserted key entryKey site failure later

theorem Remains.of_untouched {operation : Operation} (failure : Failure) (later : Site Buffer)
    (same : later = site) : Remains key operation site failure later :=
  Or.inl (congrArg Site.bytes same)

theorem Remains.of_insertion {operation : Operation} {entryKey : Bytes}
    (inserts : operation.Inserts entryKey) (failure : Failure) (later : Site Buffer)
    (either : later = site ∨ HalfInserted key entryKey site failure later) :
    Remains key operation site failure later :=
  either.imp (congrArg Site.bytes) fun half => ⟨entryKey, inserts, half⟩

/-- A value that can be read as a type has the size of the type. -/
theorem Represents.size_of_readSlot (represents : Represents known key image entries order)
    {slot : Nat} {old : Value} (there : Entries.stored entries slot = some old)
    {type : ElementType} {content : Bytes} (read : readSlot slot type image = .ok content) :
    old.bytes.size = type.size := by
  rw [readSlot, fetch_of (represents.described.tags slot old there), Checked.bind_ok,
    fetch_of (represents.described.sizes slot old there), Checked.bind_ok] at read
  obtain ⟨_, matching, -⟩ := Checked.bind_eq_ok.mp read
  exact (demand_eq_ok.mp matching).2

namespace Holds

variable [LawfulHost Buffer] (wellFormed : key.toElementType.WellFormed)
  (holds : Holds known key site image entries order)

include holds

omit [LawfulHost Buffer] in
/-- Room for one more slot is there already, or the slots grow. -/
theorem grew_of_makeRoom (made : makeRoom key image.header site = .ok () later) :
    later = site ∨ ∃ before capacity, header site = .ok before site ∧
      before.count = before.capacity ∧
      nextCapacity before.count before.capacity before.log2MinGrowth = .ok capacity ∧
      grow key capacity site = .ok () later := by
  unfold makeRoom at made
  by_cases full : image.header.count = image.header.capacity
  · rw [if_pos full] at made
    obtain ⟨capacity, next, grew⟩ := Edit.lift_bind_eq_ok.mp made
    exact Or.inr ⟨image.header, capacity, holds.run_header, full, next, grew⟩
  · rw [if_neg full, Edit.run_pure] at made
    exact Or.inl (EStateM.Result.ok.inj made).2.symm

include wellFormed

/-- A failed insertion leaves the site as it was, or half an insertion. -/
theorem leaves_insertNew {entryKey : Bytes} (isKey : key.Fits entryKey)
    (absent : Entries.find entries entryKey = none) {payload : Payload}
    (fits : payload.Fits known) :
    Store.Leaves (fun failure later => later = site ∨ HalfInserted key entryKey site failure later)
      site (insertNew key entryKey payload) := by
  rw [insertNew_eq]
  refine .check (fun _ _ => Or.inl rfl) fun _ size => .read holds.run_header ?_
  rcases holds.run_makeRoom wellFormed with
    ⟨failure, refused, -, -⟩ | ⟨roomy, larger, relinked, made, holdsRoomy, below, -, -⟩
  · exact .of_error (by rw [Edit.run_bind, refused]) (Or.inl rfl)
  · refine .bind (.of_ok made) fun _ middle ran => ?_
    obtain ⟨-, rfl⟩ := EStateM.Result.ok.inj (made.symm.trans ran)
    rcases holdsRoomy.run_fillSlot wellFormed isKey absent fits (demand_eq_ok.mp size) below with
      ⟨failure, refused, storage, short, -⟩ | ⟨later, filled, -⟩
    · refine .of_error refused ((holds.grew_of_makeRoom made).imp id fun grew => ?_)
      exact ⟨by rw [holds.run_find, absent], grew, short, storage⟩
    · exact .of_ok filled

/-! ### Single operations -/

/-- A failed replacement leaves the site as it was. -/
theorem leaves_replace {slot : Nat} {old : Value}
    (there : Entries.stored entries slot = some old) {payload : Payload}
    (fits : payload.Fits known) :
    Store.Leaves (fun _ later => later = site) site (replace key slot payload) := by
  by_cases size : old.bytes.size = payload.bytes.size
  · rcases holds.run_replace_same wellFormed there fits size with
      ⟨failure, refused, -⟩ | ⟨later, replaced, -⟩
    · exact .of_error refused rfl
    · exact .of_ok replaced
  · exact .of_error (holds.run_replace_other there size) rfl

theorem leaves_insertUnique {entryKey : Bytes} (isKey : key.Fits entryKey)
    {payload : Payload} (fits : payload.Fits known) :
    Store.Leaves (fun failure later => later = site ∨ HalfInserted key entryKey site failure later)
      site (insertUnique key entryKey payload) := by
  refine .read (holds.run_contains entryKey) (.check (fun _ _ => Or.inl rfl) fun _ vacant => ?_)
  have absent : Entries.find entries entryKey = none := by
    simpa using demand_eq_ok.mp vacant
  exact holds.leaves_insertNew wellFormed isKey absent fits

theorem leaves_store {entryKey : Bytes} (isKey : key.Fits entryKey) {payload : Payload}
    (fits : payload.Fits known) :
    Store.Leaves (fun failure later => later = site ∨ HalfInserted key entryKey site failure later)
      site (store key entryKey payload) := by
  refine .read (holds.run_find entryKey) ?_
  cases found : Entries.find entries entryKey with
  | some slot =>
    obtain ⟨old, there⟩ := Entries.exists_stored found
    exact (holds.leaves_replace wellFormed there fits).weaken fun _ _ => Or.inl
  | none => exact (holds.leaves_insertNew wellFormed isKey found fits).map fun _ => ()

/-- A failed typed write leaves every byte as it was, whatever the type. -/
theorem leaves_exchange (wanted : Bytes) (datum : Datum) :
    Store.Leaves (fun _ later => later.bytes = site.bytes) site (exchange key wanted datum) := by
  refine .read (holds.run_find wanted) ?_
  cases found : Entries.find entries wanted with
  | none => exact .of_ok (Edit.run_pure none site)
  | some slot =>
    obtain ⟨old, there⟩ := Entries.exists_stored found
    cases read : readSlot slot datum.type image with
    | error failure =>
      obtain ⟨later, refused, same, -⟩ :=
        holds.run_edit_unchanged wellFormed (run_exchangeSlot_error read)
      exact .of_error refused same
    | ok content =>
      obtain ⟨cells, written⟩ := holds.represents.values.exists_overwritten there
        (datum.size_bytes.trans (holds.represents.size_of_readSlot there read).symm)
      exact .of_ok (Store.run_edit_ok holds.loaded (run_exchangeSlot read written))

theorem leaves_setCapacity (capacity : Nat) :
    Store.Leaves (fun _ later => later = site) site (setCapacity key capacity) := by
  refine .read holds.run_header ?_
  split
  · next more =>
    refine .check (fun _ _ => rfl) fun larger grown => ?_
    obtain ⟨reached, -, room⟩ := IsCapacity.of_grown grown
    rcases holds.run_larger wellFormed reached (Nat.lt_of_lt_of_le more room) with
      ⟨failure, refused, -⟩ | ⟨later, _, _, grew, -⟩
    · exact .of_error refused rfl
    · exact .of_ok grew
  · exact .of_ok (Edit.run_pure () site)

theorem leaves_ensureData (required : Nat) :
    Store.Leaves (fun _ later => later = site) site (ensureData key required) := by
  rcases holds.run_ensureData wellFormed required with
    ⟨failure, refused, -⟩ | ⟨-, later, _, _, ensured, -⟩
  · exact .of_error refused rfl
  · exact .of_ok ensured

theorem leaves_reserveData (additional : Nat) :
    Store.Leaves (fun _ later => later = site) site (reserveData key additional) :=
  .read holds.run_header <| .check (fun _ _ => rfl) fun required _ =>
    holds.leaves_ensureData wellFormed required

end Holds

namespace Records

/-- A value that has just been inserted can be read. -/
theorem run_readPushed {ledger : Ledger} {entryKey : Bytes} {datum : Datum} {place : Nat}
    (records : Records key site (ledger.push entryKey datum.payload.value place))
    (supported : IsAlign datum.type.align) (even : ledger.Even)
    (aligned : Ledger.AlignedAt datum.payload place) :
    ∃ later, Store.view (format key.toElementType) (readSlot ledger.entries.length datum.type) site =
      .ok datum.bytes later := by
  have reads := records.enacts_readSlot (ledger.stored_push entryKey _ place) datum.type
  rw [Ledger.read_push supported even entryKey aligned] at reads
  obtain ⟨later, run, -⟩ := reads.ended
  exact ⟨later, run⟩

variable [LawfulHost Buffer] (wellFormed : key.toElementType.WellFormed) {ledger : Ledger}
  (records : Records key site ledger)

include wellFormed records

theorem leaves_getOrAdd {entryKey : Bytes} (isKey : key.Fits entryKey) {default : Datum}
    (fits : demandStorable default.type = .ok () → default.payload.Fits fun _ => False) :
    Store.Leaves (fun failure later => later = site ∨ HalfInserted key entryKey site failure later)
      site (getOrAdd key entryKey default) := by
  obtain ⟨image, order, holds, -, located⟩ := id records
  refine .check (fun _ _ => Or.inl rfl) fun _ storable => ?_
  cases found : Entries.find ledger.entries entryKey with
  | some slot =>
    have reading : Store.Leaves (fun _ later => later = site) site
        (Store.view (format key.toElementType) (readSlot slot default.type)) := .view
    refine (reading.congr ?_).weaken fun _ _ => Or.inl
    simp only [Edit.run_bind, holds.run_find, found, Edit.run_pure]
  | none =>
    have payload := fits storable
    have inserting : Store.Leaves
        (fun failure later => later = site ∨ HalfInserted key entryKey site failure later) site (do
          let slot ← insertNew key entryKey default.payload
          Store.view (format key.toElementType) (readSlot slot default.type)) := by
      refine (holds.leaves_insertNew wellFormed isKey found payload).bind
        fun slot middle inserted => ?_
      -- what has just been inserted can be read, so nothing fails any more
      obtain ⟨after, ends, recordsAfter⟩ :=
        (records.enacts_insertNew wellFormed isKey found payload).answered inserted
      obtain ⟨rfl, place, aligned, rfl⟩ := Ledger.granted_insertNew records.regular ends
      obtain ⟨later, run⟩ :=
        recordsAfter.run_readPushed payload.supported located.length_eq aligned
      exact .of_ok run
    refine inserting.congr ?_
    simp only [Edit.run_bind, holds.run_find, found]

/-- A failed operation leaves the block as it was, or half an insertion. Types that cannot be held
aligned are refused, or are not those of any value. -/
theorem leaves (types : ∀ type, known type → type.WellFormed) {operation : Operation}
    (fits : operation.Fits (OrOverAligned known) key) :
    Store.Leaves (Remains key operation site) site (operation.run key) := by
  obtain ⟨image, order, holds, -, -⟩ := id records
  have payload {datum : Datum} (isKnown : OrOverAligned known datum.type)
      (storable : demandStorable datum.type = .ok ()) : datum.payload.Fits fun _ => False :=
    fits_of_storable (types _ (isKnown.known_of_storable storable)) storable
  cases operation with
  | add entryKey datum =>
    exact ((Store.Leaves.check (fun _ _ => Or.inl rfl) fun _ storable =>
      holds.leaves_insertUnique wellFormed fits.1 (payload fits.2 storable)).map
        Answer.number).weaken (Remains.of_insertion rfl)
  | addBytes entryKey tag content =>
    exact ((Store.Leaves.check (fun _ _ => Or.inl rfl) fun _ _ =>
      holds.leaves_insertUnique wellFormed fits (fits_raw tag content)).map
        Answer.number).weaken (Remains.of_insertion rfl)
  | addOrSet entryKey datum =>
    exact ((Store.Leaves.check (fun _ _ => Or.inl rfl) fun _ storable =>
      holds.leaves_store wellFormed fits.1 (payload fits.2 storable)).map
        fun _ => Answer.done).weaken (Remains.of_insertion rfl)
  | addOrSetBytes entryKey tag content =>
    exact ((Store.Leaves.check (fun _ _ => Or.inl rfl) fun _ _ =>
      holds.leaves_store wellFormed fits (fits_raw tag content)).map
        fun _ => Answer.done).weaken (Remains.of_insertion rfl)
  | getOrAdd entryKey default =>
    exact ((records.leaves_getOrAdd wellFormed fits.1 (payload fits.2)).map
      fun content => Answer.value (some content)).weaken (Remains.of_insertion rfl)
  | exchange wanted datum =>
    exact ((holds.leaves_exchange wellFormed wanted datum).map Answer.value).weaken
      fun _ _ => Or.inl
  | setCapacity capacity =>
    exact ((holds.leaves_setCapacity wellFormed capacity).map fun _ => Answer.done).weaken
      Remains.of_untouched
  | reserveData additional =>
    exact ((holds.leaves_reserveData wellFormed additional).map fun _ => Answer.done).weaken
      Remains.of_untouched
  | clear =>
    obtain ⟨changed, cleared, -⟩ := @clear_spec (fun _ => False) key image holds.represents.sound
      holds.represents.framed.header
    exact (Store.Leaves.of_ok (Store.run_edit_ok holds.loaded cleared)).map fun _ => Answer.done
  | get wanted type => exact (Store.Leaves.view.map Answer.value).weaken Remains.of_untouched
  | getBytes wanted => exact (Store.Leaves.of_ok (holds.run_getBytes? wanted)).map Answer.stored
  | find wanted => exact (Store.Leaves.of_ok (holds.run_find wanted)).map Answer.slot
  | contains wanted => exact (Store.Leaves.of_ok (holds.run_contains wanted)).map Answer.flag
  | keys => exact (Store.Leaves.of_ok holds.run_keys).map Answer.keys
  | count => exact (Store.Leaves.of_ok holds.run_header).map fun header => Answer.number header.count

end Records

/-! ### The map after a failure -/

/-- What remains of a map holds the same entries, perhaps in more slots. -/
theorem Holds.holds_of_remains [LawfulHost Buffer] (wellFormed : key.toElementType.WellFormed)
    (holds : Holds known key site image entries order) {operation : Operation} {failure : Failure}
    (remains : Remains key operation site failure later) :
    ∃ after relinked, Holds known key later after entries relinked ∧
      after.header = image.header.resized after.header.capacity ∧
      image.header.capacity ≤ after.header.capacity := by
  have regular := holds.represents.framed.header
  rcases remains with same | ⟨entryKey, -, -, ⟨before, capacity, isHeader, full, next, grew⟩, -, -⟩
  · refine ⟨image, order, holds.of_bytes same, ?_, Nat.le_refl _⟩
    rw [Header.resized, ← regular.bucketCapacity]
  · obtain ⟨rfl, -⟩ := EStateM.Result.ok.inj (holds.run_header.symm.trans isHeader)
    rw [nextCapacity_eq regular.reached (Nat.le_of_eq full)] at next
    by_cases largest : image.header.capacity = maxCapacity
    · rw [if_pos largest] at next
      exact absurd next (by simp)
    · rw [if_neg largest] at next
      obtain rfl := Except.ok.inj next
      have double := regular.reached.lt_double
      rcases holds.run_larger wellFormed (regular.reached.double largest) double with
        ⟨other, refused, -⟩ | ⟨other, grown, relinked, ran, holdsLater, resized, -⟩
      · exact absurd (grew.symm.trans refused) (by simp)
      · obtain ⟨-, rfl⟩ := EStateM.Result.ok.inj (grew.symm.trans ran)
        have larger : grown.header.capacity = 2 * image.header.capacity := by
          rw [resized]
          rfl
        refine ⟨grown, relinked, holdsLater, by rw [larger]; exact resized, ?_⟩
        rw [larger]
        exact Nat.le_of_lt double

/-- Every question about keys and values has the same answer at both sites, and the headers differ
at most in the number of slots, of which there may be more at the second site. -/
structure SameEntries (key : KeyType) (site later : Site Buffer) : Prop where
  headers : ∃ before after, header site = .ok before site ∧ header later = .ok after later ∧
    after = before.resized after.capacity ∧ before.capacity ≤ after.capacity
  keys : ∃ listed, keys key site = .ok listed site ∧ keys key later = .ok listed later
  slots : ∀ wanted, ∃ slot, find key wanted site = .ok slot site ∧
    find key wanted later = .ok slot later
  values : ∀ wanted, ∃ stored, getBytes? key wanted site = .ok stored site ∧
    getBytes? key wanted later = .ok stored later

/-- What is left of a map after an operation that failed. If tags tell how values are aligned, the
values are aligned as before. -/
structure Spared (known : ElementType → Prop) (key : KeyType) (operation : Operation)
    (site : Site Buffer) (failure : Failure) (later : Site Buffer) : Prop where
  sameEntries : SameEntries key site later
  remains : Remains key operation site failure later
  sound : AlignedTypes known → Sound known key later
  wellPlaced : AlignedTypes known → ∃ after, Image.load key.toElementType later.bytes = .ok after ∧
    after.WellPlaced known

/-- A failed operation spares the entries of a map. -/
theorem Reachable.spared [LawfulHost Buffer] (wellFormed : key.toElementType.WellFormed)
    (types : ∀ type, known type → type.WellFormed) (reachable : Reachable known key site)
    {operation : Operation} (fits : operation.Fits (OrOverAligned known) key) {failure : Failure}
    (failed : operation.run key site = .error failure later) :
    Spared known key operation site failure later := by
  obtain ⟨ledger, records⟩ := reachable.records wellFormed types
  have remains := records.leaves wellFormed types fits failure later failed
  have placed (aligned : AlignedTypes known) : ∃ after entries order,
      Holds known key later after entries order := by
    obtain ⟨image, entries, order, holds⟩ := reachable.holds wellFormed aligned
    obtain ⟨after, relinked, holdsLater, -⟩ := holds.holds_of_remains wellFormed remains
    exact ⟨after, entries, relinked, holdsLater⟩
  obtain ⟨image, order, holds, -, -⟩ := records
  obtain ⟨after, relinked, holdsLater, resized, more⟩ := holds.holds_of_remains wellFormed remains
  exact {
    sameEntries := {
      headers := ⟨_, _, holds.run_header, holdsLater.run_header, resized, more⟩
      keys := ⟨_, holds.run_keys, holdsLater.run_keys⟩
      slots := fun wanted => ⟨_, holds.run_find wanted, holdsLater.run_find wanted⟩
      values := fun wanted => ⟨_, holds.run_getBytes? wanted, holdsLater.run_getBytes? wanted⟩ }
    remains := remains
    sound := fun aligned => by
      obtain ⟨_, _, _, holdsAligned⟩ := placed aligned
      exact holdsAligned.sound
    wellPlaced := fun aligned => by
      obtain ⟨found, _, _, holdsAligned⟩ := placed aligned
      exact ⟨found, holdsAligned.loaded, holdsAligned.represents.places wellFormed⟩ }

end PackedStore.UntypedMap
