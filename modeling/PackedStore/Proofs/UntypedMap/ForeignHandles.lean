/-
This file says what becomes of a map when handles with keys of other types are
attached to its block. The header records the size of a key and nothing else of its
type. A handle whose keys have another size is turned away and leaves the block as
it was, so the map is what its own handles make of it. A handle whose keys have the
same size is let in if its layout fits into the block, however it hashes keys.
-/

import PackedStore.Proofs.UntypedMap.LedgerReplies

namespace PackedStore.UntypedMap

variable {Buffer : Type} [Host Buffer] {key : KeyType} {site later : Site Buffer} {ledger : Ledger}

/-! ### Attaching -/

/-- What a handle with other keys finds out about a map. -/
def checkHandle (other : KeyType) (header : Header) (length : Nat) : Checked Unit := do
  demand (header.keySize = other.size) (.otherKeyType other.toElementType)
  let layout ← Layout.ofHeader other.toElementType header
  demand (layout.total ≤ length) .truncatedBlock

namespace Records

variable (records : Records key site ledger) (wellFormed : key.toElementType.WellFormed)
  {other : KeyType}

include records wellFormed

/-- To attach to a map is to check the size of the keys and the length of the block. -/
theorem attach_eq (other : KeyType) :
    attach other site =
      (liftM (checkHandle other ledger.header site.bytes.size) : Store Buffer Unit) site := by
  obtain ⟨image, order, holds, isHeader, -⟩ := records
  have framed := holds.represents.framed
  have long : headerLength ≤ site.bytes.size := by
    rw [holds.size_eq]
    exact (Layout.placed_of_compute wellFormed framed.computed).header_le
  rw [← isHeader, checkHandle]
  simp only [attach, Edit.run_bind, Store.run_bytes, demand_of long, Edit.run_lift_ok,
    holds.load_header, demand_of framed.header.magic, Edit.lift_bind]

/-- A handle whose keys have another size is turned away. -/
theorem attach_of_size_ne (different : other.size ≠ key.size) :
    attach other site = .error (.misuse (.otherKeyType other.toElementType)) site := by
  have otherSize : ¬ ledger.header.keySize = other.size := by
    rw [records.regular.keySize]
    exact different.symm
  rw [records.attach_eq wellFormed, checkHandle, demand_of_not otherSize, Checked.bind_error,
    Edit.run_lift_error]

/-- A handle is let in exactly if its keys have the size of those of the map and the map laid out
for its keys fits into the block. -/
theorem attach_iff :
    attach other site = .ok () site ↔ other.size = key.size ∧
      ∃ layout, Layout.compute other.toElementType ledger.header.capacity
          ledger.header.bucketCapacity ledger.header.dataCapacity = .ok layout ∧
        layout.total ≤ site.bytes.size := by
  rw [records.attach_eq wellFormed, Edit.lift_eq_ok, and_iff_left rfl, checkHandle]
  simp only [Checked.bind_eq_ok, demand_eq_ok, Layout.ofHeader, recorded_eq_ok,
    records.regular.keySize, exists_const]
  exact and_congr_left fun _ => eq_comm

end Records

/-! ### Visits -/

/-- A request to the map in a block through a handle with keys of some type. -/
structure Visit where
  key : KeyType
  request : Request

/-- A handle is attached anew for every request. -/
def Visit.run (visit : Visit) : Store Buffer Reply := do
  attach visit.key
  visit.request.ask visit.key

/-- The requests that come through handles of the map. -/
def ownRequests (key : KeyType) (visits : List Visit) : List Request :=
  (visits.filter fun visit => visit.key.size = key.size).map Visit.request

/-- A handle whose keys have the size of those of the map is one of the map. -/
def Visit.Honest (key : KeyType) (visit : Visit) : Prop :=
  visit.key.size = key.size → visit.key = key ∧ visit.request.Brings key

theorem Records.outcome_foreign (records : Records key site ledger)
    (wellFormed : key.toElementType.WellFormed) {visit : Visit}
    (foreign : visit.key.size ≠ key.size) :
    Store.outcome visit.run site =
      (.error (.misuse (.otherKeyType visit.key.toElementType)), site) := by
  rw [Visit.run, Store.outcome_bind,
    Store.outcome_error (records.attach_of_size_ne wellFormed foreign)]

theorem Records.outcome_own (records : Records key site ledger)
    (wellFormed : key.toElementType.WellFormed) {visit : Visit} (own : visit.key = key) :
    Store.outcome visit.run site = Store.outcome (visit.request.ask key) site := by
  rw [Visit.run, own, Store.outcome_bind, Store.outcome_ok (records.run_attach wellFormed)]

/-- Visits through handles with keys of other sizes leave no trace: the map is what its own handles
make of it. -/
theorem Records.run_visits [LawfulHost Buffer] (records : Records key site ledger)
    (wellFormed : key.toElementType.WellFormed) {visits : List Visit}
    (honest : ∀ visit ∈ visits, visit.Honest key) :
    (Store.machine Visit.run).reached visits site =
        (Store.machine (Request.ask key)).reached (ownRequests key visits) site ∧
      ∃ after, Records key ((Store.machine Visit.run).reached visits site) after := by
  induction visits generalizing site ledger with
  | nil => exact ⟨rfl, ledger, records⟩
  | cons visit rest inductionHypothesis =>
    have honestRest : ∀ other ∈ rest, other.Honest key := fun other member =>
      honest other (List.mem_cons_of_mem _ member)
    by_cases own : visit.key.size = key.size
    · obtain ⟨isOwn, brings⟩ := honest visit List.mem_cons_self own
      have outcome := records.outcome_own wellFormed isOwn
      obtain ⟨next, recordsNext⟩ := (records.enacts_request wellFormed brings).stands
      rw [← outcome] at recordsNext
      obtain ⟨same, reached⟩ := inductionHypothesis recordsNext honestRest
      refine ⟨?_, reached⟩
      rw [ownRequests, List.filter_cons_of_pos (by simpa using own), List.map_cons, Machine.reached,
        Machine.reached]
      simp only [Store.machine, ← outcome]
      exact same
    · have turnedAway := records.outcome_foreign wellFormed own
      rw [ownRequests, List.filter_cons_of_neg (by simpa using own), Machine.reached, Store.machine,
        turnedAway]
      exact inductionHypothesis records honestRest

theorem Records.exists_keys (records : Records key site ledger) :
    ∃ present, keys key site = .ok present site ∧ present.Nodup := by
  obtain ⟨image, order, holds, -, -⟩ := records
  exact ⟨_, holds.run_keys, holds.represents.distinct⟩

/-- Whatever is asked of a map through its own handles and through handles whose keys have another
size, the map is what its own handles make of it: no key is there twice, a handle whose keys have
another size is turned away with a message about its keys, and the block stays as it is. A handle
whose keys have the same size is let in exactly if the map laid out for its keys fits into the block;
neither the hash nor the comparison of its keys matters. -/
theorem foreign_handles_turned_away [LawfulHost Buffer] (wellFormed : key.toElementType.WellFormed)
    {sizing : Sizing} (created : init key sizing site = .ok () later) {visits : List Visit}
    (honest : ∀ visit ∈ visits, visit.key.size = key.size →
      visit.key = key ∧ visit.request.Brings key)
    {after : Site Buffer} (reached : (Store.machine Visit.run).reached visits later = after) :
    after = (Store.machine (Request.ask key)).reached (ownRequests key visits) later ∧
    (∃ present, keys key after = .ok present after ∧ present.Nodup) ∧
    (∀ visit : Visit, visit.key.size ≠ key.size →
      Store.outcome visit.run after =
        (.error (.misuse (.otherKeyType visit.key.toElementType)), after)) ∧
    (∀ visit : Visit, visit.key = key →
      Store.outcome visit.run after = Store.outcome (visit.request.ask key) after) ∧
    ∃ header, UntypedMap.header after = .ok header after ∧
      ∀ other : KeyType, attach other after = .ok () after ↔ other.size = key.size ∧
        ∃ layout, Layout.compute other.toElementType header.capacity header.bucketCapacity
            header.dataCapacity = .ok layout ∧
          layout.total ≤ after.bytes.size := by
  obtain ⟨_, _, -, -, recordsNew⟩ := records_of_init wellFormed created
  obtain ⟨same, ledger, records⟩ := recordsNew.run_visits wellFormed honest
  rw [reached] at same records
  exact ⟨same, records.exists_keys, fun visit => records.outcome_foreign wellFormed,
    fun visit => records.outcome_own wellFormed, ledger.header, records.run_header,
    fun other => records.attach_iff wellFormed⟩

/-- A map of words is asked for a key by a handle for words and by one for words of eight bytes. -/
def mixedVisits : List Visit :=
  [⟨(DataType.number ⟨.unsigned, 4⟩).key, .perform (.add (keyOf 7) (wideDatum 1))⟩,
    ⟨(DataType.number ⟨.unsigned, 8⟩).key, .perform (.contains (keyOf 7))⟩,
    ⟨(DataType.number ⟨.unsigned, 4⟩).key, .perform (.contains (keyOf 7))⟩]

theorem eight_byte_handle_turned_away :
    ∃ later after : Site BlockBuffer,
      init (DataType.number ⟨.unsigned, 4⟩).key { capacity := 1, minGrowth := 1 } ⟨.empty none, []⟩ =
        .ok () later ∧
      (Store.machine Visit.run).reached mixedVisits later = after ∧
      Store.outcome (Visit.run ⟨(DataType.number ⟨.unsigned, 8⟩).key, .perform .keys⟩) after =
        (.error (.misuse (.otherKeyType (DataType.number ⟨.unsigned, 8⟩).element)), after) ∧
      ∃ present, keys (DataType.number ⟨.unsigned, 4⟩).key after = .ok present after ∧
        present.Nodup := by
  have wellFormed : (DataType.number ⟨.unsigned, 4⟩).element.WellFormed :=
    ⟨⟨2, rfl⟩, Nat.dvd_refl 4⟩
  have created : init (DataType.number ⟨.unsigned, 4⟩).key { capacity := 1, minGrowth := 1 }
      (⟨.empty none, []⟩ : Site BlockBuffer) = .ok () _ :=
    Store.run_of_outcome_ok (by decide +kernel)
  have honest : ∀ visit ∈ mixedVisits,
      visit.key.size = (DataType.number ⟨.unsigned, 4⟩).key.size →
        visit.key = (DataType.number ⟨.unsigned, 4⟩).key ∧
          visit.request.Brings (DataType.number ⟨.unsigned, 4⟩).key := by
    intro visit member sameSize
    simp only [mixedVisits, List.mem_cons, List.not_mem_nil, or_false] at member
    rcases member with rfl | rfl | rfl
    · exact ⟨rfl, fits_keyOf rfl 7, ⟨4, rfl⟩, Nat.dvd_refl 16⟩
    · exact absurd sameSize (by decide)
    · exact ⟨rfl, trivial⟩
  obtain ⟨-, present, turnedAway, -⟩ := foreign_handles_turned_away wellFormed created honest rfl
  exact ⟨_, _, created, rfl, turnedAway _ (by decide), present⟩

/-- A value of one byte. -/
def byteDatum (value : UInt8) : Datum :=
  ⟨(DataType.number ⟨.unsigned, 1⟩).element, #[value], rfl⟩

/-- A handle for pairs of two bytes is attached to a map of words, and is asked for the key that the
map has, spelled as a pair. -/
def mistaken : Store BlockBuffer (Bool × List Bytes) := do
  init (DataType.number ⟨.unsigned, 4⟩).key { capacity := 2, minGrowth := 1 }
  let _ ← add (DataType.number ⟨.unsigned, 4⟩).key (keyOf 1) (byteDatum 7)
  attach (DataType.array ⟨.unsigned, 2⟩ 2).key
  let found ← contains (DataType.array ⟨.unsigned, 2⟩ 2).key (keyOf 1)
  let _ ← add (DataType.array ⟨.unsigned, 2⟩ 2).key (keyOf 1) (byteDatum 8)
  return (found, ← keys (DataType.number ⟨.unsigned, 4⟩).key)

/-- The handle is let in although its keys are of another type. It does not find the key, and adds
it a second time. -/
theorem foreign_handle_duplicates :
    (DataType.number ⟨.unsigned, 4⟩).element ≠ (DataType.array ⟨.unsigned, 2⟩ 2).element ∧
      (Store.outcome mistaken ⟨.empty none, []⟩).1 = .ok (false, [keyOf 1, keyOf 1]) := by
  decide +kernel

end PackedStore.UntypedMap
