/-
This file says that a map is copied faithfully through raw bytes. A tag and bytes
say nothing of the alignment that a value was stored with, but raw bytes are
aligned for every type of their size. So every value can be read from the copy as
whatever it could be read as from the source, although the two maps may keep it at
different places. The copy fails only where the arena cannot take all values.
-/

import Mathlib.Data.List.Forall2
import PackedStore.Proofs.UntypedMap.LedgerReplies
import PackedStore.Proofs.UntypedMap.Reachable

namespace PackedStore.UntypedMap

variable {Buffer Source : Type} [Host Buffer] [Host Source] {known : ElementType → Prop}
  {key : KeyType} {site : Site Buffer} {source : Site Source} {entries : List Entry}

/-! ### No value is empty -/

/-- A value that can be stored is not empty. -/
theorem size_pos_of_storable {datum : Datum} {answer : Unit}
    (storable : demandStorable datum.type = .ok answer) : 0 < datum.payload.bytes.size := by
  obtain ⟨_, -, positive⟩ := Checked.bind_eq_ok.mp storable
  rw [Datum.payload, datum.size_bytes]
  exact demand_eq_ok.mp positive

namespace Entries

/-- Every value has at least one byte. -/
def Filled (entries : List Entry) : Prop :=
  ∀ slot value, stored entries slot = some value → 0 < value.bytes.size

theorem filled_nil : Filled [] :=
  fun _ _ there => absurd there (by simp [stored])

namespace Filled

variable {changed : List Entry} {entryKey : Bytes} {payload : Payload}

theorem concat (filled : Filled entries) {entry : Entry} (positive : 0 < entry.value.bytes.size) :
    Filled (entries ++ [entry]) := by
  intro slot value there
  rw [stored_concat] at there
  by_cases last : slot = entries.length
  · rw [last, Function.update_self] at there
    rwa [← Option.some.inj there]
  · rw [Function.update_of_ne last] at there
    exact filled slot value there

theorem put (filled : Filled entries) {slot : Nat} {value : Value}
    (positive : 0 < value.bytes.size) : Filled (put entries slot value) := by
  intro other found there
  have inside := stored_lt there
  rw [length_put] at inside
  by_cases same : other = slot
  · rw [same, stored_put (same ▸ inside), Function.update_self] at there
    rwa [← Option.some.inj there]
  · rw [stored, getElem?_put, if_neg fun equal => same equal.symm] at there
    exact filled other found there

section

variable (filled : Filled entries) (positive : 0 < payload.bytes.size)

include filled positive

theorem insert {slot : Nat} (inserted : insert entries entryKey payload = .ok (slot, changed)) :
    Filled changed := by
  obtain ⟨-, -, rfl⟩ := insert_eq_ok.mp inserted
  exact filled.concat positive

theorem insertUnique {slot : Nat}
    (inserted : insertUnique entries entryKey payload = .ok (slot, changed)) : Filled changed := by
  obtain ⟨-, -, inserted⟩ := Checked.bind_eq_ok.mp inserted
  exact filled.insert positive inserted

theorem store {answer : Unit} (stored : store entries entryKey payload = .ok (answer, changed)) :
    Filled changed := by
  unfold Entries.store at stored
  cases found : find entries entryKey with
  | some slot =>
    simp only [found, replace, Checked.bind_eq_ok, pure, Except.pure, Except.ok.injEq,
      Prod.mk.injEq] at stored
    obtain ⟨-, -, -, -, -, rfl⟩ := stored
    exact filled.put positive
  | none =>
    rw [found] at stored
    obtain ⟨slot, inserted, -⟩ := map_eq_ok.mp stored
    exact filled.insert positive inserted

end

theorem getOrAdd (filled : Filled entries) {default : Datum}
    (positive : 0 < default.payload.bytes.size) {content : Bytes}
    (got : getOrAdd entries entryKey default = .ok (content, changed)) :
    Filled changed := by
  unfold Entries.getOrAdd at got
  cases found : find entries entryKey with
  | some slot =>
    simp only [found] at got
    cases result : read entries slot default.type with
    | error failure => simp [result] at got
    | ok value =>
      obtain ⟨-, rfl⟩ : value = content ∧ entries = changed := by simpa [result] using got
      exact filled
  | none =>
    rw [found] at got
    obtain ⟨slot, inserted, -⟩ := map_eq_ok.mp got
    exact filled.insert positive inserted

/-- A typed access finds a value of its own size, which is not empty. -/
theorem exchange (filled : Filled entries) {datum : Datum} {old : Option Bytes}
    (exchanged : exchange entries entryKey datum = .ok (old, changed)) : Filled changed := by
  unfold Entries.exchange at exchanged
  cases found : find entries entryKey with
  | none =>
    simp only [found, pure, Except.pure, Except.ok.injEq, Prod.mk.injEq] at exchanged
    rw [← exchanged.2]
    exact filled
  | some slot =>
    simp only [found, Checked.bind_eq_ok, pure, Except.pure, Except.ok.injEq, Prod.mk.injEq]
      at exchanged
    obtain ⟨content, readable, -, rfl⟩ := exchanged
    obtain ⟨value, there⟩ := exists_stored found
    rw [read_of_stored there, Value.readAs, demandType] at readable
    obtain ⟨_, same, -⟩ := Checked.bind_eq_ok.mp readable
    refine filled.put ?_
    rw [Payload.value, Datum.payload, datum.size_bytes, ← (demand_eq_ok.mp same).2]
    exact filled slot value there

/-- No operation stores an empty value. -/
theorem perform (filled : Filled entries) {operation : Operation} {answer : Answer}
    (performed : perform operation entries = .ok (answer, changed)) : Filled changed := by
  cases operation with
  | add entryKey datum =>
    obtain ⟨slot, inserted, -⟩ := map_eq_ok.mp performed
    obtain ⟨_, storable, inserted⟩ := Checked.bind_eq_ok.mp inserted
    exact filled.insertUnique (size_pos_of_storable storable) inserted
  | addBytes entryKey tag content =>
    obtain ⟨slot, inserted, -⟩ := map_eq_ok.mp performed
    obtain ⟨_, storable, inserted⟩ := Checked.bind_eq_ok.mp inserted
    exact filled.insertUnique (Nat.pos_of_ne_zero (demand_eq_ok.mp storable)) inserted
  | addOrSet entryKey datum =>
    obtain ⟨nothing, stored, -⟩ := map_eq_ok.mp performed
    obtain ⟨_, storable, stored⟩ := Checked.bind_eq_ok.mp stored
    exact filled.store (size_pos_of_storable storable) stored
  | addOrSetBytes entryKey tag content =>
    obtain ⟨nothing, stored, -⟩ := map_eq_ok.mp performed
    obtain ⟨_, storable, stored⟩ := Checked.bind_eq_ok.mp stored
    exact filled.store (Nat.pos_of_ne_zero (demand_eq_ok.mp storable)) stored
  | getOrAdd entryKey default =>
    obtain ⟨content, got, -⟩ := map_eq_ok.mp performed
    obtain ⟨_, storable, got⟩ := Checked.bind_eq_ok.mp got
    exact filled.getOrAdd (size_pos_of_storable storable) got
  | exchange entryKey datum =>
    obtain ⟨old, exchanged, -⟩ := map_eq_ok.mp performed
    exact filled.exchange exchanged
  | clear =>
    cases performed
    exact filled_nil
  | get wanted type =>
    obtain ⟨content, -, returned⟩ := Checked.bind_eq_ok.mp performed
    cases returned
    exact filled
  | _ =>
    cases performed
    exact filled

end Filled

end Entries

/-! ### Reachable maps -/

/-- A reachable map has no empty values. -/
theorem Reachable.filled [LawfulHost Buffer] (wellFormed : key.toElementType.WellFormed)
    (types : AlignedTypes known) (reachable : Reachable known key site) :
    ∃ image entries order, Holds known key site image entries order ∧ Entries.Filled entries := by
  induction reachable with
  | init sizing run =>
    obtain ⟨image, created, -⟩ := holds_of_init wellFormed run
    exact ⟨image, [], _, created, Entries.filled_nil⟩
  | operation operation fits _ inductionHypothesis =>
    obtain ⟨image, entries, order, holds, filled⟩ := inductionHypothesis
    obtain ⟨changed, follows, either⟩ := (holds.performs wellFormed types fits).follows
    obtain ⟨image', order', holdsLater⟩ := follows.stands
    refine ⟨image', changed, order', holdsLater, ?_⟩
    rcases either with rfl | ⟨answer, performed⟩
    · exact filled
    · exact filled.perform performed

/-! ### What can be copied -/

/-- Entries that any map with keys of the type can take up, if its arena can. -/
structure Entries.Portable (key : KeyType) (entries : List Entry) : Prop where
  distinct : Distinct entries
  few : entries.length ≤ maxCapacity
  keys : ∀ entry ∈ entries, key.Fits entry.key
  filled : ∀ entry ∈ entries, 0 < entry.value.bytes.size
  small : ∀ entry ∈ entries, entry.value.bytes.size < 2 ^ 16

theorem Represents.portable {image : Image} {order : Nat → List Nat}
    (represents : Represents known key image entries order) (filled : Entries.Filled entries) :
    Entries.Portable key entries := by
  have cells (entry : Entry) (member : entry ∈ entries) : ∃ slot,
      Entries.cell entries slot = some entry.key ∧
      Entries.stored entries slot = some entry.value := by
    obtain ⟨slot, there⟩ := List.getElem?_of_mem member
    exact ⟨slot, Entries.cell_eq_some.mpr ⟨_, there⟩, Entries.stored_eq_some.mpr ⟨_, there⟩⟩
  refine ⟨represents.distinct, Nat.le_trans represents.length_le represents.capacity_le, ?_, ?_, ?_⟩
  all_goals
    intro entry member
    obtain ⟨slot, isKey, isValue⟩ := cells entry member
  · exact represents.chains.fits_key isKey
  · exact filled slot _ isValue
  · exact represents.old_lt isValue

/-- Where the arena ends when raw values of the sizes come behind the words in use. -/
def rawStop (allocated : Nat) (sizes : List Nat) : Nat :=
  sizes.foldl (fun stop size => stopBehind stop size (erasedAlign size)) allocated

theorem le_rawStop (allocated : Nat) (sizes : List Nat) : allocated ≤ rawStop allocated sizes := by
  induction sizes generalizing allocated with
  | nil => exact Nat.le_refl allocated
  | cons size rest inductionHypothesis =>
    exact Nat.le_trans (le_stopBehind allocated size _) (inductionHypothesis _)

/-- An arena can have room for a value whose stop is not beyond the largest capacity. -/
theorem Image.arenaRoom_of {image : Image} {payload : Payload} (supported : IsAlign payload.align)
    (allocated : image.header.dataAllocated ≤ maxCapacity) (small : payload.bytes.size < 2 ^ 16)
    (within : stopBehind image.header.dataAllocated payload.bytes.size payload.align ≤ maxCapacity) :
    image.ArenaRoom payload := by
  by_cases large : 4 < payload.bytes.size
  · have words : wordsFor payload.bytes.size ≤ 2 ^ 14 := by
      unfold wordsFor wordSize
      omega
    obtain ⟨offset, planned, -⟩ := @planAllocation_of image.header.dataAllocated
      payload.bytes.size payload.align supported (by
        unfold sizeLimit
        unfold maxCapacity at allocated
        omega)
    refine Or.inr ⟨_, planned, ?_⟩
    rw [stop_of_planAllocation planned (isLarge_iff.mpr large)]
    exact within
  · exact Or.inl (Nat.le_of_not_lt large)

/-! ### Taking up entries -/

section

variable [LawfulHost Buffer] (wellFormed : key.toElementType.WellFormed) {entryKey : Bytes}
  (isKey : key.Fits entryKey) {content : Bytes}

include wellFormed isKey

theorem Holds.performs_addBytes (types : AlignedTypes known) {image : Image}
    {order : Nat → List Nat} (holds : Holds known key site image entries order) (tag : TypeTag)
    (absent : Entries.find entries entryKey = none) (positive : 0 < content.size)
    (small : content.size < 2 ^ 16) :
    Performs known key site entries (image.InsertRoom (.raw tag content))
      (addBytes key entryKey tag content)
      (.ok (entries.length, entries ++ [⟨entryKey, ⟨tag, content⟩⟩])) := by
  refine ((Store.Performs.guard holds.carries fun _ => holds.run_insertUnique wellFormed isKey
    (types.fits_raw tag content)).weaken fun room _ => room).expects ?_
  rw [demand_of (Nat.ne_of_gt positive), Checked.bind_ok, Entries.insertUnique, demand_of absent,
    Checked.bind_ok]
  have fits : (Payload.raw tag content).bytes.size < 2 ^ 16 := small
  exact (Entries.insert_eq_ok.mpr ⟨fits, rfl, rfl⟩).symm

/-- The words in use after raw bytes have been added end where the bytes do. -/
theorem Records.records_of_addBytes {ledger : Ledger} (records : Records key site ledger)
    {tag : TypeTag} {slot : Nat} {later : Site Buffer}
    (run : addBytes key entryKey tag content site = .ok slot later) :
    ∃ after, Records key later after ∧
      after.entries = ledger.entries ++ [⟨entryKey, ⟨tag, content⟩⟩] ∧
      after.header.dataAllocated =
        stopBehind ledger.header.dataAllocated content.size (erasedAlign content.size) := by
  have enacts : Store.Enacts (Records key) site (addBytes key entryKey tag content) ((do
      demand (content.size ≠ 0) .emptyValue
      Ledger.insertUnique key entryKey (.raw tag content) : Plan Ledger Nat).run ledger) :=
    .check records fun _ _ => records.enacts_insertUnique wellFormed isKey (fits_raw tag content)
  obtain ⟨after, ends, stands⟩ := enacts.answered run
  obtain ⟨_, -, ends⟩ := Plan.granted_check ends
  rw [Ledger.insertUnique, Plan.run_bind, Plan.run_get, Script.bind_ok] at ends
  obtain ⟨_, -, ends⟩ := Plan.granted_check ends
  obtain ⟨-, place, -, rfl⟩ := Ledger.granted_insertNew records.regular ends
  exact ⟨_, stands, rfl, rfl⟩

end

/-- A map has taken up entries, and the words of its arena up to a stop are in use. -/
structure Receives (granted : Buffer → Prop) (known : ElementType → Prop) (key : KeyType)
    (site : Site Buffer) (entries : List Entry) (stop : Nat) : Prop where
  granted : granted site.buffer
  carries : Carries known key site entries
  records : ∃ ledger, Records key site ledger ∧ ledger.entries = entries ∧
    ledger.header.dataAllocated = stop

namespace Receives

variable [LawfulHost Buffer] {granted : Buffer → Prop} {stop : Nat}
  (granting : Granting granted) (wellFormed : key.toElementType.WellFormed)
  (types : AlignedTypes known)

include granting wellFormed types

/-- A new entry with raw bytes comes behind all others, if the arena can take the bytes. -/
theorem addBytes (receives : Receives granted known key site entries stop) {entry : Entry}
    (isKey : key.Fits entry.key) (absent : Entries.find entries entry.key = none)
    (positive : 0 < entry.value.bytes.size) (small : entry.value.bytes.size < 2 ^ 16)
    (few : entries.length < maxCapacity) :
    let size := entry.value.bytes.size
    (∃ later, addBytes key entry.key entry.value.tag entry.value.bytes site =
        .ok entries.length later ∧
      Receives granted known key later (entries ++ [entry])
        (stopBehind stop size (erasedAlign size))) ∨
    ∃ failure later, addBytes key entry.key entry.value.tag entry.value.bytes site =
        .error failure later ∧ failure.IsStorage ∧
      maxCapacity < stopBehind stop size (erasedAlign size) := by
  obtain ⟨here, ⟨image, order, holds⟩, ledger, records, rfl, rfl⟩ := receives
  have performs := holds.performs_addBytes wellFormed isKey types entry.value.tag absent positive small
  rcases performs.settled with
    ⟨answer, changed, answered, same, follows⟩ | ⟨failure, failed, storage, follows⟩
  · left
    obtain ⟨rfl, rfl⟩ := Prod.mk.inj (Except.ok.inj same)
    have run := Store.run_of_outcome_ok answered
    exact ⟨_, run, follows.continues granted granting here, follows.stands,
      records.records_of_addBytes wellFormed isKey run⟩
  · right
    refine ⟨failure, _, Store.run_of_outcome_error failed, storage.resolve_left (by simp), ?_⟩
    by_contra within
    have room : image.InsertRoom (.raw entry.value.tag entry.value.bytes) := by
      obtain ⟨other, _, holds', isHeader, -⟩ := records
      obtain rfl := Except.ok.inj (holds.loaded.symm.trans holds'.loaded)
      have regular := holds.represents.framed.header
      refine ⟨by rw [holds.represents.count]; exact few, Image.arenaRoom_of
        (isAlign_erasedAlign _) (Nat.le_trans regular.allocated_le regular.dataReached.le_max) small
        ?_⟩
      rw [isHeader]
      exact Nat.le_of_not_lt within
    have free (middle : Site Buffer) (failure : Failure) (continues : site.Continues middle) :
        ¬ CannotGrow key middle failure :=
      not_cannotGrow granting (continues granted granting here) (holds.supported wellFormed)
        holds.represents.framed.header.keySize_lt
    rcases performs.agrees room free with ⟨_, _, -, answered, -⟩ | ⟨_, expected, -⟩
    · rw [failed] at answered
      cases answered
    · cases expected

end Receives

/-! ### Copies -/

theorem Entries.Distinct.absent {before after : List Entry} {entry : Entry}
    (distinct : Distinct (before ++ entry :: after)) : find before entry.key = none := by
  rw [Distinct, List.map_append, List.nodup_append] at distinct
  refine List.findIdx?_eq_none_iff.mpr fun other member => decide_eq_false ?_
  exact distinct.2.2 _ (List.mem_map_of_mem member) _ List.mem_cons_self

/-- How a single entry is copied. -/
def copyEntry (key : KeyType) (source : Site Source) (entryKey : Bytes) : Store Buffer Nat := do
  match ← Store.readFrom source (getBytes? key entryKey) with
  | none => throw (.fault .brokenInvariant)
  | some (tag, content) => addBytes key entryKey tag content

theorem copyFrom_eq (source : Site Source) :
    (copyFrom key source : Store Buffer (List Nat)) = (do
      let present ← Store.readFrom source (keys key)
      present.mapM (copyEntry key source)) := rfl

section

variable {image : Image} {order : Nat → List Nat}

theorem Holds.run_copyFrom (holds : Holds known key source image entries order)
    (site : Site Buffer) :
    copyFrom key source site = (entries.map Entry.key).mapM (copyEntry key source) site := by
  simp only [copyFrom_eq, Edit.run_bind, Store.readFrom, holds.run_keys]

theorem Holds.run_copyEntry {slot : Nat} {entry : Entry}
    (holds : Holds known key source image entries order) (there : entries[slot]? = some entry)
    (site : Site Buffer) :
    copyEntry key source entry.key site =
      addBytes key entry.key entry.value.tag entry.value.bytes site := by
  have found : Entries.lookup entries entry.key = some entry.value :=
    holds.represents.distinct.lookup_eq_some.mpr ⟨slot, there⟩
  simp only [copyEntry, Edit.run_bind, Store.readFrom, holds.run_getBytes?, found, Option.map_some]

variable [LawfulHost Buffer] {granted : Buffer → Prop} (granting : Granting granted)
  (wellFormed : key.toElementType.WellFormed) (types : AlignedTypes known)

include granting wellFormed types

/-- The entries behind those that have been copied come next, in their order, if the arena can take
the bytes of all of them. -/
theorem Receives.copyRest {rest : List Entry} {stop : Nat}
    (receives : Receives granted known key site entries stop)
    (holds : Holds known key source image (entries ++ rest) order)
    (portable : Entries.Portable key (entries ++ rest)) :
    let sizes := rest.map fun entry => entry.value.bytes.size
    (∃ later, (rest.map Entry.key).mapM (copyEntry key source) site =
        .ok (List.range' entries.length rest.length) later ∧
      Receives granted known key later (entries ++ rest) (rawStop stop sizes)) ∨
    ∃ failure later, (rest.map Entry.key).mapM (copyEntry key source) site =
        .error failure later ∧ failure.IsStorage ∧ maxCapacity < rawStop stop sizes := by
  induction rest generalizing entries site stop with
  | nil => exact Or.inl ⟨site, rfl, by rwa [List.append_nil]⟩
  | cons entry rest inductionHypothesis =>
    have member : entry ∈ entries ++ entry :: rest := by simp
    have few : entries.length < maxCapacity := by
      have few := portable.few
      rw [List.length_append, List.length_cons] at few
      omega
    have there : (entries ++ entry :: rest)[entries.length]? = some entry := by simp
    have first := holds.run_copyEntry there site
    simp only [List.map_cons, List.mapM_cons, Edit.run_bind, first]
    rcases receives.addBytes granting wellFormed types (portable.keys entry member)
        portable.distinct.absent (portable.filled entry member) (portable.small entry member) few
      with ⟨middle, added, receivesMore⟩ | ⟨failure, middle, refused, storage, beyond⟩
    · have reordered : entries ++ entry :: rest = entries ++ [entry] ++ rest := by simp
      rw [reordered] at holds portable ⊢
      rcases inductionHypothesis receivesMore holds portable with
        ⟨later, ran, receivesAll⟩ | ⟨failure, later, refused, storage, beyond⟩
      · refine Or.inl ⟨later, ?_, receivesAll⟩
        simp only [added, ran, Edit.run_pure, List.length_append, List.length_cons,
          List.length_nil, List.range'_succ]
      · refine Or.inr ⟨failure, later, ?_, storage, beyond⟩
        simp only [added, refused]
    · refine Or.inr ⟨failure, middle, ?_, storage, Nat.lt_of_lt_of_le beyond (le_rawStop _ _)⟩
      simp only [refused]

end

/-! ### What a copy has in common with its source -/

omit [Host Source] in
/-- Reading for each member of a list reads the answers one by one. -/
theorem mapM_of_reads {α β : Type} {read : α → Store Source β} {members : List α} {answers : List β}
    (reads : List.Forall₂ (fun member answer => read member source = .ok answer source)
      members answers) : members.mapM read source = .ok answers source := by
  induction reads with
  | nil => rfl
  | cons first _ inductionHypothesis =>
    simp only [List.mapM_cons, Edit.run_bind, first, inductionHypothesis, Edit.run_pure]

namespace Holds

variable {image : Image} {order : Nat → List Nat}
  (holds : Holds known key source image entries order)

include holds

/-- The keys in the order of their insertion are in the slots from the first one on. -/
theorem mapM_find : (entries.map Entry.key).mapM (find key) source =
    .ok ((List.range' 0 entries.length).map some) source := by
  refine mapM_of_reads (List.forall₂_iff_get.mpr ⟨by simp, fun slot inside _ => ?_⟩)
  rw [List.length_map] at inside
  have there : Entries.find entries entries[slot].key = some slot :=
    holds.represents.distinct.find_eq_some.mpr
      (Entries.cell_eq_some.mpr ⟨_, List.getElem?_eq_getElem inside⟩)
  simp only [List.get_eq_getElem, List.getElem_map, List.getElem_range', holds.run_find, there]
  congr 2
  omega

theorem mapM_getBytes? : (entries.map Entry.key).mapM (getBytes? key) source =
    .ok ((entries.map fun entry => (entry.value.tag, entry.value.bytes)).map some) source := by
  refine mapM_of_reads ?_
  rw [List.map_map, List.forall₂_map_left_iff, List.forall₂_map_right_iff, List.forall₂_same]
  intro entry member
  obtain ⟨slot, there⟩ := List.getElem?_of_mem member
  rw [holds.run_getBytes?, holds.represents.distinct.lookup_eq_some.mpr ⟨slot, there⟩]
  rfl

end Holds

/-- The first map is a copy of the second one: its entries are in the slots that the copying has
answered, and whatever one can find out about keys and values is the same for both. -/
structure Copied (known : ElementType → Prop) (key : KeyType) (later : Site Buffer)
    (source : Site Source) (slots : List Nat) : Prop where
  slots : ∃ present, keys key source = .ok present source ∧
    present.mapM (find key) source = .ok (slots.map some) source
  alike : ∀ operation : Operation, operation.Fits known key → operation.Inspects →
    (Store.outcome (operation.run key) later).1 = (Store.outcome (operation.run key) source).1

/-- Copying a reachable map to one without entries, on a host that grants resizes, makes a copy,
unless the arena cannot take the values at the alignment of raw bytes. -/
theorem Reachable.copied [LawfulHost Buffer] [LawfulHost Source] {granted : Buffer → Prop}
    (granting : Granting granted) (wellFormed : key.toElementType.WellFormed)
    (types : AlignedTypes known) (reachable : Reachable known key source)
    (reached : Reachable known key site) (here : granted site.buffer) {before : Header}
    (isHeader : header site = .ok before site) (empty : before.count = 0) :
    ∃ (present : List Bytes) (values : List (TypeTag × Bytes)),
      keys key source = .ok present source ∧
      present.mapM (getBytes? key) source = .ok (values.map some) source ∧
      ((∃ slots later, copyFrom key source site = .ok slots later ∧
          Copied known key later source slots) ∨
        ∃ failure later, copyFrom key source site = .error failure later ∧ failure.IsStorage ∧
          maxCapacity < rawStop before.dataAllocated (values.map fun value => value.2.size)) := by
  obtain ⟨image, entries, order, holds, filled⟩ := reachable.filled wellFormed types
  obtain ⟨target, nothing, links, holdsTarget⟩ := reached.holds wellFormed types
  obtain ⟨ledger, records⟩ := reached.records wellFormed types.wellFormed
  obtain ⟨rfl, -⟩ := EStateM.Result.ok.inj (isHeader.symm.trans holdsTarget.run_header)
  obtain rfl : nothing = [] :=
    List.eq_nil_of_length_eq_zero (holdsTarget.represents.count.symm.trans empty)
  obtain ⟨same, _, holdsLedger, isLedger, -⟩ := id records
  obtain rfl := Except.ok.inj (holdsTarget.loaded.symm.trans holdsLedger.loaded)
  have noEntries : ledger.entries = [] := List.eq_nil_of_length_eq_zero
    (records.count_eq.symm.trans ((congrArg Header.count isLedger).symm.trans empty))
  have receives : Receives granted known key site [] target.header.dataAllocated :=
    ⟨here, holdsTarget.carries, ledger, records, noEntries, by rw [isLedger]⟩
  refine ⟨_, _, holds.run_keys, holds.mapM_getBytes?, ?_⟩
  rw [holds.run_copyFrom, List.map_map]
  rcases receives.copyRest granting wellFormed types holds (holds.represents.portable filled) with
    ⟨later, ran, receivesAll⟩ | refused
  · obtain ⟨image', order', holdsLater⟩ := receivesAll.carries
    exact Or.inl ⟨_, later, ran, ⟨_, holds.run_keys, holds.mapM_find⟩,
      fun operation fits inspects =>
        (holdsLater.outcome_of_inspects wellFormed types fits inspects).trans
          (holds.outcome_of_inspects wellFormed types fits inspects).symm⟩
  · exact Or.inr refused

/-- A wide value that was stored as such is read from a copy that was made of its bytes. -/
theorem wide_copied :
    ∃ site : Site BlockBuffer, init wordKey {} ⟨.empty none, []⟩ = .ok () site ∧
      ∃ later, copyFrom wordKey
          (Store.outcome (Operation.run wordKey (.add (keyOf 7) (wideDatum 1))) site).2 site =
          .ok [0] later ∧
        (Store.outcome (Operation.run wordKey (.get (keyOf 7) DataType.wide.element)) later).1 =
          .ok (.value (some (wideDatum 1).bytes)) := by
  obtain ⟨site, run⟩ := @run_init_of_granting BlockBuffer _ wordKey ⟨.empty none, []⟩ _ _
    BlockBuffer.granting rfl ElementType.wellFormed_word32 (by decide) (by decide) rfl {}
    (by decide) (by decide) (by decide)
  have types : AlignedTypes WordOrWide := family_wordOrWide.aligned
  have fits : (Operation.add (keyOf 7) (wideDatum 1)).Fits WordOrWide wordKey :=
    ⟨fits_keyOf rfl 7, Or.inr rfl⟩
  obtain ⟨fresh, created, nothing, continues⟩ :=
    @holds_of_init _ _ WordOrWide wordKey _ _ ElementType.wellFormed_word32 _ _ run
  have mirrors : Mirrors (fun buffer => buffer.limit = none) WordOrWide wordKey site [] :=
    ⟨continues _ BlockBuffer.granting rfl, fresh, _, created⟩
  obtain ⟨-, -, image, order, holds⟩ := mirrors.step BlockBuffer.granting
    ElementType.wellFormed_word32 family_wordOrWide fits (within_of_init
      ElementType.wellFormed_word32 run (by decide) (isAlign_iff.mpr (by decide)))
  obtain ⟨present, values, isPresent, isValues, copied⟩ :=
    (Reachable.operation _ fits (.init {} run)).copied BlockBuffer.granting
      ElementType.wellFormed_word32 types (.init {} run) mirrors.1 created.run_header
      created.represents.count
  obtain ⟨rfl, -⟩ := EStateM.Result.ok.inj (holds.run_keys.symm.trans isPresent)
  have same := (EStateM.Result.ok.inj (holds.mapM_getBytes?.symm.trans isValues)).1
  obtain rfl := (List.map_inj_right fun _ _ => Option.some.inj).mp same
  rcases copied with ⟨slots, later, ran, ⟨_, isPresent', isSlots⟩, alike⟩ | ⟨_, _, -, -, beyond⟩
  · obtain ⟨rfl, -⟩ := EStateM.Result.ok.inj (holds.run_keys.symm.trans isPresent')
    have place := (EStateM.Result.ok.inj (holds.mapM_find.symm.trans isSlots)).1
    obtain rfl := (List.map_inj_right fun _ _ => Option.some.inj).mp place
    have asWide : (Operation.get (keyOf 7) DataType.wide.element).Fits WordOrWide wordKey :=
      Or.inr rfl
    refine ⟨site, run, later, ran, (alike _ asWide trivial).trans ?_⟩
    exact holds.outcome_of_inspects ElementType.wellFormed_word32 types asWide trivial
  · rw [nothing] at beyond
    exact absurd beyond (by decide)

end PackedStore.UntypedMap
