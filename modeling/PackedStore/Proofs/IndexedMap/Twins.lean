/-
This file follows the same indexed map in two hosts. The blocks may differ wherever a
host put bytes of its own, as long as the images resemble each other; then the map is
read alike in both, takes the same edits, and asks for the same lengths when it grows,
is created or is laid out afresh.
-/

import PackedStore.Proofs.Host.Concurrence
import PackedStore.Proofs.IndexedMap.Operations
import PackedStore.Proofs.IndexedMap.Resemblance

namespace PackedStore.IndexedMap

open Store (Asks Concurs Quiet Tuned)

variable {Left Right α : Type} [Host Left] [Host Right] {agrees : Left → Right → Prop}
  {shape : Shape} {one : Site Left} {other : Site Right} {table : SlotTable} {limit : Nat}

/-! ### Maps that resemble each other -/

/-- Both sites hold the table, in images that resemble each other. -/
def Twins (shape : Shape) (table : SlotTable) (one : Site Left) (other : Site Right) : Prop :=
  ∃ image twin orders ordersTwin, Holds shape one image table orders ∧
    Holds shape other twin table ordersTwin ∧ image.Alike shape twin

/-- The sites hold the same map. -/
def Twinned (shape : Shape) (one : Site Left) (other : Site Right) : Prop :=
  ∃ table, Twins shape table one other

theorem Twins.size_eq (twins : Twins shape table one other) :
    other.bytes.size = one.bytes.size := by
  obtain ⟨image, twin, _, _, holds, holdsOther, limit, resembles⟩ := twins
  rw [holds.size_eq, holdsOther.size_eq, resembles.layout]

/-- What is used of an image that stands for a table is used of all that resemble it. -/
theorem Image.Related.limit_eq {image twin : Image} {orders : Nat → Nat → List Nat}
    (resembles : Image.Resembles shape limit image twin)
    (represents : Represents shape image table orders) : limit = table.slots.length :=
  resembles.headed.allocated.symm.trans represents.allocated

/-! ### Reading -/

theorem quiet_header {Buffer : Type} [Host Buffer] : Quiet (header : Store Buffer Header) :=
  Quiet.bytes.bind fun _ => .lift _

theorem quiet_writeHeader {Buffer : Type} [Host Buffer] (header : Header) :
    Quiet (writeHeader header : Store Buffer Unit) :=
  Quiet.bytes.bind fun _ => .write _

section

variable {hash : Bytes → UInt64} {chains twin : HashChains Bytes}
  (alike : chains.Resembles limit [] twin)

include alike

theorem Cursor.advance_alike (cursor : Cursor) :
    cursor.advance hash twin = cursor.advance hash chains := by
  simp only [advance, alike.find_eq, alike.findAfter_eq]

theorem Cursor.lt_of_advance {cursor moved : Cursor}
    (advanced : cursor.advance hash chains = .ok (some moved)) :
    ∃ slot, moved.slot = some slot ∧ slot < limit := by
  obtain ⟨cursorIndex, place⟩ := cursor
  cases place with
  | none =>
    obtain ⟨found, isFound, returned⟩ := Checked.bind_eq_ok.mp advanced
    obtain ⟨slot, rfl, rfl⟩ := Option.map_eq_some_iff.mp (Except.ok.inj returned)
    exact ⟨slot, rfl, alike.find_lt isFound⟩
  | some before =>
    obtain ⟨found, isFound, returned⟩ := Checked.bind_eq_ok.mp advanced
    obtain ⟨slot, rfl, rfl⟩ := Option.map_eq_some_iff.mp (Except.ok.inj returned)
    exact ⟨slot, rfl, alike.findAfter_lt isFound⟩

end

section

variable (agree : agrees one.buffer other.buffer) (twins : Twins shape table one other)

include agree twins

/-- Whatever is read alike in images that resemble each other is read alike in both sites. -/
theorem Twins.view {read : Image → Checked α}
    (same : ∀ limit image twin, Image.Resembles shape limit image twin → read twin = read image) :
    Concurs (Tuned agrees (Twins shape table)) (Store.view (format shape) read)
      (Store.view (format shape) read) one other := by
  obtain ⟨image, twin, _, _, holds, holdsOther, limit, resembles⟩ := id twins
  exact .view holds.loaded holdsOther.loaded (same limit image twin resembles) ⟨agree, twins⟩

theorem Twins.entries :
    Concurs (Tuned agrees (Twins shape table)) (IndexedMap.entries shape)
      (IndexedMap.entries shape) one other := by
  refine twins.view agree fun limit image twin resembles => ?_
  rw [resembles.key.linkedSlots_eq]
  cases linked : image.key.linkedSlots with
  | error failure => rfl
  | ok slots => exact resembles.mapM_entry_eq (resembles.key.mem_linkedSlots_lt linked)

theorem Twins.get? (key : Bytes) :
    Concurs (Tuned agrees (Twins shape table)) (IndexedMap.get? shape key)
      (IndexedMap.get? shape key) one other := by
  refine twins.view agree fun limit image twin resembles => ?_
  rw [resembles.key.find_eq]
  cases found : image.key.find shape.key.hash key with
  | error failure => rfl
  | ok place =>
    cases place with
    | none => rfl
    | some slot => simp only [Checked.bind_ok, resembles.entry_eq (resembles.key.find_lt found)]

theorem Twins.entryAt (slot : Nat) :
    Concurs (Tuned agrees (Twins shape table)) (IndexedMap.entryAt shape slot)
      (IndexedMap.entryAt shape slot) one other := by
  refine twins.view agree fun limit image twin resembles => ?_
  rw [resembles.isLive_eq]
  by_cases below : slot < limit
  · rw [resembles.entry_eq below]
  · have free : image.isLive shape slot = .ok false := by
      rw [Image.isLive, if_neg (by rw [resembles.headed.allocated]; exact below)]
      rfl
    rw [free]
    rfl

theorem Twins.entriesFor (position : Nat) (index : Bytes) :
    Concurs (Tuned agrees (Twins shape table)) (IndexedMap.entriesFor shape position index)
      (IndexedMap.entriesFor shape position index) one other := by
  refine twins.view agree fun limit image twin resembles => ?_
  rcases resembles.dimension_eq position with ⟨failure, failed, failedTwin⟩ |
    ⟨kind, chains, chainsTwin, isDimension, isTwin, alike⟩
  · rw [failed, failedTwin]
    rfl
  · rw [isDimension, isTwin]
    simp only [Checked.bind_ok, alike.allMatches_eq]
    cases found : chains.allMatches kind.hash index with
    | error failure => rfl
    | ok slots => exact resembles.mapM_entry_eq (alike.mem_allMatches_lt found)

/-- A cursor that points nowhere finds the same in both maps as well. -/
theorem Twins.next (position : Nat) (cursor : Cursor) :
    Concurs (Tuned agrees (Twins shape table)) (IndexedMap.next shape position cursor)
      (IndexedMap.next shape position cursor) one other := by
  refine twins.view agree fun limit image twin resembles => ?_
  rcases resembles.dimension_eq position with ⟨failure, failed, failedTwin⟩ |
    ⟨kind, chains, chainsTwin, isDimension, isTwin, alike⟩
  · rw [failed, failedTwin]
    rfl
  · rw [isDimension, isTwin]
    simp only [Checked.bind_ok, Cursor.advance_alike alike]
    cases advanced : cursor.advance kind.hash chains with
    | error failure => rfl
    | ok found =>
      cases found with
      | none => rfl
      | some moved =>
        obtain ⟨slot, isSlot, below⟩ := Cursor.lt_of_advance alike advanced
        simp only [Checked.bind_ok, isSlot, Option.getD_some, resembles.entry_eq below]

theorem Twins.first (position : Nat) (index : Bytes) :
    Concurs (Tuned agrees (Twins shape table)) (IndexedMap.first shape position index)
      (IndexedMap.first shape position index) one other := by
  refine (twins.next agree position (.start index)).bind fun found _ _ related => ?_
  obtain ⟨entry, cursor⟩ := found
  cases entry <;> exact .of_ok rfl rfl related

theorem Twins.listing (text : RowText) :
    Concurs (Tuned agrees (Twins shape table)) (IndexedMap.listing shape text)
      (IndexedMap.listing shape text) one other :=
  (twins.entries agree).bind fun _ _ _ related => .of_ok rfl rfl related

theorem Twins.header :
    Concurs (Tuned agrees (Twins shape table)) IndexedMap.header IndexedMap.header one other := by
  obtain ⟨image, twin, _, _, holds, holdsOther, limit, resembles⟩ := id twins
  have header := holdsOther.run_header
  rw [resembles.header] at header
  exact .of_ok holds.run_header header ⟨agree, twins⟩

end

/-! ### Editing -/

/-- The edit gives the answer, and the image stands for the next table afterwards. -/
def Image.Leads (shape : Shape) (change : Edit Image α) (answer : α) (next : SlotTable)
    (image : Image) : Prop :=
  ∃ changed orders, change image = .ok answer changed ∧ image.SameFrame changed ∧
    Represents shape changed next orders

section

variable [LawfulHost Left] [LawfulHost Right] (wellFormed : shape.WellFormed)
  (concerted : Concerted agrees) (agree : agrees one.buffer other.buffer) {image twin : Image}
  {orders ordersTwin : Nat → Nat → List Nat} (holds : Holds shape one image table orders)
  (holdsOther : Holds shape other twin table ordersTwin)

include wellFormed concerted agree holds holdsOther

/-- An edit that succeeds alike in both images does so in both sites. -/
theorem concurs_edit {change : Edit Image α} {answer : α} {next : SlotTable}
    (leads : image.Leads shape change answer next) (leadsTwin : twin.Leads shape change answer next)
    (transfers : ∀ changed, change image = .ok answer changed →
      ∃ later, change twin = .ok answer later ∧ changed.Alike shape later) :
    Concurs (Tuned agrees (Twins shape next)) (Store.edit (format shape) change)
      (Store.edit (format shape) change) one other := by
  obtain ⟨changed, order, run, same, represents⟩ := leads
  obtain ⟨changedTwin, orderTwin, runTwin, sameTwin, representsTwin⟩ := leadsTwin
  obtain ⟨later, again, alike⟩ := transfers changed run
  obtain ⟨-, rfl⟩ := EStateM.Result.ok.inj (again.symm.trans runTwin)
  obtain ⟨site, runEdit, holdsLater, -⟩ :=
    run_edit wellFormed holds.loaded holds.size_eq run same represents
  obtain ⟨siteOther, runEditOther, holdsLaterOther, -⟩ :=
    run_edit wellFormed holdsOther.loaded holdsOther.size_eq runTwin sameTwin representsTwin
  exact .of_quiet concerted agree (Quiet.edit _ _) (Quiet.edit _ _) runEdit runEditOther
    ⟨changed, later, order, orderTwin, holdsLater, holdsLaterOther, alike⟩

end

/-! ### Growth -/

/-- What growth does with a layout that exists. -/
def growInto {Buffer : Type} [Host Buffer] (shape : Shape) (capacity : Nat) (image : Image)
    (new : Layout) : Store Buffer Unit := do
  Store.relocate (image.layout.moves new) new.total
  writeHeader { ← header with capacity := capacity, bucketCapacity := 2 * capacity }
  Store.edit (format shape) (relinkAll shape image)
  Store.report (.slotsGrow .indexedMap image.header.capacity capacity)
  Store.report (.dimensionsRehashed shape.dimensionCount image.header.bucketCapacity (2 * capacity))

theorem asks_growInto {Buffer : Type} [Host Buffer] (shape : Shape) (capacity : Nat) (image : Image)
    (new : Layout) : Asks new.total (growInto shape capacity image new : Store Buffer Unit) :=
  (Asks.relocate _ _).bind fun _ => quiet_header.bind fun _ => (quiet_writeHeader _).bind fun _ =>
    (Quiet.edit _ _).bind fun _ => (Quiet.report _).bind fun _ => .report _

section

variable [LawfulHost Left] [LawfulHost Right] (wellFormed : shape.WellFormed)
  (concerted : Concerted agrees) (agree : agrees one.buffer other.buffer) {image twin : Image}
  {orders ordersTwin : Nat → Nat → List Nat} (holds : Holds shape one image table orders)
  (holdsOther : Holds shape other twin table ordersTwin)
  (resembles : Image.Resembles shape limit image twin)

include wellFormed concerted agree holds holdsOther resembles

theorem concurs_grow {capacity : Nat} (reached : IsCapacity image.header.log2MinGrowth capacity)
    (grows : image.header.capacity < capacity) :
    Concurs (Tuned agrees (Twins shape table)) (grow shape capacity) (grow shape capacity)
      one other := by
  have reachedTwin : IsCapacity twin.header.log2MinGrowth capacity := by
    rw [resembles.header]
    exact reached
  have growsTwin : twin.header.capacity < capacity := by
    rw [resembles.header]
    exact grows
  have related : Twins shape table one other :=
    ⟨image, twin, orders, ordersTwin, holds, holdsOther, limit, resembles⟩
  cases computed : Layout.compute shape capacity (2 * capacity) with
  | error failure =>
    exact .of_error (holds.run_grow_refused wellFormed reached grows (Or.inl computed))
      (holdsOther.run_grow_refused wellFormed reachedTwin growsTwin (Or.inl computed))
      ⟨agree, related⟩
  | ok new =>
    have same : grow shape capacity one = growInto shape capacity image new one := by
      rw [holds.grow_eq reached grows, growTo, computed]
      rfl
    have sameOther : grow shape capacity other = growInto shape capacity twin new other := by
      rw [holdsOther.grow_eq reachedTwin growsTwin, growTo, computed]
      rfl
    refine Concurs.congr (.of_asks concerted agree (asks_growInto shape capacity image new)
      (asks_growInto shape capacity twin new) related (fun error refused => ?_)
      (fun error refused => ?_) fun resized resizedOther granted grantedOther => ?_) same sameOther
    · rw [← same]
      exact holds.run_grow_refused wellFormed reached grows
        (Or.inr ⟨new, error, computed, refused, rfl⟩)
    · rw [← sameOther]
      exact holdsOther.run_grow_refused wellFormed reachedTwin growsTwin
        (Or.inr ⟨new, error, computed, refused, rfl⟩)
    · obtain ⟨later, grown, run, holdsLater, -, -, growsTo, -⟩ :=
        holds.run_grow wellFormed reached grows computed granted
      obtain ⟨laterOther, grownTwin, runOther, holdsLaterOther, -, -, growsToOther, -⟩ :=
        holdsOther.run_grow wellFormed reachedTwin growsTwin computed grantedOther
      have room : limit ≤ image.header.capacity := by
        rw [resembles.limit_eq holds.represents]
        exact holds.represents.room
      exact ⟨(), later, laterOther, same ▸ run, sameOther ▸ runOther, grown, grownTwin, _, _,
        holdsLater, holdsLaterOther, growsTo.alike resembles holds.represents.sound
          holdsOther.represents.sound room reached.named growsToOther⟩

end

end PackedStore.IndexedMap
