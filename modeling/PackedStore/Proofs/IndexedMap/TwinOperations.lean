/-
This file says that an indexed map does the same in two hosts that answer the same
requests in the same way, whatever bytes they add: every operation has the same
outcome in both, and the maps resemble each other afterwards. An operation that fails
in one of them fails in the other for the same reason.
-/

import PackedStore.Proofs.IndexedMap.Replies
import PackedStore.Proofs.IndexedMap.Twins

namespace PackedStore.IndexedMap

open Store (Asks Concurs Quiet Tuned)

variable {Left Right α : Type} [Host Left] [Host Right] {agrees : Left → Right → Prop}
  {shape : Shape} {one : Site Left} {other : Site Right} {table : SlotTable} {limit : Nat}

theorem Twins.twinned {first : Store Left α} {second : Store Right α}
    (concurs : Concurs (Tuned agrees (Twins shape table)) first second one other) :
    Concurs (Tuned agrees (Twinned shape)) first second one other :=
  concurs.weaken fun _ _ tuned => ⟨tuned.buffers, table, tuned.sites⟩

/-- What is reported changes no map. -/
theorem Twinned.reported (tuned : Tuned agrees (Twinned shape) one other)
    (events eventsOther : List Event) :
    Tuned agrees (Twinned shape) { one with events } { other with events := eventsOther } := by
  obtain ⟨agree, table, image, twin, orders, ordersTwin, holds, holdsOther, alike⟩ := tuned
  exact ⟨agree, table, image, twin, orders, ordersTwin,
    ⟨holds.loaded, holds.size_eq, holds.represents⟩,
    ⟨holdsOther.loaded, holdsOther.size_eq, holdsOther.represents⟩, alike⟩

/-- What compaction does with a layout that exists. -/
def compactInto {Buffer : Type} [Host Buffer] (shape : Shape) (capacity count holes : Nat)
    (new : Layout) : Store Buffer Unit := do
  Store.resize new.total
  writeHeader { ← header with capacity := capacity, bucketCapacity := 2 * capacity }
  Store.edit (format shape) (clearRows shape)
  Store.report (.flattened count holes capacity)

/-- What flattening does with a layout that exists. -/
def flattenInto {Buffer : Type} [Host Buffer] (shape : Shape) (capacity holes : Nat)
    (rows : List Row) (new : Layout) : Store Buffer Unit := do
  compactInto shape capacity rows.length holes new
  Store.edit (format shape) do
    putHeader fun header => { header with count := rows.length, allocatedIndex := rows.length }
    storeRows shape 0 rows

theorem asks_flattenInto {Buffer : Type} [Host Buffer] (shape : Shape) (capacity holes : Nat)
    (rows : List Row) (new : Layout) :
    Asks new.total (flattenInto shape capacity holes rows new : Store Buffer Unit) :=
  ((Asks.resize _).bind fun _ => quiet_header.bind fun _ => (quiet_writeHeader _).bind fun _ =>
    (Quiet.edit _ _).bind fun _ => .report _).bind fun _ => .edit _ _

theorem Holds.flatten_eq_into {Buffer : Type} [Host Buffer] {site : Site Buffer} {image : Image}
    {orders : Nat → Nat → List Nat} (holds : Holds shape site image table orders) {capacity : Nat}
    (least : grownCapacity table.count table.count image.header.log2MinGrowth = .ok capacity)
    {new : Layout} (computed : Layout.compute shape capacity (2 * capacity) = .ok new) :
    flatten shape site = flattenInto shape capacity table.free.length
      ((Represents.listing image.header.capacity (orders 0)).filterMap table.rowAt) new site := by
  have compacts : compact shape site =
      compactInto shape capacity table.count table.free.length new site := by
    rw [holds.compact_eq least, compactTo, computed]
    rfl
  rw [holds.flatten_eq, flattenInto, holds.length_listed, Edit.run_bind, Edit.run_bind, compacts]

section

variable [LawfulHost Left] [LawfulHost Right] (wellFormed : shape.WellFormed)
  (concerted : Concerted agrees) (agree : agrees one.buffer other.buffer)
  (twins : Twins shape table one other)

include wellFormed concerted agree twins

/-! ### Capacity -/

theorem Twins.setCapacity (capacity : Nat) :
    Concurs (Tuned agrees (Twins shape table)) (IndexedMap.setCapacity shape capacity)
      (IndexedMap.setCapacity shape capacity) one other := by
  obtain ⟨image, twin, _, _, holds, holdsOther, limit, resembles⟩ := id twins
  have header := holdsOther.run_header
  rw [resembles.header] at header
  refine .read holds.run_header header ?_
  by_cases enough : image.header.capacity < capacity
  · rw [if_pos enough, if_pos enough]
    refine .check ⟨agree, twins⟩ fun larger grown => ?_
    obtain ⟨reached, -, room⟩ := IsCapacity.of_grown grown
    exact concurs_grow wellFormed concerted agree holds holdsOther resembles reached
      (Nat.lt_of_lt_of_le enough room)
  · rw [if_neg enough, if_neg enough]
    exact .of_ok rfl rfl ⟨agree, twins⟩

theorem Twins.makeSpace :
    Concurs (Tuned agrees (Twins shape table)) (IndexedMap.makeSpace shape)
      (IndexedMap.makeSpace shape) one other := by
  obtain ⟨image, twin, _, _, holds, holdsOther, limit, resembles⟩ := id twins
  have header := holdsOther.run_header
  rw [resembles.header] at header
  refine .read holds.run_header header ?_
  by_cases full : image.header.firstFree = none ∧ image.header.allocatedIndex = image.header.capacity
  · rw [if_pos full, if_pos full]
    refine .check ⟨agree, twins⟩ fun larger grown => ?_
    have framed := holds.represents.framed
    have rows : image.header.count ≤ image.header.capacity := by
      rw [holds.represents.count]
      exact holds.represents.count_le
    rw [nextCapacity_eq framed.reached rows] at grown
    by_cases largest : image.header.capacity = maxCapacity
    · rw [if_pos largest] at grown
      exact absurd grown (by simp)
    · rw [if_neg largest] at grown
      obtain rfl := Except.ok.inj grown
      exact concurs_grow wellFormed concerted agree holds holdsOther resembles
        (framed.reached.double largest) framed.reached.lt_double
  · rw [if_neg full, if_neg full]
    exact .of_ok rfl rfl ⟨agree, twins⟩

/-! ### Adding -/

theorem Twins.insertNew {row : Row} (fits : row.Fits shape) (absent : table.find row.key = none) :
    Concurs (Tuned agrees (Twinned shape)) (IndexedMap.insertNew shape row)
      (IndexedMap.insertNew shape row) one other := by
  obtain ⟨image, twin, _, _, holds, holdsOther, limit, resembles⟩ := id twins
  refine Concurs.congr ?_ (insertNew_eq row one) (insertNew_eq row other)
  refine (twins.makeSpace wellFormed concerted agree).chain
    (fun _ _ tuned => ⟨tuned.buffers, table, tuned.sites⟩)
    fun _ later laterOther made _ tuned => ?_
  obtain ⟨roomy, twinLater, _, _, holdsLater, holdsLaterOther, limitLater, alike⟩ := tuned.sites
  have missing (slot : Nat) : table.cell 0 slot ≠ some row.key := fun there => by
    have found := holds.represents.wellFormed.find_eq_some.mpr there
    exact absurd (absent.symm.trans found) (by simp)
  have space : table.free ≠ [] ∨ table.slots.length < roomy.header.capacity := by
    rcases holds.run_makeSpace wellFormed with
      ⟨_, refused, -⟩ | ⟨-, _, run, -, spacious, again, -, room⟩
    · exact absurd (made.symm.trans refused) (by simp)
    · obtain ⟨-, rfl⟩ := EStateM.Result.ok.inj (made.symm.trans run)
      obtain rfl := Except.ok.inj (holdsLater.loaded.symm.trans again.loaded)
      exact room
  obtain ⟨changed, run, same, represents⟩ :=
    holdsLater.represents.insertRow_spec space fits missing
  obtain ⟨changedTwin, runTwin, sameTwin, representsTwin⟩ :=
    holdsLaterOther.represents.insertRow_spec (by rw [alike.header]; exact space) fits missing
  exact (concurs_edit wellFormed concerted tuned.buffers holdsLater holdsLaterOther
    ⟨changed, _, run, same, represents⟩ ⟨changedTwin, _, runTwin, sameTwin, representsTwin⟩
    fun changed => transfers_insertRow fits _ _ _ changed alike).weaken
      fun _ _ tuned => ⟨tuned.buffers, _, tuned.sites⟩

theorem Twins.tryAdd {row : Row} (fits : row.Fits shape) :
    Concurs (Tuned agrees (Twinned shape)) (IndexedMap.tryAdd shape row)
      (IndexedMap.tryAdd shape row) one other := by
  obtain ⟨image, twin, _, _, holds, holdsOther, -⟩ := id twins
  refine .read (holds.run_contains row.key) (holdsOther.run_contains row.key) ?_
  cases found : table.find row.key with
  | some slot => exact .of_ok rfl rfl ⟨agree, table, twins⟩
  | none =>
    exact ((twins.insertNew wellFormed concerted agree fits found).map fun _ => ()).bind
      fun _ _ _ related => .of_ok rfl rfl related

theorem Twins.add {row : Row} (fits : row.Fits shape) :
    Concurs (Tuned agrees (Twinned shape)) (IndexedMap.add shape row)
      (IndexedMap.add shape row) one other := by
  obtain ⟨image, twin, _, _, holds, holdsOther, -⟩ := id twins
  refine .read (holds.run_contains row.key) (holdsOther.run_contains row.key) ?_
  refine .check ⟨agree, table, twins⟩ fun _ isAbsent => ?_
  have absent : table.find row.key = none :=
    Option.isSome_eq_false_iff.mp (demand_eq_ok.mp isAbsent) |> Option.isNone_iff_eq_none.mp
  exact twins.insertNew wellFormed concerted agree fits absent

/-! ### Removing and changing values -/

theorem Twins.remove (key : Bytes) :
    Concurs (Tuned agrees (Twinned shape)) (IndexedMap.remove shape key)
      (IndexedMap.remove shape key) one other := by
  obtain ⟨image, twin, _, _, holds, holdsOther, limit, resembles⟩ := id twins
  refine .read (holds.run_find key) (holdsOther.run_find key) ?_
  cases found : table.find key with
  | none => exact .of_ok rfl rfl ⟨agree, table, twins⟩
  | some slot =>
    obtain ⟨row, there, -⟩ := SlotTable.cell_zero_eq_some.mp (SlotTable.cell_of_find found)
    have below : slot < limit := by
      rw [resembles.limit_eq holds.represents]
      exact SlotTable.row_lt there
    obtain ⟨changed, run, same, represents⟩ := holds.represents.removeRow_spec there
    obtain ⟨changedTwin, runTwin, sameTwin, representsTwin⟩ :=
      holdsOther.represents.removeRow_spec there
    refine Concurs.bind (Twins.twinned (concurs_edit wellFormed concerted agree holds holdsOther
      ⟨changed, _, run, same, represents⟩ ⟨changedTwin, _, runTwin, sameTwin, representsTwin⟩
      fun changed ran => ?_)) fun _ _ _ related => .of_ok rfl rfl related
    obtain ⟨later, again, alike⟩ := transfers_removeRow below _ _ _ changed resembles ran
    exact ⟨later, again, limit, alike⟩

theorem Twins.exchange (key : Bytes) {value : Bytes} (size : value.size = shape.value.size) :
    Concurs (Tuned agrees (Twinned shape)) (IndexedMap.exchange shape key value)
      (IndexedMap.exchange shape key value) one other := by
  obtain ⟨image, twin, _, _, holds, holdsOther, limit, resembles⟩ := id twins
  refine .read (holds.run_find key) (holdsOther.run_find key) ?_
  cases found : table.find key with
  | none => exact .of_ok rfl rfl ⟨agree, table, twins⟩
  | some slot =>
    obtain ⟨row, there, -⟩ := SlotTable.cell_zero_eq_some.mp (SlotTable.cell_of_find found)
    have below : slot < limit := by
      rw [resembles.limit_eq holds.represents]
      exact SlotTable.row_lt there
    have leads {image : Image} {orders : Nat → Nat → List Nat}
        (represents : Represents shape image table orders) :
        image.Leads shape (do
          let image ← get
          let old ← fetch image.values slot
          set { image with values := image.values.setIfInBounds slot value }
          return some old) (some row.value) (table.setValue slot value) := by
      have fetched := fetch_of (represents.valued.getElem?_eq slot row there)
      refine ⟨{ image with values := image.values.setIfInBounds slot value }, orders, ?_,
        ⟨rfl, rfl⟩, represents.setValue there size⟩
      simp only [Edit.run_bind, Edit.run_get, fetched, Edit.run_lift_ok, Edit.run_set,
        Edit.run_pure]
    refine Twins.twinned (concurs_edit wellFormed concerted agree holds holdsOther
      (leads holds.represents) (leads holdsOther.represents) fun changed ran => ?_)
    obtain ⟨later, again, alike⟩ := transfers_exchange below value _ _ _ changed resembles ran
    exact ⟨later, again, limit, alike⟩

/-! ### Whole maps -/

theorem Twins.clear :
    Concurs (Tuned agrees (Twinned shape)) (IndexedMap.clear shape) (IndexedMap.clear shape)
      one other := by
  obtain ⟨image, twin, _, _, holds, holdsOther, limit, resembles⟩ := id twins
  have sound := holds.represents.sound
  have soundOther := holdsOther.represents.sound
  obtain ⟨changed, run, same, represents⟩ := clearRows_spec holds.represents.framed sound
  obtain ⟨changedTwin, runTwin, sameTwin, representsTwin⟩ :=
    clearRows_spec holdsOther.represents.framed soundOther
  refine Twins.twinned (concurs_edit wellFormed concerted agree holds holdsOther
    ⟨changed, _, run, same, represents⟩ ⟨changedTwin, _, runTwin, sameTwin, representsTwin⟩
    fun changed ran => ?_)
  obtain ⟨later, again, alike⟩ := transfers_clearRows _ _ _ changed
    ⟨sound, soundOther, holds.represents.framed.named, by rw [resembles.header]⟩ ran
  exact ⟨later, again, 0, alike⟩

theorem Twins.removeRange (start count : Nat) :
    Concurs (Tuned agrees (Twinned shape)) (IndexedMap.removeRange shape start count)
      (IndexedMap.removeRange shape start count) one other := by
  obtain ⟨image, twin, _, _, holds, holdsOther, limit, resembles⟩ := id twins
  have header := holdsOther.run_header
  rw [resembles.header] at header
  have represents := holds.represents
  have related : Tuned agrees (Twinned shape) one other := ⟨agree, table, twins⟩
  refine .read holds.run_header header (.check related fun _ isFull => .check related
    fun _ isRange => ?_)
  have noHoles : image.header.firstFree = none := demand_eq_ok.mp isFull
  have full : table.free = [] := represents.firstFree_eq_none.mp noHoles
  obtain ⟨inside, room⟩ := demand_eq_ok.mp isRange
  have rows : image.header.count = table.slots.length :=
    represents.count.trans (represents.wellFormed.full full).1
  by_cases some : 0 < count
  · rw [if_pos some, if_pos some, rows]
    have range : start + count ≤ table.slots.length := by omega
    obtain ⟨changed, run, same, dropped⟩ := represents.dropRange_spec full range
    obtain ⟨changedTwin, runTwin, sameTwin, droppedTwin⟩ :=
      holdsOther.represents.dropRange_spec full range
    refine Concurs.bind (Twins.twinned (concurs_edit wellFormed concerted agree holds holdsOther
      ⟨changed, _, run, same, dropped⟩ ⟨changedTwin, _, runTwin, sameTwin, droppedTwin⟩
      fun changed ran => ?_)) fun _ _ _ related => .of_ok rfl rfl (Twinned.reported related _ _)
    have limits := resembles.limit_eq represents
    subst limits
    obtain ⟨later, again, alike⟩ := transfers_dropRange _ _ _ changed ⟨resembles, noHoles⟩ ran
    exact ⟨later, again, _, alike⟩
  · rw [if_neg some, if_neg some]
    exact .of_ok rfl rfl related

theorem Twins.flatten :
    Concurs (Tuned agrees (Twinned shape)) (IndexedMap.flatten shape) (IndexedMap.flatten shape)
      one other := by
  obtain ⟨image, twin, orders, ordersTwin, holds, holdsOther, limit, resembles⟩ := id twins
  have represents := holds.represents
  have related : Twinned shape one other := ⟨table, twins⟩
  have rows : table.count ≤ maxCapacity :=
    Nat.le_trans represents.count_le represents.capacity_le
  obtain ⟨capacity, least⟩ := grownCapacity_of rows rows represents.framed.reached.le_log2
  obtain ⟨reached, -, -⟩ := IsCapacity.of_grown least
  have leastTwin : grownCapacity table.count table.count twin.header.log2MinGrowth =
      .ok capacity := by
    rw [resembles.header]
    exact least
  have listed : (Represents.listing twin.header.capacity (ordersTwin 0)).filterMap table.rowAt =
      (Represents.listing image.header.capacity (orders 0)).filterMap table.rowAt := by
    have same := (twins.entries agree).outcome_eq
    rw [Store.outcome_ok holds.run_entries, Store.outcome_ok holdsOther.run_entries] at same
    rw [← map_row_rowsIn, ← map_row_rowsIn, Except.ok.inj same]
  cases computed : Layout.compute shape capacity (2 * capacity) with
  | error failure =>
    exact .of_error (holds.run_flatten_refused least (Or.inl computed))
      (holdsOther.run_flatten_refused leastTwin (Or.inl computed)) ⟨agree, related⟩
  | ok new =>
    have same := holds.flatten_eq_into least computed
    have sameOther := holdsOther.flatten_eq_into leastTwin computed
    refine Concurs.congr (.of_asks concerted agree (asks_flattenInto shape capacity _ _ new)
      (asks_flattenInto shape capacity _ _ new) related (fun error refused => ?_)
      (fun error refused => ?_) fun resized resizedOther granted grantedOther => ?_) same sameOther
    · rw [← same]
      exact holds.run_flatten_refused least (Or.inr ⟨new, error, computed, refused, rfl⟩)
    · rw [← sameOther]
      exact holdsOther.run_flatten_refused leastTwin (Or.inr ⟨new, error, computed, refused, rfl⟩)
    · obtain ⟨later, emptied, changed, run, blank, fill, holdsLater, -⟩ :=
        holds.run_flatten_granted wellFormed least computed granted rfl
      obtain ⟨laterOther, emptiedTwin, changedTwin, runOther, blankTwin, fillTwin,
          holdsLaterOther, -⟩ :=
        holdsOther.run_flatten_granted wellFormed leastTwin computed grantedOther listed
      have alike := blank.alike blankTwin reached.named (by rw [resembles.header])
      obtain ⟨filled, again, alikeLater⟩ := transfers_fillRows (fun row => holds.fits_listed)
        _ _ _ _ alike fill
      obtain ⟨-, rfl⟩ := EStateM.Result.ok.inj (again.symm.trans fillTwin)
      exact ⟨(), later, laterOther, same ▸ run, sameOther ▸ runOther, _, changed, filled, _, _,
        holdsLater, holdsLaterOther, _, alikeLater⟩

/-! ### All requests -/

theorem Twins.operation {operation : Operation} (fits : operation.Fits shape) :
    Concurs (Tuned agrees (Twinned shape)) (operation.run shape) (operation.run shape) one other := by
  have answered {β : Type} {first : Store Left β} {second : Store Right β} (answer : β → Answer)
      (concurs : Concurs (Tuned agrees (Twinned shape)) first second one other) :
      Concurs (Tuned agrees (Twinned shape)) (do return answer (← first))
        (do return answer (← second)) one other :=
    concurs.bind fun _ _ _ related => .of_ok rfl rfl related
  obtain ⟨image, twin, _, _, holds, holdsOther, -⟩ := id twins
  have related : Tuned agrees (Twinned shape) one other := ⟨agree, table, twins⟩
  have header := Twins.twinned (twins.header agree)
  cases operation with
  | tryAdd row => exact answered .flag (twins.tryAdd wellFormed concerted agree fits)
  | add row => exact answered .number (twins.add wellFormed concerted agree fits)
  | remove key => exact answered .flag (twins.remove wellFormed concerted agree key)
  | exchange key value => exact answered .value (twins.exchange wellFormed concerted agree key fits)
  | setCapacity capacity =>
    exact answered (fun _ => .done)
      (Twins.twinned (twins.setCapacity wellFormed concerted agree capacity))
  | clear => exact answered (fun _ => .done) (twins.clear wellFormed concerted agree)
  | get key => exact answered .row (Twins.twinned (twins.get? agree key))
  | find key => exact answered .slot (.of_ok (holds.run_find key) (holdsOther.run_find key) related)
  | contains key =>
    exact answered .flag (.of_ok (holds.run_contains key) (holdsOther.run_contains key) related)
  | count => exact answered (fun header => .number header.count) header
  | allocatedIndex => exact answered (fun header => .number header.allocatedIndex) header
  | hasHoles => exact answered (fun header => .flag header.firstFree.isSome) header
  | isEmpty => exact answered (fun header => .flag (header.count == 0)) header

theorem Twins.change {change : Change} (fits : change.Fits shape) :
    Concurs (Tuned agrees (Twinned shape)) (change.ask shape) (change.ask shape) one other := by
  cases change with
  | single operation => exact twins.operation wellFormed concerted agree fits
  | flatten =>
    exact (twins.flatten wellFormed concerted agree).bind
      fun _ _ _ related => .of_ok rfl rfl related
  | removeRange start count =>
    exact (twins.removeRange wellFormed concerted agree start count).bind
      fun _ _ _ related => .of_ok rfl rfl related

/-- Whatever is asked of a map, it replies the same in both hosts. -/
theorem Twins.request {request : Request} (brings : request.Brings shape) :
    Concurs (Tuned agrees (Twinned shape)) (request.ask shape) (request.ask shape) one other := by
  cases request with
  | perform change => exact (twins.change wellFormed concerted agree brings).map _
  | header => exact (Twins.twinned (twins.header agree)).map _
  | entryAt slot => exact (Twins.twinned (twins.entryAt agree slot)).map _
  | entriesFor position index => exact (Twins.twinned (twins.entriesFor agree position index)).map _
  | entries => exact (Twins.twinned (twins.entries agree)).map _
  | first position index => exact (Twins.twinned (twins.first agree position index)).map _
  | next position cursor => exact (Twins.twinned (twins.next agree position cursor)).map _
  | listing text => exact (Twins.twinned (twins.listing agree text)).map _

end

/-! ### Creation -/

theorem asks_initTo {Buffer : Type} [Host Buffer] (shape : Shape) (header : Header)
    (layout : Layout) : Asks layout.total (initTo shape header layout : Store Buffer Unit) :=
  (Asks.resize _).bind fun _ => (quiet_writeHeader _).bind fun _ => .edit _ _

section

variable [LawfulHost Left] [LawfulHost Right] (wellFormed : shape.WellFormed)

include wellFormed

/-- Maps that have been created with the same sizing resemble each other. -/
theorem twinned_of_init {start : Site Left} {startOther : Site Right} {sizing : Sizing}
    (run : init shape sizing start = .ok () one)
    (runOther : init shape sizing startOther = .ok () other) : Twinned shape one other := by
  obtain ⟨image, holds, -, least, -, emptied⟩ := holds_of_init wellFormed run
  obtain ⟨twin, holdsOther, -, leastOther, -, emptiedOther⟩ := holds_of_init wellFormed runOther
  have capacity := Except.ok.inj (leastOther.symm.trans least)
  exact ⟨.empty, image, twin, _, _, holds, holdsOther, 0,
    emptied.alike emptiedOther holds.represents.framed.named (by rw [capacity])⟩

/-- A map is created in both hosts or in none. -/
theorem concurs_init (concerted : Concerted agrees) (agree : agrees one.buffer other.buffer)
    (size : other.bytes.size = one.bytes.size) (sizing : Sizing) :
    Concurs (Tuned agrees fun _ _ => True) (init shape sizing) (init shape sizing) one other := by
  have related : Tuned agrees (fun _ _ => True) one other := ⟨agree, trivial⟩
  refine .read Store.run_length (by rw [← size]; exact Store.run_length) ?_
  refine .check related fun _ isEmpty => .check related fun capacity grown =>
    .check related fun buckets isBuckets => .check related fun layout computed =>
    .check related fun _ isCapacity => .check related fun _ isBucketCapacity =>
    .check related fun _ isRowSize => ?_
  obtain ⟨reached, -, -⟩ := IsCapacity.of_grown grown
  obtain rfl : 2 * capacity = buckets :=
    Except.ok.inj ((bucketCapacityFor_eq reached).symm.trans isBuckets)
  obtain ⟨-, rfl⟩ := toWord32_eq_ok.mp isCapacity
  obtain ⟨-, rfl⟩ := toWord32_eq_ok.mp isBucketCapacity
  obtain ⟨rowSize, rfl⟩ := toWord32_eq_ok.mp isRowSize
  refine .of_asks concerted agree (asks_initTo shape _ layout) (asks_initTo shape _ layout) trivial
    (fun error refused => (Edit.run_bind _ _ _).trans (by rw [Store.run_resize_error refused]))
    (fun error refused => (Edit.run_bind _ _ _).trans (by rw [Store.run_resize_error refused]))
    fun resized resizedOther granted grantedOther => ?_
  obtain ⟨later, run⟩ := run_initTo wellFormed reached rowSize computed granted
  obtain ⟨laterOther, runOther⟩ := run_initTo wellFormed reached rowSize computed grantedOther
  exact ⟨(), later, laterOther, run, runOther, trivial⟩

end

end PackedStore.IndexedMap
