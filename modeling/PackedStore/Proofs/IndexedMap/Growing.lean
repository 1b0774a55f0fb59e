/-
This file says what growth does to an indexed map, whether it was demanded or is
what an insertion into a full map does before it links the new row. The rows stay in
their slots, the same slots are free in the same order, and no other slot comes into
use. What changes is the order of rows with the same index: all slots of a bucket are
taken from its front and linked in front of others, so a walk over these rows goes
through them the other way round, and a second growth restores it.
-/

import PackedStore.Proofs.IndexedMap.Replies
import PackedStore.Proofs.Slots.Rehashing

namespace PackedStore

/-! ### Slots that are sorted into other buckets -/

namespace KeyTable

variable {kind : KeyType} {capacity : Nat} {cell : Nat → Option Bytes} {order : Nat → List Nat}
  {chains : HashChains Bytes}

/-- All slots with a key are in the bucket of the key. -/
theorem filter_listing (table : KeyTable kind capacity cell order chains) (key : Bytes) :
    (((List.range (2 * capacity)).flatMap order).filter fun slot => cell slot = some key) =
      (order (kind.home capacity key)).filter fun slot => cell slot = some key := by
  have positive := table.capacity_pos
  have inside : kind.home capacity key < 2 * capacity := bucketOf_lt kind.hash key (by omega)
  rw [List.filter_flatMap, flatMap_range_eq inside]
  intro bucket other
  refine List.filter_eq_nil_iff.mpr fun slot member has => other ?_
  have there := of_decide_eq_true has
  exact table.chained.bucket_unique member (table.mem_home there)

/-- Slots that are sorted into buckets have a key in the bucket of the key, the last one in front. -/
theorem filter_grouped (slots : List Nat) (key : Bytes) :
    ((grouped kind capacity cell slots (kind.home capacity key)).filter
        fun slot => cell slot = some key) =
      (slots.filter fun slot => cell slot = some key).reverse := by
  rw [grouped, List.filter_reverse, List.filter_filter]
  refine congrArg List.reverse (List.filter_congr fun slot _ => ?_)
  by_cases there : cell slot = some key <;> simp [there]

end KeyTable

namespace IndexedMap

variable {Buffer : Type} [Host Buffer] {shape : Shape} {site later : Site Buffer} {image : Image}
  {table : SlotTable} {orders : Nat → Nat → List Nat} {state : OrderedTable}

/-- Linking slots anew turns the rows with an index around. -/
theorem SlotTable.matching_regrouped (table : SlotTable) {capacity position : Nat} {kind : KeyType}
    (isKind : shape.indices[position]? = some kind) (slots : Nat → List Nat) (index : Bytes) :
    table.matching position index
        (regrouped shape capacity table slots (position + 1) (kind.home capacity index)) =
      (table.matching position index (slots (position + 1))).reverse := by
  have thereKind : shape.kinds[position + 1]? = some kind := isKind
  simp only [regrouped, thereKind]
  exact KeyTable.filter_grouped (slots (position + 1)) index

/-- The rows with an index stand in the listing of all slots as they do in their bucket. -/
theorem Represents.matching_listing (represents : Represents shape image table orders)
    {position : Nat} {kind : KeyType} (isKind : shape.indices[position]? = some kind)
    (index : Bytes) :
    table.matching position index
        (listing image.header.capacity (orders (position + 1))) =
      table.matching position index
        (orders (position + 1) (kind.home image.header.capacity index)) := by
  obtain ⟨chains, -, keyTable⟩ := represents.dimension_eq isKind
  exact keyTable.filter_listing index

/-- Growth turns the rows with an index around. -/
theorem Represents.matching_grow (represents : Represents shape image table orders)
    {position : Nat} {kind : KeyType} (isKind : shape.indices[position]? = some kind)
    (capacity : Nat) (index : Bytes) :
    table.matching position index
        (((image.ordered table orders).grow shape capacity).orders (position + 1)
          (kind.home capacity index)) =
      (table.matching position index
        (orders (position + 1) (kind.home image.header.capacity index))).reverse := by
  rw [← represents.matching_listing isKind]
  exact table.matching_regrouped isKind
    (fun position => listing image.header.capacity (orders position)) index

/-! ### What growth keeps -/

/-- Which of the live slots is named first does not matter. -/
theorem Image.Partitioned.of_perm {live other free : List Nat}
    (partitioned : image.Partitioned shape live free) (perm : live.Perm other) :
    image.Partitioned shape other free := by
  have member (slot : Nat) : slot ∈ other ↔ slot ∈ live := perm.mem_iff.symm
  refine { partitioned with
    nodup_live := perm.nodup_iff.mp partitioned.nodup_live
    spread := ?_
    distinct := ?_
    live_lt := fun slot inOther => partitioned.live_lt slot ((member slot).mp inOther)
    mem_free := fun slot => by rw [member, partitioned.mem_free]
    count := partitioned.count.trans perm.length_eq }
  · intro position kind chains thereKind thereChains
    obtain ⟨size, order, spread⟩ := partitioned.spread position kind chains thereKind thereChains
    exact ⟨size, order, spread.leads, spread.visited.trans perm, spread.home⟩
  · intro slot inOther second inOther' same
    exact partitioned.distinct slot ((member slot).mp inOther) second ((member second).mp inOther')
      same

/-- The second image has more slots, but the same ones are live and free. -/
structure Image.Widened (shape : Shape) (image grown : Image) : Prop where
  capacity : image.header.capacity < grown.header.capacity
  count : grown.header.count = image.header.count
  allocatedIndex : grown.header.allocatedIndex = image.header.allocatedIndex
  slots : ∃ live free, image.Partitioned shape live free ∧ grown.Partitioned shape live free

/-- The map has become larger: it keeps its rows in their slots, and all walks go through them in
the opposite order. -/
structure Enlarged (shape : Shape) (site later : Site Buffer) : Prop where
  images : ∃ image grown rows, Image.load shape site.bytes = .ok image ∧
    Image.load shape later.bytes = .ok grown ∧ image.Widened shape grown ∧
    image.Keeps shape rows ∧ grown.Keeps shape rows ∧
    ReadsAs shape site rows ∧ ReadsAs shape later rows
  walks : ∀ position index, position < shape.indices.length → ∃ listed,
    WalksAs shape position index site listed ∧ WalksAs shape position index later listed.reverse

/-- Two growths restore every walk. -/
theorem Enlarged.restores {last : Site Buffer} (first : Enlarged shape site later)
    (second : Enlarged shape later last) {position : Nat} (index : Bytes)
    (inside : position < shape.indices.length) :
    ∃ listed, WalksAs shape position index site listed ∧ WalksAs shape position index last listed := by
  obtain ⟨listed, before, between⟩ := first.walks position index inside
  obtain ⟨other, between', after⟩ := second.walks position index inside
  rw [between'.unique between, List.reverse_reverse] at after
  exact ⟨listed, before, after⟩

/-- A site that carries the larger table of another one has become larger. -/
theorem Holds.enlarged (holds : Holds shape site image table orders) {capacity : Nat}
    (grows : image.header.capacity < capacity)
    (carries : Carries shape later ((image.ordered table orders).grow shape capacity)) :
    Enlarged shape site later := by
  obtain ⟨grown, holdsLater, same⟩ := carries
  have before := holds.represents
  have after := holdsLater.represents
  have isCapacity : grown.header.capacity = capacity := congrArg OrderedTable.capacity same
  refine ⟨⟨image, grown, table.rowAt, holds.loaded, holdsLater.loaded, ⟨?_, ?_, ?_, ?_⟩,
    before.keeps, after.keeps, holds.readsAs, holdsLater.readsAs⟩, ?_⟩
  · rw [isCapacity]
    exact grows
  · exact after.count.trans before.count.symm
  · exact after.allocated.trans before.allocated.symm
  · refine ⟨_, table.free, before.partitions, after.partitions.of_perm ?_⟩
    refine (List.perm_ext_iff_of_nodup after.nodup_listing before.nodup_listing).mpr fun slot => ?_
    rw [after.mem_listing, before.mem_listing]
    rfl
  · intro position index inside
    have isKind := List.getElem?_eq_getElem inside
    have walks := holdsLater.walksAs isKind index
    rw [isCapacity] at walks
    refine ⟨_, holds.walksAs isKind index, ?_⟩
    rw [rowsIn, ← List.filterMap_reverse, ← before.matching_grow isKind capacity index]
    exact walks

/-! ### Growths -/

/-- All slots of the map have been handed out and are in use. -/
def IsFull (site : Site Buffer) : Prop :=
  ∃ before, header site = .ok before site ∧ before.firstFree = none ∧
    before.allocatedIndex = before.capacity

/-- A growth that succeeds: more slots are demanded than there are, or an insertion into a full map
makes room for its row. -/
inductive Grows (shape : Shape) (site later : Site Buffer) : Prop where
  | demanded {capacity : Nat} {before : Header} (read : header site = .ok before site)
      (more : before.capacity < capacity)
      (run : setCapacity shape capacity site = .ok () later)
  | inserting (full : IsFull site) (run : makeSpace shape site = .ok () later)

theorem Holds.isFull (holds : Holds shape site image table orders) (full : IsFull site) :
    table.free = [] ∧ table.slots.length = image.header.capacity := by
  obtain ⟨before, read, whole⟩ := full
  obtain rfl := (EStateM.Result.ok.inj (holds.run_header.symm.trans read)).1
  exact holds.represents.isFull_iff.mp whole

/-- A growth leaves the table as it is, and its map has more slots. -/
theorem Holds.grown [LawfulHost Buffer] (wellFormed : shape.WellFormed)
    (holds : Holds shape site image table orders) (grows : Grows shape site later) :
    ∃ capacity, image.header.capacity < capacity ∧
      Carries shape later ((image.ordered table orders).grow shape capacity) := by
  cases grows with
  | @demanded demanded before read more run =>
    obtain rfl := (EStateM.Result.ok.inj (holds.run_header.symm.trans read)).1
    rcases holds.run_setCapacity wellFormed demanded with
      ⟨failure, refused, -⟩ | ⟨small, reserved, granted, follows⟩
    · exact absurd (run.symm.trans refused) (by simp)
    · obtain rfl := (EStateM.Result.ok.inj (run.symm.trans granted)).2
      have represents := holds.represents
      have rows : table.count ≤ maxCapacity :=
        Nat.le_trans represents.count_le represents.capacity_le
      obtain ⟨larger, least⟩ := grownCapacity_of rows small represents.framed.reached.le_log2
      obtain ⟨-, -, room⟩ := IsCapacity.of_grown least
      have reserves : (image.ordered table orders).reserve shape demanded =
          (image.ordered table orders).grow shape larger := by
        simp only [OrderedTable.reserve, Image.ordered, if_pos more, least]
      have carries := follows.stands
      rw [reserves] at carries
      exact ⟨larger, by omega, carries⟩
  | inserting full run =>
    have whole := holds.isFull full
    have spacious : (image.ordered table orders).withSpace shape =
        (image.ordered table orders).grow shape (2 * image.header.capacity) := if_pos whole
    rcases holds.run_makeSpace wellFormed with
      ⟨failure, refused, -⟩ | ⟨-, made, granted, -, roomy, holdsLater, same, -⟩
    · exact absurd (run.symm.trans refused) (by simp)
    · obtain rfl := (EStateM.Result.ok.inj (run.symm.trans granted)).2
      have positive := holds.represents.framed.reached.pos
      rw [spacious] at holdsLater same
      exact ⟨_, by omega, roomy, holdsLater, same⟩

/-- A row that is inserted into a full map is linked after the growth. -/
theorem grows_of_insertNew (full : IsFull site) {row : Row} {slot : Nat} {last : Site Buffer}
    (run : insertNew shape row site = .ok slot last) :
    ∃ later, Grows shape site later ∧
      Store.edit (format shape) (insertRow shape row) later = .ok slot last := by
  rw [insertNew_eq] at run
  obtain ⟨_, later, made, inserted⟩ := Edit.bind_eq_ok.mp run
  exact ⟨later, .inserting full made, inserted⟩

theorem Holds.insertNew_of_add (holds : Holds shape site image table orders) {row : Row} {slot : Nat}
    {last : Site Buffer} (run : add shape row site = .ok slot last) :
    insertNew shape row site = .ok slot last := by
  by_cases present : (table.find row.key).isSome
  · exact absurd ((holds.run_add_present present).symm.trans run) (by simp)
  · rw [← holds.run_add_absent (Option.not_isSome_iff_eq_none.mp present), run]

theorem Holds.insertNew_of_tryAdd (holds : Holds shape site image table orders) {row : Row}
    {last : Site Buffer} (run : tryAdd shape row site = .ok true last) :
    ∃ slot, insertNew shape row site = .ok slot last := by
  by_cases present : (table.find row.key).isSome
  · exact absurd ((holds.run_tryAdd_present present).symm.trans run) (by simp)
  · rw [holds.run_tryAdd_absent (Option.not_isSome_iff_eq_none.mp present)] at run
    simp only [Edit.run_bind, Edit.run_discard] at run
    cases inserted : insertNew shape row site with
    | ok slot middle =>
      rw [inserted] at run
      obtain rfl := (EStateM.Result.ok.inj run).2
      exact ⟨slot, rfl⟩
    | error failure middle =>
      rw [inserted] at run
      exact absurd run (by simp)

/-- Growth is exact: whatever a growth of a reachable map was made for, it keeps the rows, their slots
and the free slots and turns the walks around, and what adds a row to a full map links it after such
a growth. -/
theorem Reachable.growth_exact [LawfulHost Buffer] (wellFormed : shape.WellFormed)
    (reachable : Reachable shape site) :
    (∀ later, Grows shape site later → Enlarged shape site later ∧
      ∀ last, Grows shape later last → Enlarged shape later last ∧
        ∀ position index, position < shape.indices.length → ∃ listed,
          WalksAs shape position index site listed ∧ WalksAs shape position index last listed) ∧
      (IsFull site → ∀ row last,
        (∀ slot, add shape row site = .ok slot last → ∃ later, Grows shape site later ∧
          Store.edit (format shape) (insertRow shape row) later = .ok slot last) ∧
        (tryAdd shape row site = .ok true last → ∃ later slot, Grows shape site later ∧
          Store.edit (format shape) (insertRow shape row) later = .ok slot last)) := by
  obtain ⟨image, table, orders, holds⟩ := reachable.sound wellFormed
  constructor
  · intro later grows
    obtain ⟨capacity, more, carries⟩ := holds.grown wellFormed grows
    have first := holds.enlarged more carries
    obtain ⟨grown, holdsLater, -⟩ := carries
    refine ⟨first, fun last growsAgain => ?_⟩
    obtain ⟨larger, evenMore, carriesLast⟩ := holdsLater.grown wellFormed growsAgain
    have second := holdsLater.enlarged evenMore carriesLast
    exact ⟨second, fun position index inside => first.restores second index inside⟩
  · intro full row last
    constructor
    · exact fun slot run => grows_of_insertNew full (holds.insertNew_of_add run)
    · intro run
      obtain ⟨slot, inserted⟩ := holds.insertNew_of_tryAdd run
      obtain ⟨later, grows, linked⟩ := grows_of_insertNew full inserted
      exact ⟨later, slot, grows, linked⟩

/-- A map of one slot becomes full with its first row. It can be made larger then, and becomes larger
by itself when a second row comes. -/
theorem words_growth_exact :
    ∃ site : Site BlockBuffer,
      init (Shape.words 2) { minGrowth := 1 } ⟨.empty none, []⟩ = .ok () site ∧
      ∃ full, full = (Store.machine (Change.ask (Shape.words 2))).reached
          [.single (.add (.ofWords 1 [7, 8] 10))] site ∧ IsFull full ∧
        (∃ later, setCapacity (Shape.words 2) 4 full = .ok () later ∧
          Enlarged (Shape.words 2) full later) ∧
        ∃ later last, Enlarged (Shape.words 2) full later ∧
          Store.edit (format (Shape.words 2))
            (insertRow (Shape.words 2) (.ofWords 2 [7, 9] 20)) later = .ok 1 last ∧
          add (Shape.words 2) (.ofWords 2 [7, 9] 20) full = .ok 1 last := by
  have wellFormed := Shape.wellFormed_words 2
  obtain ⟨site, run⟩ := @run_init_of_granting BlockBuffer _ (Shape.words 2) ⟨.empty none, []⟩ _ _
    BlockBuffer.granting rfl wellFormed (Shape.supported_words 2) (by decide)
    (by decide) rfl { minGrowth := 1 } (by decide) (by decide)
  let start : List Change := [.single (.add (.ofWords 1 [7, 8] 10))]
  have fits : ∀ change ∈ start, change.Fits (Shape.words 2) := by
    simp only [start, List.mem_singleton, forall_eq]
    exact Row.fits_ofWords 1 [7, 8] 10
  have tracks := Tracks.of_init BlockBuffer.granting wellFormed rfl run rfl
  obtain ⟨-, here, carries⟩ := tracks.run BlockBuffer.granting wellFormed (by decide) fits
  obtain ⟨before, read, -, capacity, used, free⟩ := carries.run_header
  have full : IsFull ((Store.machine (Change.ask (Shape.words 2))).reached start site) :=
    ⟨before, read, free, used.trans capacity.symm⟩
  obtain ⟨image, holds, same⟩ := carries
  obtain ⟨growths, insertions⟩ :=
    ((Reachable.init { minGrowth := 1 } run).followed fits).growth_exact wellFormed
  refine ⟨site, run, _, rfl, full, ?_, ?_⟩
  · rcases holds.run_setCapacity wellFormed 4 with
      ⟨failure, -, ⟨large, -⟩ | refuses⟩ | ⟨-, later, runGrow, -⟩
    · exact absurd large (by decide)
    · exact absurd refuses (holds.not_cannotGrow wellFormed BlockBuffer.granting here (by decide))
    · have more : before.capacity < 4 := by
        rw [capacity]
        decide
      exact ⟨later, runGrow, (growths later (.demanded read more runGrow)).1⟩
  · have fitsRow : (Row.ofWords 2 [7, 9] 20).Fits (Shape.words 2) := Row.fits_ofWords 2 [7, 9] 20
    have absent : (Machine.reached (OrderedTable.step (Shape.words 2)) start
        (.empty 1 0)).table.find (Row.ofWords 2 [7, 9] 20).key = none := by decide
    rcases holds.run_insertNew wellFormed fitsRow
        (holds.represents.wellFormed.not_find absent) with
      ⟨failure, -, ⟨large, -⟩ | ⟨-, refuses⟩⟩ | ⟨-, last, runAdd, -⟩
    · exact absurd large (by decide)
    · exact absurd refuses (holds.not_cannotGrow wellFormed BlockBuffer.granting here (by decide))
    · have added := (holds.run_add_absent absent).trans runAdd
      obtain ⟨later, grows, linked⟩ := (insertions full _ last).1 _ added
      exact ⟨later, last, (growths later grows).1, linked, added⟩

end IndexedMap

end PackedStore
