/-
This file states what is true of an indexed map at all times: however it was
changed, and whichever changes failed, the live slots are partitioned by the
buckets of every dimension, the other used slots are on the list of free ones, and
the header and the length of the block agree with that. The words are those of the
arrays in the block, not of the table that they stand for.
-/

import PackedStore.Proofs.IndexedMap.Simulation

namespace PackedStore.IndexedMap

variable {Buffer : Type} [Host Buffer] {shape : Shape} {site : Site Buffer}

/-! ### Reachable sites -/

/-- A change of a map, of one row or of many. -/
inductive Change where
  | single (operation : Operation)
  | flatten
  | removeRange (start count : Nat)

namespace Change

def run (shape : Shape) : Change → Store Buffer Unit
  | single operation => discard (operation.run shape)
  | flatten => IndexedMap.flatten shape
  | removeRange start count => IndexedMap.removeRange shape start count

/-- The change brings rows and values that have the types of the shape. -/
def Fits (shape : Shape) : Change → Prop
  | single operation => operation.Fits shape
  | _ => True

end Change

/-- The answer of a single operation plays no part in what it leads to. -/
theorem Change.outcome_single (operation : Operation) (site : Site Buffer) :
    (Store.outcome ((Change.single operation).run shape) site).2 =
      (Store.outcome (operation.run shape) site).2 := by
  simp only [Store.outcome, Change.run, Edit.run_discard]
  cases operation.run shape site <;> rfl

/-- The sites that creation and changes lead to, failed changes included. -/
inductive Reachable (shape : Shape) : Site Buffer → Prop where
  | init {site later : Site Buffer} (sizing : Sizing)
      (run : init shape sizing site = .ok () later) : Reachable shape later
  | change {site : Site Buffer} (change : Change) (fits : change.Fits shape)
      (reachable : Reachable shape site) :
      Reachable shape (Store.outcome (change.run shape) site).2

/-- The site holds some table. -/
def Sound (shape : Shape) (site : Site Buffer) : Prop :=
  ∃ image table orders, Holds shape site image table orders

theorem Carries.sound {state : OrderedTable} (carries : Carries shape site state) :
    Sound shape site := by
  obtain ⟨image, holds, -⟩ := carries
  exact ⟨image, state.table, state.orders, holds⟩

/-- A change leads from a sound site to a sound site. -/
theorem Sound.change [LawfulHost Buffer] (wellFormed : shape.WellFormed)
    (sound : Sound shape site) {change : Change} (fits : change.Fits shape) :
    Sound shape (Store.outcome (change.run shape) site).2 := by
  obtain ⟨image, table, orders, holds⟩ := sound
  cases change with
  | single operation =>
    rw [Change.outcome_single]
    rcases holds.agrees wellFormed fits with ⟨failure, outcome, -⟩ | ⟨later, outcome, follows⟩
    · rw [outcome]
      exact ⟨image, table, orders, holds⟩
    · rw [outcome]
      exact follows.stands.sound
  | flatten =>
    show Sound shape (Store.outcome (flatten shape) site).2
    rcases holds.run_flatten wellFormed with ⟨failure, refused, -⟩ | ⟨later, run, _, -, follows⟩
    · rw [Store.outcome_error refused]
      exact ⟨image, table, orders, holds⟩
    · rw [Store.outcome_ok run]
      exact follows.stands.sound
  | removeRange start count =>
    show Sound shape (Store.outcome (removeRange shape start count) site).2
    rcases holds.run_removeRange wellFormed start count with
      ⟨misuse, refused, -⟩ | ⟨later, run, -, follows⟩
    · rw [Store.outcome_error refused]
      exact ⟨image, table, orders, holds⟩
    · rw [Store.outcome_ok run]
      exact follows.stands.sound

theorem Reachable.sound [LawfulHost Buffer] (wellFormed : shape.WellFormed)
    (reachable : Reachable shape site) : Sound shape site := by
  induction reachable with
  | init sizing run =>
    obtain ⟨image, holds, -⟩ := holds_of_init wellFormed run
    exact ⟨image, SlotTable.empty, _, holds⟩
  | change change fits _ inductionHypothesis => exact inductionHypothesis.change wellFormed fits

/-- Runs of single operations lead to reachable sites. -/
theorem Reachable.reached (reachable : Reachable shape site) {operations : List Operation}
    (fits : ∀ operation ∈ operations, operation.Fits shape) :
    Reachable shape ((Store.machine (Operation.run shape)).reached operations site) := by
  induction operations generalizing site with
  | nil => exact reachable
  | cons operation rest inductionHypothesis =>
    have next := reachable.change (.single operation) (fits operation List.mem_cons_self)
    rw [Change.outcome_single] at next
    exact inductionHypothesis next fun other member => fits other (List.mem_cons_of_mem _ member)

/-! ### The partition of the slots -/

/-- The chains of all buckets together visit exactly the listed slots, each one once and in the
bucket of its key. -/
structure Spread (kind : KeyType) (live : List Nat) (chains : HashChains Bytes)
    (order : Nat → List Nat) : Prop where
  leads : ∀ bucket head, chains.buckets[bucket]? = some head →
    Link.Leads chains.next head (order bucket)
  visited : ((List.range chains.buckets.size).flatMap order).Perm live
  home : ∀ bucket, ∀ slot ∈ order bucket, ∃ key, chains.keys[slot]? = some key ∧
    bucketOf kind.hash key (chains.buckets.size - 1) = bucket

/-- Every used slot is either live, and then linked in every dimension, or free; the header counts
both. -/
structure Image.Partitioned (shape : Shape) (image : Image) (live free : List Nat) : Prop where
  nodup_live : live.Nodup
  length_dimensions : image.dimensions.length = shape.kinds.length
  spread : ∀ (position : Nat) (kind : KeyType) (chains : HashChains Bytes),
    shape.kinds[position]? = some kind → image.dimensions[position]? = some chains →
    chains.buckets.size = image.header.bucketCapacity ∧
      ∃ order, Spread kind live chains order
  distinct : ∀ slot ∈ live, ∀ other ∈ live,
    image.key.keys[slot]? = image.key.keys[other]? → slot = other
  freeList : Link.Leads image.key.next image.header.firstFree free
  nodup_free : free.Nodup
  live_lt : ∀ slot ∈ live, slot < image.header.allocatedIndex
  mem_free : ∀ slot, slot ∈ free ↔ slot < image.header.allocatedIndex ∧ slot ∉ live
  count : image.header.count = live.length
  used : image.header.count + free.length = image.header.allocatedIndex
  used_le : image.header.allocatedIndex ≤ image.header.capacity
  capacity : ∃ exponent, image.header.capacity = 2 ^ exponent
  least : 2 ^ image.header.log2MinGrowth ≤ image.header.capacity
  largest : image.header.capacity ≤ 2 ^ 29
  bucketCapacity : image.header.bucketCapacity = 2 * image.header.capacity

namespace Represents

variable {image : Image} {table : SlotTable} {orders : Nat → Nat → List Nat}

theorem mem_listing_iff (represents : Represents shape image table orders) {position : Nat}
    {kind : KeyType} {chains : HashChains Bytes} (thereKind : shape.kinds[position]? = some kind)
    (thereChains : image.dimensions[position]? = some chains) (slot : Nat) :
    slot ∈ (List.range chains.buckets.size).flatMap (orders position) ↔
      (table.rowAt slot).isSome := by
  have keyTable := represents.tabled.table position kind chains thereKind thereChains
  rw [keyTable.mem_listing]
  exact represents.wellFormed.cell_isSome (List.getElem?_eq_some_iff.mp thereKind).1

/-- The slots of a dimension are those of the first one, in another order. -/
theorem spread (represents : Represents shape image table orders) {position : Nat}
    {kind : KeyType} {chains : HashChains Bytes} (thereKind : shape.kinds[position]? = some kind)
    (thereChains : image.dimensions[position]? = some chains) :
    Spread kind (listing image.header.capacity (orders 0)) chains (orders position) := by
  have keyTable := represents.tabled.table position kind chains thereKind thereChains
  refine ⟨keyTable.chained.leads, ?_, ?_⟩
  · refine (List.perm_ext_iff_of_nodup ?_ represents.nodup_listing).mpr fun slot => ?_
    · rw [List.range_eq_range']
      exact keyTable.chained.distinct_range 0 _
    · rw [represents.mem_listing_iff thereKind thereChains, represents.mem_listing,
        Option.isSome_iff_exists]
  · intro bucket slot member
    obtain ⟨key, there⟩ := keyTable.of_mem member
    have stored := keyTable.getElem?_keys slot key there
    exact ⟨key, stored, keyTable.chained.home_eq member stored⟩

/-- The slots of an image that stands for a table are partitioned. -/
theorem partitions (represents : Represents shape image table orders) :
    image.Partitioned shape (listing image.header.capacity (orders 0)) table.free := by
  have wellFormed := represents.wellFormed
  have framed := represents.framed
  have present (slot : Nat) : slot ∈ listing image.header.capacity (orders 0) ↔
      ∃ row, table.rowAt slot = some row := represents.mem_listing
  have length : (listing image.header.capacity (orders 0)).length = table.count :=
    SlotTable.length_eq_count represents.nodup_listing present
  obtain ⟨exponent, power, step, large⟩ := framed.reached
  refine ⟨represents.nodup_listing, represents.tabled.length_eq, ?_, ?_, represents.free,
    wellFormed.nodup_free, ?_, ?_, ?_, ?_, ?_, ⟨exponent, power⟩, ?_, ?_, framed.bucketCapacity⟩
  · intro position kind chains thereKind thereChains
    have keyTable := represents.tabled.table position kind chains thereKind thereChains
    exact ⟨keyTable.size_buckets.trans framed.bucketCapacity.symm, _,
      represents.spread thereKind thereChains⟩
  · intro slot member other memberOther same
    obtain ⟨row, there⟩ := (present slot).mp member
    obtain ⟨second, thereOther⟩ := (present other).mp memberOther
    have here := SlotTable.cell_zero_eq_some.mpr ⟨row, there, rfl⟩
    have behind := SlotTable.cell_zero_eq_some.mpr ⟨second, thereOther, rfl⟩
    rw [represents.tabled.key.getElem?_keys slot _ here,
      represents.tabled.key.getElem?_keys other _ behind] at same
    rw [← Option.some.inj same] at behind
    exact wellFormed.distinct slot other row.key here behind
  · intro slot member
    obtain ⟨row, there⟩ := (present slot).mp member
    rw [represents.allocated]
    exact SlotTable.row_lt there
  · intro slot
    rw [represents.allocated, wellFormed.mem_free, present, SlotTable.vacant_iff]
  · rw [represents.count, length]
  · rw [represents.count, represents.allocated]
    exact wellFormed.count
  · rw [represents.allocated]
    exact represents.room
  · rw [power]
    exact Nat.pow_le_pow_right (by decide) step
  · rw [power]
    exact Nat.pow_le_pow_right (by decide) large

end Represents

/-- In every reachable site the block is as long as the layout says and its slots are partitioned. -/
theorem Reachable.partitioned [LawfulHost Buffer] (wellFormed : shape.WellFormed)
    (reachable : Reachable shape site) :
    ∃ image live free, Image.load shape site.bytes = .ok image ∧
      image.Partitioned shape live free ∧
      Layout.compute shape image.header.capacity image.header.bucketCapacity = .ok image.layout ∧
      site.bytes.size = image.layout.total := by
  obtain ⟨image, table, orders, holds⟩ := reachable.sound wellFormed
  exact ⟨image, _, table.free, holds.loaded, holds.represents.partitions,
    holds.represents.framed.computed, holds.size_eq⟩

/-- A row comes, and is removed again together with the slot it had. -/
theorem words_partitioned :
    ∃ site : Site BlockBuffer, init (Shape.words 2) {} ⟨.empty none, []⟩ = .ok () site ∧
      ∃ later, later = (Store.outcome (Change.run (Shape.words 2) (.removeRange 0 1)) (Store.outcome
          (Change.run (Shape.words 2) (.single (.add (.ofWords 1 [7, 8] 10)))) site).2).2 ∧
        ∃ image live free, Image.load (Shape.words 2) later.bytes = .ok image ∧
          image.Partitioned (Shape.words 2) live free ∧
          Layout.compute (Shape.words 2) image.header.capacity image.header.bucketCapacity =
            .ok image.layout ∧
          later.bytes.size = image.layout.total := by
  obtain ⟨site, run⟩ := @run_init_of_granting BlockBuffer _ (Shape.words 2) ⟨.empty none, []⟩ _ _
    BlockBuffer.granting rfl (Shape.wellFormed_words 2) (Shape.supported_words 2) (by decide)
    (by decide) rfl {} (by decide) (by decide)
  have added := Reachable.change (.single (.add (.ofWords 1 [7, 8] 10)))
    (Row.fits_ofWords 1 [7, 8] 10) (Reachable.init {} run)
  have removed := Reachable.change (.removeRange 0 1) trivial added
  exact ⟨site, run, _, rfl, removed.partitioned (Shape.wellFormed_words 2)⟩

end PackedStore.IndexedMap
