/-
This file says what flattening makes of an indexed map, and that a host with a limit
never refuses it. A smaller number of slots has a layout whenever a larger one has, and
a shorter one; a host that grants what its limit allows has granted the length of the
block, and so grants every smaller length. The rows are stored in the order in which
they were listed, one behind another, so each of them is linked in front of those that
were stored before it.
-/

import PackedStore.Proofs.Host.Limits
import PackedStore.Proofs.IndexedMap.Growing
import PackedStore.Proofs.IndexedMap.TwinOperations
import PackedStore.Proofs.Layout.Peaks
import PackedStore.Proofs.Layout.Shrinking

namespace PackedStore.IndexedMap

variable {Buffer : Type} [Host Buffer] {shape : Shape} {site later : Site Buffer} {image : Image}
  {table : SlotTable} {orders : Nat → Nat → List Nat}

/-! ### Layouts for fewer slots -/

section

variable {capacity more buckets moreBuckets : Nat} (fewer : capacity ≤ more)
  (fewerBuckets : buckets ≤ moreBuckets)

/-- What places the parts of a map. -/
def Layout.placing (shape : Shape) (capacity buckets : Nat) : Edit Placement (Nat → Layout) := do
  let header ← Placement.arrayOf headerWords .word32
  let values ← Placement.arrayOf capacity shape.value
  let key ← DimensionLayout.place capacity buckets shape.key
  let indices ← shape.indices.mapM (DimensionLayout.place capacity buckets)
  return fun total => { header, values, key, indices, total }

/-- A computed layout is as long as the placing of its parts. -/
theorem Layout.compute_eq_ok {layout : Layout} :
    compute shape capacity buckets = .ok layout ↔
      ∃ result placed, placing shape capacity buckets Placement.start = .ok result placed ∧
        result placed.cursor = layout := by
  show Placement.total (placing shape capacity buckets) = .ok layout ↔ _
  unfold Placement.total
  cases placing shape capacity buckets Placement.start with
  | ok result placed =>
    refine ⟨fun same => ⟨result, placed, rfl, Except.ok.inj same⟩, ?_⟩
    rintro ⟨_, _, ⟨⟩, rfl⟩
    rfl
  | error failure placed => simp

theorem Layout.total_placing {before after : Placement} {result : Nat → Layout}
    (run : placing shape capacity buckets before = .ok result after) (total : Nat) :
    (result total).total = total := by
  simp only [placing, Edit.bind_eq_ok, Edit.run_pure] at run
  obtain ⟨_, _, -, _, _, -, _, _, -, _, _, -, ⟨⟩⟩ := run
  rfl

include fewer fewerBuckets

theorem DimensionLayout.place_within {kind : KeyType}
    (wellFormed : kind.toElementType.WellFormed) :
    Placement.Within (place capacity buckets kind) (place more moreBuckets kind) := by
  have word : 0 < ElementType.word32.align := by decide
  exact (Placement.Within.arrayOf wellFormed.align_pos fewer).bind fun _ _ =>
    (Placement.Within.arrayOf word fewer).bind fun _ _ =>
      (Placement.Within.arrayOf word fewerBuckets).bind fun _ _ => .pure _ _

/-- Fewer slots and buckets have a layout if more of them have one, and it is no longer. -/
theorem Layout.compute_mono (wellFormed : shape.WellFormed) {old : Layout}
    (computed : compute shape more moreBuckets = .ok old) :
    ∃ new, compute shape capacity buckets = .ok new ∧ new.total ≤ old.total := by
  have word : 0 < ElementType.word32.align := by decide
  have within : Placement.Within (placing shape capacity buckets)
      (placing shape more moreBuckets) :=
    (Placement.Within.arrayOf word (Nat.le_refl _)).bind fun _ _ =>
      (Placement.Within.arrayOf wellFormed.value.align_pos fewer).bind fun _ _ =>
        (DimensionLayout.place_within fewer fewerBuckets
          (wellFormed.kinds _ List.mem_cons_self)).bind fun _ _ =>
          (Placement.Within.mapM _ fun kind member => DimensionLayout.place_within fewer fewerBuckets
            (wellFormed.kinds kind (List.mem_cons_of_mem _ member))).bind fun _ _ => .pure _ _
  obtain ⟨found, placed, run, rfl⟩ := compute_eq_ok.mp computed
  obtain ⟨result, ended, runFewer, below⟩ := within _ _ _ _ run (Nat.le_refl _)
  refine ⟨_, compute_eq_ok.mpr ⟨result, ended, runFewer, rfl⟩, ?_⟩
  rw [total_placing runFewer, total_placing run]
  exact below

end

/-! ### Hosts with a limit -/

/-- A map is only created in an empty block. -/
theorem size_of_init {sizing : Sizing} (run : init shape sizing site = .ok () later) :
    site.bytes.size = 0 := by
  obtain ⟨_, _, isLength, run⟩ := Edit.bind_eq_ok.mp run
  obtain ⟨rfl, rfl⟩ := EStateM.Result.ok.inj (Store.run_length.symm.trans isLength)
  obtain ⟨_, empty, -⟩ := Edit.lift_bind_eq_ok.mp run
  exact demand_eq_ok.mp empty

/-- A host that refuses what exceeds its limit grants the length of every map in it. The map has a
twin in a buffer of blocks, which shows the length. -/
theorem Reachable.grants [LawfulHost Buffer] {limit : Buffer → Option Nat} (limited : Limited limit)
    (wellFormed : shape.WellFormed) (reachable : Reachable shape site) :
    Grants (limit site.buffer) site.bytes.size := by
  have shadowed : ∃ bound, ∃ shadow : Site BlockBuffer,
      Store.Tuned (fun buffer (shadow : BlockBuffer) =>
        (limit buffer = bound ∧ shadow.limit = bound) ∧ Grants bound shadow.length)
        (Twinned shape) site shadow := by
    induction reachable with
    | @init start later sizing run =>
      let shadow : Site BlockBuffer := ⟨.empty (limit start.buffer), []⟩
      have concerted := limited.concerted_granted (limit start.buffer)
      have empty : start.bytes.size = 0 := size_of_init run
      obtain ⟨laterShadow, runShadow, tuned⟩ := (@concurs_init _ _ _ _ _ shape start shadow _ _
        wellFormed concerted ⟨⟨rfl, rfl⟩, grants_zero _⟩ empty.symm sizing).answered run
      exact ⟨_, laterShadow, tuned.buffers, twinned_of_init wellFormed run runShadow⟩
    | @change site change fits _ inductionHypothesis =>
      obtain ⟨bound, shadow, tuned⟩ := inductionHypothesis
      obtain ⟨table, twins⟩ := tuned.sites
      have related := (twins.change wellFormed (limited.concerted_granted bound) tuned.buffers
        fits).related
      rw [Change.outcome_ask] at related
      exact ⟨bound, _, related⟩
  obtain ⟨bound, shadow, ⟨⟨same, -⟩, within⟩, table, twins⟩ := shadowed
  rw [same, ← twins.size_eq]
  rw [← BlockBuffer.size_bytes] at within
  exact within

/-! ### Slots in descending order -/

/-- Every bucket links its slots from the last one to the first one. -/
def Descending (orders : Nat → Nat → List Nat) : Prop :=
  ∀ position bucket, (orders position bucket).Pairwise (· > ·)

/-- A row that is linked comes in front of its bucket, and the other buckets stay. -/
theorem entered_eq_or (capacity slot : Nat) (row : Row) (position bucket : Nat) :
    entered shape capacity orders row slot position bucket = slot :: orders position bucket ∨
      entered shape capacity orders row slot position bucket = orders position bucket := by
  unfold entered
  cases shape.kinds[position]? with
  | none => exact Or.inr rfl
  | some kind =>
    cases row.cells[position]? with
    | none => exact Or.inr rfl
    | some key =>
      simp only [HashChains.enter]
      by_cases same : bucket = kind.home capacity key
      · rw [same, Function.update_self]
        exact Or.inl rfl
      · rw [Function.update_of_ne same]
        exact Or.inr rfl

/-- Rows that are stored one behind another are linked in front of each other. The induction is on the
rows; the slots that are linked already lie below the next one. -/
theorem descending_enteredAll {capacity slot : Nat} {rows : List Row}
    (descending : Descending orders)
    (below : ∀ position bucket, ∀ other ∈ orders position bucket, other < slot) :
    Descending (enteredAll shape capacity orders slot rows) := by
  induction rows generalizing orders slot with
  | nil => exact descending
  | cons row rest inductionHypothesis =>
    refine inductionHypothesis (fun position bucket => ?_) fun position bucket other member => ?_
    · rcases @entered_eq_or shape orders capacity slot row position bucket with front | same
      · rw [front]
        exact List.Pairwise.cons (below position bucket) (descending position bucket)
      · rw [same]
        exact descending position bucket
    · rcases @entered_eq_or shape orders capacity slot row position bucket with front | same
      · rw [front] at member
        rcases List.mem_cons.mp member with rfl | old
        · exact Nat.lt_succ_self other
        · exact Nat.lt_succ_of_lt (below position bucket other old)
      · rw [same] at member
        exact Nat.lt_succ_of_lt (below position bucket other member)

/-- The walks over a map go from later slots to earlier ones. -/
def WalksDown (shape : Shape) (site : Site Buffer) : Prop :=
  ∀ position index, position < shape.indices.length → ∃ listed,
    WalksAs shape position index site listed ∧ (listed.map Entry.slot).Pairwise (· > ·)

theorem Holds.walksDown (holds : Holds shape site image table orders)
    (descending : Descending orders) : WalksDown shape site := by
  intro position index inside
  have isKind := List.getElem?_eq_getElem inside
  have present (slot : Nat) (member : slot ∈ table.matching position index
      (orders (position + 1) (shape.indices[position].home image.header.capacity index))) :
      ∃ row, table.rowAt slot = some row :=
    SlotTable.exists_row (of_decide_eq_true (List.mem_filter.mp member).2)
  refine ⟨_, holds.walksAs isKind index, ?_⟩
  rw [map_slot_rowsIn present]
  exact (descending _ _).filter _

/-! ### Flattened maps -/

/-- The later map holds the rows that were listed in the slots from zero on, has no other slots in
use, and has the least capacity and length for them. -/
structure Flattened (shape : Shape) (listed : List Entry) (site later : Site Buffer) : Prop where
  reads : ReadsAs shape later fun slot => listed[slot]?.map Entry.row
  gets : ∀ key, ∃ found, get? shape key later = .ok found later ∧
    ∀ row, found = some row ↔
      ∃ slot : Nat, listed[slot]?.map Entry.row = some row ∧ row.key = key
  header : ∃ before after, header site = .ok before site ∧ header later = .ok after later ∧
    after.count = listed.length ∧ after.allocatedIndex = listed.length ∧ after.firstFree = none ∧
    after.log2MinGrowth = before.log2MinGrowth ∧
    after.capacity = nextPower (max listed.length (2 ^ before.log2MinGrowth)) ∧
    after.capacity ≤ before.capacity ∧ ∃ layout,
      Layout.compute shape after.capacity after.bucketCapacity = .ok layout ∧
      later.bytes.size = layout.total ∧ layout.total ≤ site.bytes.size
  walks : WalksDown shape later

/-- A host that grants the length of a map grants the length of the map with as few slots as its rows
need. -/
theorem Holds.flatten_granted (holds : Holds shape site image table orders)
    (wellFormed : shape.WellFormed) {limit : Buffer → Option Nat} (limited : Limited limit)
    (grants : Grants (limit site.buffer) site.bytes.size) :
    ∃ capacity new buffer,
      grownCapacity table.count table.count image.header.log2MinGrowth = .ok capacity ∧
      capacity = nextPower (max table.count (2 ^ image.header.log2MinGrowth)) ∧
      capacity ≤ image.header.capacity ∧
      Layout.compute shape capacity (2 * capacity) = .ok new ∧ new.total ≤ site.bytes.size ∧
      Host.resize site.buffer new.total = .ok buffer := by
  have represents := holds.represents
  have framed := represents.framed
  have rows : table.count ≤ maxCapacity :=
    Nat.le_trans represents.count_le represents.capacity_le
  obtain ⟨capacity, least⟩ := grownCapacity_of rows rows framed.reached.le_log2
  have isLeast : capacity = nextPower (max table.count (2 ^ image.header.log2MinGrowth)) := by
    obtain ⟨same, -⟩ := grownCapacity_eq_ok.mp least
    rw [same, Nat.max_self, nextPower]
  have fewer : capacity ≤ image.header.capacity := by
    rw [isLeast, framed.reached.nextPower_le]
    exact Nat.max_le.mpr ⟨represents.count_le, framed.reached.step_le⟩
  have computed := framed.computed
  rw [framed.bucketCapacity] at computed
  obtain ⟨new, isNew, shorter⟩ :=
    Layout.compute_mono fewer (Nat.mul_le_mul_left 2 fewer) wellFormed computed
  rw [← holds.size_eq] at shorter
  obtain ⟨buffer, resized⟩ := limited.grants site.buffer new.total (grants.mono shorter)
  exact ⟨capacity, new, buffer, least, isLeast, fewer, isNew, shorter, resized⟩

/-- Flattening is exact and cannot fail: in a buffer of blocks, whatever its limit is, every reachable
map can be flattened, and has its rows in the order of their listing afterwards. -/
theorem Reachable.flatten_exact {site : Site BlockBuffer} (wellFormed : shape.WellFormed)
    (reachable : Reachable shape site) :
    ∃ listed later, entries shape site = .ok listed site ∧
      flatten shape site = .ok () later ∧ Flattened shape listed site later := by
  obtain ⟨image, table, orders, holds⟩ := reachable.sound wellFormed
  obtain ⟨capacity, new, buffer, least, isLeast, fewer, computed, shorter, resized⟩ :=
    holds.flatten_granted wellFormed BlockBuffer.limited
      (reachable.grants BlockBuffer.limited wellFormed)
  have listing := map_row_rowsIn table (Represents.listing image.header.capacity (orders 0))
  obtain ⟨later, _, changed, run, -, -, holdsLater, capacityEq, stepEq, -⟩ :=
    holds.run_flatten_granted wellFormed least computed resized listing.symm
  have length := holds.length_listed
  rw [← listing, List.length_map] at length
  have represents := holdsLater.represents
  have rowAt : (SlotTable.ofRows ((rowsIn table (Represents.listing image.header.capacity
      (orders 0))).map Entry.row)).rowAt = fun slot =>
        (rowsIn table (Represents.listing image.header.capacity (orders 0)))[slot]?.map
          Entry.row := by
    funext slot
    rw [SlotTable.rowAt_ofRows, List.getElem?_map]
  have reads := holdsLater.readsAs
  have gets := holdsLater.gets
  rw [rowAt] at reads gets
  refine ⟨_, later, holds.run_entries, run, reads, gets, ?_, ?_⟩
  · refine ⟨image.header, changed.header, holds.run_header, holdsLater.run_header, ?_, ?_, ?_,
      stepEq, ?_, ?_, changed.layout, represents.framed.computed, holdsLater.size_eq, ?_⟩
    · rw [represents.count, SlotTable.count_ofRows, List.length_map]
    · rw [represents.allocated, SlotTable.ofRows, List.length_map, List.length_map]
    · exact represents.firstFree_eq_none.mpr rfl
    · rw [capacityEq, isLeast, length]
    · rw [capacityEq]
      exact fewer
    · have laterComputed := represents.framed.computed
      rw [represents.framed.bucketCapacity, capacityEq, computed] at laterComputed
      rw [← Except.ok.inj laterComputed]
      exact shorter
  · exact holdsLater.walksDown
      (descending_enteredAll (fun _ _ => List.Pairwise.nil) fun _ _ _ member => by simp at member)

/-- Three rows come and the first one goes again. The map has four slots then, and two when it has been
flattened. -/
theorem words_flatten_exact :
    ∃ site : Site BlockBuffer,
      init (Shape.words 2) { minGrowth := 1 } ⟨.empty none, []⟩ = .ok () site ∧
      ∃ used, used = (Store.machine (Change.ask (Shape.words 2))).reached
          [.single (.add (.ofWords 1 [7, 8] 10)), .single (.add (.ofWords 2 [7, 9] 20)),
            .single (.add (.ofWords 3 [7, 9] 30)), .single (.remove (Row.ofWords 1 [] 0).key)] site ∧
        (∃ before, header used = .ok before used ∧ before.capacity = 4) ∧
        ∃ listed later, entries (Shape.words 2) used = .ok listed used ∧
          flatten (Shape.words 2) used = .ok () later ∧
          Flattened (Shape.words 2) listed used later ∧ listed.length = 2 ∧
          ∃ after, header later = .ok after later ∧ after.capacity = 2 := by
  have wellFormed := Shape.wellFormed_words 2
  obtain ⟨site, run⟩ := @run_init_of_granting BlockBuffer _ (Shape.words 2) ⟨.empty none, []⟩ _ _
    BlockBuffer.granting rfl wellFormed (Shape.supported_words 2) (by decide)
    (by decide) rfl { minGrowth := 1 } (by decide) (by decide)
  let changes : List Change := [.single (.add (.ofWords 1 [7, 8] 10)),
    .single (.add (.ofWords 2 [7, 9] 20)), .single (.add (.ofWords 3 [7, 9] 30)),
    .single (.remove (Row.ofWords 1 [] 0).key)]
  have fits : ∀ change ∈ changes, change.Fits (Shape.words 2) := by
    simp only [changes, List.mem_cons, List.not_mem_nil, or_false, forall_eq_or_imp, forall_eq]
    exact ⟨Row.fits_ofWords 1 [7, 8] 10, Row.fits_ofWords 2 [7, 9] 20,
      Row.fits_ofWords 3 [7, 9] 30, trivial⟩
  have tracks := Tracks.of_init BlockBuffer.granting wellFormed rfl run rfl
  obtain ⟨-, -, carries⟩ := tracks.run BlockBuffer.granting wellFormed (by decide) fits
  obtain ⟨before, read, -, capacity, -, -⟩ := carries.run_header
  obtain ⟨listed, later, lists, flattens, flattened⟩ :=
    ((Reachable.init { minGrowth := 1 } run).followed fits).flatten_exact wellFormed
  obtain ⟨header, after, readBefore, readAfter, -, -, -, -, least, -⟩ := flattened.header
  obtain rfl := (EStateM.Result.ok.inj (read.symm.trans readBefore)).1
  obtain ⟨image, holds, same⟩ := carries
  have two : listed.length = 2 := by
    have length := holds.length_listed
    rw [← map_row_rowsIn, List.length_map,
      ← (EStateM.Result.ok.inj (lists.symm.trans holds.run_entries)).1] at length
    exact length.trans rfl
  have step : before.log2MinGrowth = 0 := by
    rw [(EStateM.Result.ok.inj (read.symm.trans holds.run_header)).1]
    exact congrArg OrderedTable.log2MinGrowth same
  refine ⟨site, run, _, rfl, ⟨before, read, capacity⟩, listed, later, lists, flattens, flattened,
    two, after, readAfter, ?_⟩
  rw [least, two, step]
  decide

end PackedStore.IndexedMap
