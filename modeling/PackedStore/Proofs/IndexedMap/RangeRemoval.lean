/-
This file compares taking out a range of rows at once with removing them one by one.
Whatever order the keys of the range are removed in, the rows that are left are those
that the range removal leaves; it closes the gap as well, so that the later rows move
down and there are no free slots.
-/

import PackedStore.Proofs.IndexedMap.Flattening

namespace PackedStore.IndexedMap

variable {Buffer : Type} [Host Buffer] {shape : Shape} {site later : Site Buffer} {image : Image}
  {table : SlotTable} {orders : Nat → Nat → List Nat} {start count : Nat}

/-! ### Removing row after row -/

/-- The row in each slot unless its key is one of the given ones. -/
def SlotTable.without (table : SlotTable) (keys : List Bytes) (slot : Nat) : Option Row :=
  (table.rowAt slot).filter fun row => row.key ∉ keys

/-- Removing the row with a key leaves all rows with other keys. -/
theorem SlotTable.WellFormed.rowAt_remove_find (wellFormed : table.WellFormed shape) {key : Bytes}
    {slot : Nat} (found : table.find key = some slot) :
    (table.remove slot).rowAt = table.without [key] := by
  obtain ⟨row, there, isKey⟩ := cell_zero_eq_some.mp (cell_of_find found)
  rw [rowAt_remove (row_lt there)]
  funext other
  by_cases same : other = slot
  · rw [same, Function.update_self, without, there]
    simp [Option.filter_some, isKey]
  · rw [Function.update_of_ne same, without]
    cases content : table.rowAt other with
    | none => rfl
    | some second =>
      have differs : second.key ≠ key := fun equal => same
        (wellFormed.distinct other slot key (cell_zero_eq_some.mpr ⟨second, content, equal⟩)
          (cell_of_find found))
      simp [Option.filter_some, differs]

theorem SlotTable.without_remove (wellFormed : table.WellFormed shape) {key : Bytes}
    {slot : Nat} (found : table.find key = some slot) (keys : List Bytes) :
    (table.remove slot).without keys = table.without (key :: keys) := by
  funext other
  rw [without, wellFormed.rowAt_remove_find found, without, without, Option.filter_filter]
  congr 1
  funext row
  simp

/-- Keys that are present and distinct can be removed one after another, and then the rows with other
keys are left. The induction is on the keys. -/
theorem Holds.run_removes [LawfulHost Buffer] (wellFormed : shape.WellFormed)
    (holds : Holds shape site image table orders) {keys : List Bytes} (distinct : keys.Nodup)
    (present : ∀ key ∈ keys, (table.find key).isSome) :
    ∃ later reached left linked, keys.mapM (remove shape) site =
        .ok (List.replicate keys.length true) later ∧
      Holds shape later reached left linked ∧ left.rowAt = table.without keys := by
  induction keys generalizing site image table orders with
  | nil =>
    refine ⟨site, image, table, orders, rfl, holds, funext fun slot => ?_⟩
    rw [SlotTable.without]
    cases table.rowAt slot <;> rfl
  | cons key rest inductionHypothesis =>
    obtain ⟨absent, distinctRest⟩ := List.nodup_cons.mp distinct
    obtain ⟨slot, found⟩ := Option.isSome_iff_exists.mp (present key List.mem_cons_self)
    have represents := holds.represents
    obtain ⟨middle, runFirst, -, between, holdsMiddle, -⟩ := holds.run_remove_present wellFormed found
    have presentRest (other : Bytes) (member : other ∈ rest) :
        ((table.remove slot).find other).isSome := by
      obtain ⟨place, there⟩ :=
        Option.isSome_iff_exists.mp (present other (List.mem_cons_of_mem _ member))
      obtain ⟨row, isRow, same⟩ :=
        SlotTable.cell_zero_eq_some.mp (SlotTable.cell_of_find there)
      refine Option.isSome_iff_exists.mpr ⟨place, ?_⟩
      refine holdsMiddle.represents.wellFormed.find_eq_some.mpr
        (SlotTable.cell_zero_eq_some.mpr ⟨row, ?_, same⟩)
      have differs : row.key ≠ key := fun equal => absent (by rw [← equal, same]; exact member)
      show (table.remove slot).rowAt place = some row
      rw [represents.wellFormed.rowAt_remove_find found, SlotTable.without, isRow]
      simp [Option.filter_some, differs]
    obtain ⟨later, reached, left, linked, runRest, holdsLater, rows⟩ :=
      inductionHypothesis holdsMiddle distinctRest presentRest
    refine ⟨later, reached, left, linked, ?_, holdsLater, rows.trans ?_⟩
    · simp only [List.mapM_cons, Edit.run_bind, runFirst, runRest, Edit.run_pure]
      rfl
    · exact SlotTable.without_remove represents.wellFormed found rest

/-! ### The rows outside of a range -/

/-- The keys of the rows in a range of slots. -/
def rangeKeys (rows : Nat → Option Row) (start count : Nat) : List Bytes :=
  ((List.range' start count).filterMap rows).map Row.key

/-- The rows when those in a range have gone and the later ones have moved down. -/
def closed (rows : Nat → Option Row) (start count slot : Nat) : Option Row :=
  rows (if slot < start then slot else slot + count)

theorem exists_closed_iff {rows : Nat → Option Row} {row : Row} :
    (∃ slot, closed rows start count slot = some row) ↔
      ∃ slot, (slot < start ∨ start + count ≤ slot) ∧ rows slot = some row := by
  constructor
  · rintro ⟨slot, there⟩
    refine ⟨_, ?_, there⟩
    split <;> omega
  · rintro ⟨slot, outside, there⟩
    by_cases before : slot < start
    · exact ⟨slot, by rw [closed, if_pos before, there]⟩
    · have behind : slot - count + count = slot := by omega
      have notBefore : ¬ slot - count < start := by omega
      exact ⟨slot - count, by rw [closed, if_neg notBefore, behind, there]⟩

section

variable (wellFormed : table.WellFormed shape)

include wellFormed

theorem SlotTable.mem_rangeKeys {slot : Nat} {row : Row} (there : table.rowAt slot = some row) :
    row.key ∈ rangeKeys table.rowAt start count ↔ start ≤ slot ∧ slot < start + count := by
  rw [rangeKeys, List.mem_map]
  constructor
  · rintro ⟨other, member, same⟩
    obtain ⟨place, inside, isOther⟩ := List.mem_filterMap.mp member
    obtain rfl := wellFormed.distinct slot place row.key
      (cell_zero_eq_some.mpr ⟨row, there, rfl⟩) (cell_zero_eq_some.mpr ⟨other, isOther, same⟩)
    exact List.mem_range'_1.mp inside
  · exact fun inside => ⟨row, List.mem_filterMap.mpr ⟨slot, List.mem_range'_1.mpr inside, there⟩, rfl⟩

theorem SlotTable.nodup_rangeKeys : (rangeKeys table.rowAt start count).Nodup :=
  wellFormed.nodup_keys List.nodup_range'

/-- The rows with other keys are those that are left when the range is closed. -/
theorem SlotTable.exists_without_iff {keys : List Bytes} {row : Row}
    (perm : keys.Perm (rangeKeys table.rowAt start count)) :
    (∃ slot, table.without keys slot = some row) ↔
      ∃ slot, closed table.rowAt start count slot = some row := by
  rw [exists_closed_iff]
  refine exists_congr fun slot => ?_
  rw [without, Option.filter_eq_some_iff, and_comm, decide_eq_true_iff]
  refine and_congr_left fun there => ?_
  rw [perm.mem_iff, mem_rangeKeys wellFormed there]
  omega

end

/-! ### Ranges -/

/-- All slots of a list are regrouped in ascending order, so each of them is linked in front of the
earlier ones. -/
theorem descending_regrouped {capacity : Nat} {slots : Nat → List Nat}
    (ascending : ∀ position, (slots position).Pairwise (· < ·)) :
    Descending (regrouped shape capacity table slots) := by
  intro position bucket
  unfold regrouped
  cases shape.kinds[position]? with
  | none => exact List.Pairwise.nil
  | some kind => exact List.pairwise_reverse.mpr ((ascending position).filter _)

/-- The later map has lost the rows in a range of slots; its later rows have moved down, and no slot
is free. -/
structure Dropped (shape : Shape) (start count : Nat) (rows : Nat → Option Row)
    (site later : Site Buffer) : Prop where
  reads : ReadsAs shape later (closed rows start count)
  gets : ∀ key, ∃ found, get? shape key later = .ok found later ∧
    ∀ row, found = some row ↔ ∃ slot, closed rows start count slot = some row ∧ row.key = key
  header : ∃ before after, header site = .ok before site ∧ header later = .ok after later ∧
    after.count = before.count - count ∧ after.allocatedIndex = before.count - count ∧
    after.firstFree = none ∧ after.capacity = before.capacity
  walks : 0 < count → WalksDown shape later
  idle : count = 0 → later = site

namespace Holds

variable (holds : Holds shape site image table orders) (noHoles : table.free = [])
  (startLe : start ≤ table.count) (countLe : count ≤ table.count - start)

include holds noHoles startLe countLe

/-- An empty range is taken out without any change. -/
theorem run_removeRange_zero (none : count = 0) :
    removeRange shape start count site = .ok () site := by
  have represents := holds.represents
  have range : start ≤ table.count ∧ count ≤ table.count - start := ⟨startLe, countLe⟩
  simp only [removeRange, Edit.run_bind, holds.run_header, represents.count,
    demand_of (represents.firstFree_eq_none.mpr noHoles), demand_of range, Edit.run_lift_ok,
    if_neg (show ¬ 0 < count by omega), Edit.run_pure]

theorem dropped [LawfulHost Buffer] (wellFormed : shape.WellFormed) :
    ∃ later, removeRange shape start count site = .ok () later ∧
      Dropped shape start count table.rowAt site later := by
  have represents := holds.represents
  have full := (represents.wellFormed.full noHoles).1
  have header : image.header.count - count = table.slots.length - count := by
    rw [represents.count, full]
  by_cases nothing : count = 0
  · have same : closed table.rowAt start count = table.rowAt := by
      funext slot
      rw [closed, nothing, Nat.add_zero, ite_self]
    refine ⟨site, holds.run_removeRange_zero noHoles startLe countLe nothing, ?_, ?_,
      ⟨image.header, image.header, holds.run_header, holds.run_header, ?_, ?_, ?_, rfl⟩, ?_,
      fun _ => rfl⟩
    · rw [same]
      exact holds.readsAs
    · rw [same]
      exact holds.gets
    · rw [nothing, Nat.sub_zero]
    · rw [header, nothing, Nat.sub_zero, represents.allocated]
    · exact represents.firstFree_eq_none.mpr noHoles
    · exact fun positive => absurd nothing (Nat.ne_of_gt positive)
  · have positive : 0 < count := Nat.pos_of_ne_zero nothing
    have range : start + count ≤ table.slots.length := by omega
    rcases holds.run_removeRange wellFormed start count with
      ⟨misuse, -, -, demanded⟩ | ⟨later, run, -, -, changed, holdsLater, same⟩
    · rw [OrderedTable.demandRange, Image.ordered, demand_of noHoles,
        demand_of (show start ≤ table.count ∧ count ≤ table.count - start from ⟨startLe, countLe⟩)]
        at demanded
      exact absurd demanded (by simp)
    · have removes : (image.ordered table orders).removeRange shape start count =
          image.ordered (table.removeRange start count) (regrouped shape image.header.capacity
            (table.removeRange start count) fun _ => List.range (table.slots.length - count)) :=
        if_pos positive
      rw [removes] at holdsLater same
      have later' := holdsLater.represents
      have rows : (table.removeRange start count).rowAt = closed table.rowAt start count :=
        funext (SlotTable.rowAt_removeRange range)
      have counted := (represents.wellFormed.removeRange noHoles range).2
      refine ⟨later, run, ?_, ?_, ⟨image.header, changed.header, holds.run_header,
        holdsLater.run_header, ?_, ?_, ?_, ?_⟩, fun _ => ?_, fun none => absurd none nothing⟩
      · have reads := holdsLater.readsAs
        rw [← rows]
        exact reads
      · have gets := holdsLater.gets
        rw [← rows]
        exact gets
      · rw [header]
        exact later'.count.trans counted
      · rw [header]
        exact later'.allocated.trans (SlotTable.length_removeRange range)
      · exact later'.firstFree_eq_none.mpr noHoles
      · exact congrArg OrderedTable.capacity same
      · exact holdsLater.walksDown (descending_regrouped fun _ => List.pairwise_lt_range)

end Holds

/-- Taking out a range agrees with removing its rows one by one: whatever order their keys are removed
in, the same rows are left; those before the range stay in their slots, and those behind it move
down by its length. -/
theorem Reachable.removeRange_exact [LawfulHost Buffer] (wellFormed : shape.WellFormed)
    (reachable : Reachable shape site) {before : Header} (read : header site = .ok before site)
    (noHoles : before.firstFree = none) (startLe : start ≤ before.count)
    (countLe : count ≤ before.count - start) :
    ∃ rows later, ReadsAs shape site rows ∧ (∀ slot, (rows slot).isSome ↔ slot < before.count) ∧
      removeRange shape start count site = .ok () later ∧
      Dropped shape start count rows site later ∧
      ∀ keys : List Bytes, keys.Perm (rangeKeys rows start count) → ∃ reached left,
        keys.mapM (remove shape) site = .ok (List.replicate count true) reached ∧
        ReadsAs shape reached left ∧ ∀ row, (∃ slot, left slot = some row) ↔
          ∃ slot, closed rows start count slot = some row := by
  obtain ⟨image, table, orders, holds⟩ := reachable.sound wellFormed
  obtain rfl := (EStateM.Result.ok.inj (holds.run_header.symm.trans read)).1
  have represents := holds.represents
  have tableWellFormed := represents.wellFormed
  have noFree := represents.firstFree_eq_none.mp noHoles
  obtain ⟨length, full⟩ := tableWellFormed.full noFree
  rw [represents.count] at startLe countLe ⊢
  obtain ⟨later, run, dropped⟩ := holds.dropped noFree startLe countLe wellFormed
  refine ⟨table.rowAt, later, holds.readsAs, fun slot => ?_, run, dropped, fun keys perm => ?_⟩
  · rw [full, length]
  · have inRange (slot : Nat) (member : slot ∈ List.range' start count) :
        ∃ row, table.rowAt slot = some row := by
      refine Option.isSome_iff_exists.mp ((full slot).mpr ?_)
      have bounds := List.mem_range'_1.mp member
      omega
    have many : keys.length = count := by
      rw [perm.length_eq, rangeKeys, List.length_map, SlotTable.length_rows inRange,
        List.length_range']
    have present (key : Bytes) (member : key ∈ keys) : (table.find key).isSome := by
      rw [perm.mem_iff, rangeKeys, List.mem_map] at member
      obtain ⟨row, inRows, same⟩ := member
      obtain ⟨slot, -, there⟩ := List.mem_filterMap.mp inRows
      exact Option.isSome_iff_exists.mpr ⟨slot, tableWellFormed.find_eq_some.mpr
        (SlotTable.cell_zero_eq_some.mpr ⟨row, there, same⟩)⟩
    obtain ⟨reached, changed, left, linked, removes, holdsReached, rows⟩ :=
      holds.run_removes wellFormed
        (perm.nodup_iff.mpr (SlotTable.nodup_rangeKeys tableWellFormed)) present
    rw [many] at removes
    refine ⟨reached, left.rowAt, removes, holdsReached.readsAs, fun row => ?_⟩
    rw [rows]
    exact SlotTable.exists_without_iff tableWellFormed perm

/-- Three rows come. Taking out the first two leaves the third one in front, and removing the second
and then the first one leaves the same row. -/
theorem words_removeRange_exact :
    ∃ site : Site BlockBuffer, init (Shape.words 2) {} ⟨.empty none, []⟩ = .ok () site ∧
      ∃ used, used = (Store.machine (Change.ask (Shape.words 2))).reached
          [.single (.add (.ofWords 1 [7, 8] 10)), .single (.add (.ofWords 2 [7, 9] 20)),
            .single (.add (.ofWords 3 [7, 9] 30))] site ∧
        ∃ rows later, removeRange (Shape.words 2) 0 2 used = .ok () later ∧
          Dropped (Shape.words 2) 0 2 rows used later ∧
          closed rows 0 2 0 = some (.ofWords 3 [7, 9] 30) ∧
          ∃ reached left, [(Row.ofWords 2 [] 0).key, (Row.ofWords 1 [] 0).key].mapM
              (remove (Shape.words 2)) used = .ok [true, true] reached ∧
            ReadsAs (Shape.words 2) reached left ∧
            ∀ row, (∃ slot, left slot = some row) ↔ ∃ slot, closed rows 0 2 slot = some row := by
  have wellFormed := Shape.wellFormed_words 2
  obtain ⟨site, run⟩ := @run_init_of_granting BlockBuffer _ (Shape.words 2) ⟨.empty none, []⟩ _ _
    BlockBuffer.granting rfl wellFormed (Shape.supported_words 2) (by decide)
    (by decide) rfl {} (by decide) (by decide)
  let changes : List Change := [.single (.add (.ofWords 1 [7, 8] 10)),
    .single (.add (.ofWords 2 [7, 9] 20)), .single (.add (.ofWords 3 [7, 9] 30))]
  have fits : ∀ change ∈ changes, change.Fits (Shape.words 2) := by
    simp only [changes, List.mem_cons, List.not_mem_nil, or_false, forall_eq_or_imp, forall_eq]
    exact ⟨Row.fits_ofWords 1 [7, 8] 10, Row.fits_ofWords 2 [7, 9] 20, Row.fits_ofWords 3 [7, 9] 30⟩
  have tracks := Tracks.of_init BlockBuffer.granting wellFormed rfl run rfl
  obtain ⟨-, -, carries⟩ := tracks.run BlockBuffer.granting wellFormed (by decide) fits
  obtain ⟨before, read, counted, -, -, noHoles⟩ := carries.run_header
  have three : before.count = 3 := counted.trans rfl
  obtain ⟨rows, later, reads, -, runRange, dropped, agrees⟩ :=
    ((Reachable.init {} run).followed fits).removeRange_exact wellFormed read
      (show before.firstFree = none from noHoles) (show 0 ≤ before.count from Nat.zero_le _)
      (show 2 ≤ before.count - 0 by rw [three]; decide)
  obtain ⟨image, holds, -⟩ := carries
  have same := reads.unique holds.readsAs
  obtain ⟨reached, left, removes, readsLeft, remaining⟩ :=
    agrees [(Row.ofWords 2 [] 0).key, (Row.ofWords 1 [] 0).key] (by
      rw [same]
      exact List.Perm.swap _ _ [])
  refine ⟨site, run, _, rfl, rows, later, runRange, dropped, ?_, reached, left, removes, readsLeft,
    remaining⟩
  rw [same]
  rfl

end PackedStore.IndexedMap
