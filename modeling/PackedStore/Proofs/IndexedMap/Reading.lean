/-
This file states that all ways to read an indexed map agree. There is one set of
rows, which stand in the arrays of the block at the slots that the hash table of the
keys links: listing the map gives each of them once, a slot gives the row in it, a
key gives the slot of its row, and an index gives the rows that have it, all at once
or one after another in the same order. Slots that are free again keep old keys, but
no way of reading finds them.
-/

import PackedStore.Proofs.IndexedMap.Queries
import PackedStore.Proofs.IndexedMap.Reachable

namespace PackedStore.IndexedMap

variable {Buffer : Type} [Host Buffer] {shape : Shape} {site : Site Buffer} {image : Image}
  {table : SlotTable} {orders : Nat → Nat → List Nat}

/-! ### Rows in slots -/

theorem SlotTable.cell_succ_eq_some {position slot : Nat} {index : Bytes} :
    table.cell (position + 1) slot = some index ↔
      ∃ row, table.rowAt slot = some row ∧ row.indices[position]? = some index := by
  rw [cell, Option.bind_eq_some_iff]
  rfl

/-- The slots among the given ones that have an index. -/
def SlotTable.matching (table : SlotTable) (position : Nat) (index : Bytes) (slots : List Nat) :
    List Nat :=
  slots.filter fun slot => table.cell (position + 1) slot = some index

section

variable {slots : List Nat} (present : ∀ slot ∈ slots, ∃ row, table.rowAt slot = some row)

theorem mem_rowsIn {entry : Entry} :
    entry ∈ rowsIn table slots ↔ entry.slot ∈ slots ∧ table.rowAt entry.slot = some entry.row := by
  rw [rowsIn, List.mem_filterMap]
  constructor
  · rintro ⟨slot, member, same⟩
    obtain ⟨row, there, rfl⟩ := Option.map_eq_some_iff.mp same
    exact ⟨member, there⟩
  · rintro ⟨member, there⟩
    exact ⟨entry.slot, member, by rw [there]; rfl⟩

theorem rowsIn_cons {slot : Nat} {row : Row} (there : table.rowAt slot = some row) :
    rowsIn table (slot :: slots) = ⟨slot, row⟩ :: rowsIn table slots := by
  rw [rowsIn, List.filterMap_cons, there]
  rfl

include present

theorem map_slot_rowsIn : (rowsIn table slots).map Entry.slot = slots := by
  induction slots with
  | nil => rfl
  | cons slot rest inductionHypothesis =>
    obtain ⟨row, there⟩ := present slot List.mem_cons_self
    rw [rowsIn_cons there, List.map_cons,
      inductionHypothesis fun other member => present other (List.mem_cons_of_mem _ member)]

end

/-! ### Walks -/

/-- What a cursor gives when it is asked for the next row a number of times. -/
def nexts (shape : Shape) (position : Nat) :
    Nat → Cursor → Store Buffer (List (Option Entry) × Cursor)
  | 0, cursor => return ([], cursor)
  | times + 1, cursor => do
    let (entry, moved) ← next shape position cursor
    let (rest, last) ← nexts shape position times moved
    return (entry :: rest, last)

/-- The walk over the rows with an index gives the entries one after another and then no more,
however often it is asked. The cursor stays on the last of them, or in front of all rows if there
are none. -/
def Walked (shape : Shape) (position : Nat) (index : Bytes) (site : Site Buffer) :
    List Entry → Prop
  | [] => first shape position index site = .ok none site ∧
    ∀ more, nexts shape position more (Cursor.start index) site =
      .ok (List.replicate more none, Cursor.start index) site
  | entry :: rest =>
    first shape position index site = .ok (some (entry, ⟨index, some entry.slot⟩)) site ∧
      ∀ more, nexts shape position (rest.length + more) ⟨index, some entry.slot⟩ site =
        .ok (rest.map some ++ List.replicate more none,
          ⟨index, some ((rest.getLast?.getD entry).slot)⟩) site

theorem nexts_of_none {position : Nat} {cursor : Cursor}
    (done : next shape position cursor site = .ok (none, cursor) site) (more : Nat) :
    nexts shape position more cursor site = .ok (List.replicate more none, cursor) site := by
  induction more with
  | zero => rfl
  | succ more inductionHypothesis =>
    simp only [nexts, Edit.run_bind, done, inductionHypothesis, Edit.run_pure]
    rfl

theorem nexts_of_some {position times : Nat} {cursor moved last : Cursor} {entry : Entry}
    {rest : List (Option Entry)}
    (goes : next shape position cursor site = .ok (some entry, moved) site)
    (behind : nexts shape position times moved site = .ok (rest, last) site) :
    nexts shape position (times + 1) cursor site = .ok (some entry :: rest, last) site := by
  simp only [nexts, Edit.run_bind, goes, behind, Edit.run_pure]

/-- The first slot that has an index, and the ones behind it that have it. -/
theorem SlotTable.find_matching (table : SlotTable) (position : Nat) (index : Bytes)
    (slots : List Nat) :
    (slots.find? fun slot => table.cell (position + 1) slot = some index) =
      (table.matching position index slots).head? :=
  (List.head?_filter ..).symm

namespace Holds

variable (holds : Holds shape site image table orders) {position : Nat} {kind : KeyType}
  (isKind : shape.indices[position]? = some kind)

include holds isKind

/-- From a slot in the list of a bucket on, a walk gives the rows with the index that are behind it.
The induction is on the slots of these rows. -/
theorem run_nexts {index : Bytes} {entry : Entry} {before after found : List Nat}
    (split : orders (position + 1) (kind.home image.header.capacity index) =
      before ++ entry.slot :: after)
    (isFound : table.matching position index after = found) (more : Nat) :
    nexts shape position ((rowsIn table found).length + more) ⟨index, some entry.slot⟩ site =
      .ok ((rowsIn table found).map some ++ List.replicate more none,
        ⟨index, some (((rowsIn table found).getLast?.getD entry).slot)⟩) site := by
  obtain ⟨chains, isDimension, keyTable⟩ := holds.represents.dimension_eq isKind
  induction found generalizing entry before after with
  | nil =>
    have advanced := Cursor.advance_behind keyTable split index
    rw [table.find_matching, isFound] at advanced
    rcases holds.run_next_of isDimension advanced (by simp) with ⟨-, run⟩ | ⟨_, _, found, -⟩
    · rw [rowsIn, List.filterMap_nil, List.length_nil, Nat.zero_add]
      exact nexts_of_none run more
    · exact absurd found (by simp)
  | cons slot others inductionHypothesis =>
    have advanced := Cursor.advance_behind keyTable split index
    rw [table.find_matching, isFound] at advanced
    obtain ⟨front, back, rfl, -, has, isOthers⟩ := List.filter_eq_cons_iff.mp isFound
    rcases holds.run_next_of isDimension advanced (by simpa using has) with
      ⟨absent, -⟩ | ⟨_, row, ⟨⟩, there, run⟩
    · exact absurd absent (by simp)
    · have behind : orders (position + 1) (kind.home image.header.capacity index) =
          (before ++ entry.slot :: front) ++ slot :: back := by
        rw [split, List.append_assoc]
        rfl
      rw [rowsIn_cons there, List.length_cons, Nat.add_right_comm, List.getLast?_cons]
      exact nexts_of_some run (@inductionHypothesis ⟨slot, row⟩ _ _ behind isOthers)

/-- A walk gives the rows in the bucket of the index that have it. -/
theorem walked (index : Bytes) :
    Walked shape position index site (rowsIn table (table.matching position index
      (orders (position + 1) (kind.home image.header.capacity index)))) := by
  obtain ⟨chains, isDimension, keyTable⟩ := holds.represents.dimension_eq isKind
  have advanced := Cursor.advance_start keyTable index
  rw [table.find_matching] at advanced
  cases isFound : table.matching position index
    (orders (position + 1) (kind.home image.header.capacity index)) with
  | nil =>
    rw [isFound] at advanced
    rcases holds.run_next_of isDimension advanced (by simp) with ⟨-, run⟩ | ⟨_, _, found, -⟩
    · refine ⟨?_, nexts_of_none run⟩
      simp only [first, Edit.run_bind, run, Edit.run_pure]
    · exact absurd found (by simp)
  | cons slot others =>
    rw [isFound] at advanced
    obtain ⟨front, back, split, -, has, isOthers⟩ := List.filter_eq_cons_iff.mp isFound
    rcases holds.run_next_of isDimension advanced (by simpa [Cursor.start] using has) with
      ⟨absent, -⟩ | ⟨_, row, ⟨⟩, there, run⟩
    · exact absurd absent (by simp)
    · rw [rowsIn_cons there]
      refine ⟨?_, @run_nexts _ _ _ _ _ _ _ holds _ _ isKind _ ⟨slot, row⟩ _ _ _ split isOthers⟩
      simp only [first, Edit.run_bind, run, Edit.run_pure]
      rfl

end Holds

/-! ### All ways of reading -/

/-- The rows stand in the arrays of the image, in the slots that the hash tables link. -/
structure Image.Keeps (shape : Shape) (image : Image) (rows : Nat → Option Row) : Prop where
  linked : ∃ live free, image.Partitioned shape live free ∧
    ∀ slot, slot ∈ live ↔ (rows slot).isSome
  stored : ∀ slot row, rows slot = some row → image.entry slot = .ok ⟨slot, row⟩

/-- Whatever the map is asked for, it answers from the same rows in the same slots. -/
structure ReadsAs (shape : Shape) (site : Site Buffer) (rows : Nat → Option Row) : Prop where
  entries : ∃ listed, entries shape site = .ok listed site ∧ (listed.map Entry.slot).Nodup ∧
    ∀ entry, entry ∈ listed ↔ rows entry.slot = some entry.row
  entryAt : ∀ slot, entryAt shape slot site = .ok ((rows slot).map fun row => ⟨slot, row⟩) site
  find : ∀ key, ∃ found, find shape key site = .ok found site ∧
    ∀ slot, found = some slot ↔ ∃ row, rows slot = some row ∧ row.key = key
  entriesFor : ∀ position index, position < shape.indices.length → ∃ listed,
    entriesFor shape position index site = .ok listed site ∧ (listed.map Entry.slot).Nodup ∧
      (∀ entry, entry ∈ listed ↔
        rows entry.slot = some entry.row ∧ entry.row.indices[position]? = some index) ∧
      Walked shape position index site listed

theorem Represents.keeps (represents : Represents shape image table orders) :
    image.Keeps shape table.rowAt where
  linked := ⟨_, table.free, represents.partitions, fun slot => by
    rw [represents.mem_listing, Option.isSome_iff_exists]⟩
  stored _ _ there := represents.entry_eq there

/-- The rows with an index, listed at once and walked over. -/
theorem Holds.reads_index (holds : Holds shape site image table orders) {position : Nat}
    (index : Bytes) (inside : position < shape.indices.length) :
    ∃ listed, entriesFor shape position index site = .ok listed site ∧
      (listed.map Entry.slot).Nodup ∧
      (∀ entry, entry ∈ listed ↔
        table.rowAt entry.slot = some entry.row ∧ entry.row.indices[position]? = some index) ∧
      Walked shape position index site listed := by
  have isKind := List.getElem?_eq_getElem inside
  obtain ⟨chains, isDimension, keyTable⟩ := holds.represents.dimension_eq isKind
  have present (slot : Nat) (member : slot ∈ table.matching position index
      (orders (position + 1) (shape.indices[position].home image.header.capacity index))) :
      ∃ row, table.rowAt slot = some row :=
    SlotTable.exists_row (of_decide_eq_true (List.mem_filter.mp member).2)
  refine ⟨_, holds.run_entriesFor isKind index, ?_, fun entry => ?_, holds.walked isKind index⟩
  · have slots := map_slot_rowsIn present
    unfold SlotTable.matching at slots
    rw [slots]
    exact (keyTable.chained.nodup _).filter _
  · rw [mem_rowsIn, List.mem_filter, decide_eq_true_iff, SlotTable.cell_succ_eq_some]
    constructor
    · rintro ⟨⟨-, row, there, has⟩, isRow⟩
      obtain rfl := Option.some.inj (there.symm.trans isRow)
      exact ⟨isRow, has⟩
    · rintro ⟨isRow, has⟩
      have there := SlotTable.cell_succ_eq_some.mpr ⟨entry.row, isRow, has⟩
      exact ⟨⟨keyTable.mem_home there, entry.row, isRow, has⟩, isRow⟩

/-- The rows with an index are the given ones, listed at once and walked over. -/
structure WalksAs (shape : Shape) (position : Nat) (index : Bytes) (site : Site Buffer)
    (listed : List Entry) : Prop where
  entriesFor : entriesFor shape position index site = .ok listed site
  walked : Walked shape position index site listed

theorem WalksAs.unique {position : Nat} {index : Bytes} {listed other : List Entry}
    (walks : WalksAs shape position index site listed)
    (others : WalksAs shape position index site other) : listed = other :=
  (EStateM.Result.ok.inj (walks.entriesFor.symm.trans others.entriesFor)).1

theorem Holds.walksAs (holds : Holds shape site image table orders) {position : Nat}
    {kind : KeyType} (isKind : shape.indices[position]? = some kind) (index : Bytes) :
    WalksAs shape position index site (rowsIn table (table.matching position index
      (orders (position + 1) (kind.home image.header.capacity index)))) :=
  ⟨holds.run_entriesFor isKind index, holds.walked isKind index⟩

/-- A site that holds a table is read as the rows of the table. -/
theorem Holds.readsAs (holds : Holds shape site image table orders) :
    ReadsAs shape site table.rowAt := by
  have represents := holds.represents
  refine ⟨?_, holds.run_entryAt, fun key => ?_, fun position index => holds.reads_index index⟩
  · refine ⟨_, holds.run_entries, ?_, fun entry => ?_⟩
    · rw [map_slot_rowsIn fun slot => represents.mem_listing.mp]
      exact represents.nodup_listing
    · rw [mem_rowsIn, represents.mem_listing]
      exact ⟨And.right, fun there => ⟨⟨_, there⟩, there⟩⟩
  · refine ⟨_, holds.run_find key, fun slot => ?_⟩
    rw [represents.wellFormed.find_eq_some, SlotTable.cell_zero_eq_some]

/-- There is one set of rows that a map can be read as. -/
theorem ReadsAs.unique {rows others : Nat → Option Row} (reads : ReadsAs shape site rows)
    (readsOthers : ReadsAs shape site others) : rows = others := by
  funext slot
  have same := (EStateM.Result.ok.inj
    ((reads.entryAt slot).symm.trans (readsOthers.entryAt slot))).1
  exact Option.map_injective (fun _ _ equal => congrArg Entry.row equal) same

/-- A key gives the row in some slot that has it. -/
theorem Holds.gets (holds : Holds shape site image table orders) (key : Bytes) :
    ∃ found, get? shape key site = .ok found site ∧
      ∀ row, found = some row ↔ ∃ slot, table.rowAt slot = some row ∧ row.key = key := by
  refine ⟨_, holds.run_get? key, fun row => ?_⟩
  rw [Option.bind_eq_some_iff]
  refine exists_congr fun slot => ?_
  rw [holds.represents.wellFormed.find_eq_some, SlotTable.cell_zero_eq_some]
  constructor
  · rintro ⟨⟨other, isOther, same⟩, there⟩
    obtain rfl := Option.some.inj (there.symm.trans isOther)
    exact ⟨there, same⟩
  · exact fun ⟨there, same⟩ => ⟨⟨row, there, same⟩, there⟩

/-- All ways of reading a reachable map agree. -/
theorem Reachable.reads_agree [LawfulHost Buffer] (wellFormed : shape.WellFormed)
    (reachable : Reachable shape site) :
    ∃ image rows, Image.load shape site.bytes = .ok image ∧ image.Keeps shape rows ∧
      ReadsAs shape site rows := by
  obtain ⟨image, table, orders, holds⟩ := reachable.sound wellFormed
  exact ⟨image, table.rowAt, holds.loaded, holds.represents.keeps, holds.readsAs⟩

/-- Two rows come with the same index, and the first one goes. Its slot is read as free, although its
key is still there. -/
theorem words_read_alike :
    ∃ site : Site BlockBuffer, init (Shape.words 2) {} ⟨.empty none, []⟩ = .ok () site ∧
      ∃ image rows, Image.load (Shape.words 2)
          ((Store.machine (Operation.run (Shape.words 2))).reached
            [.add (.ofWords 1 [7, 8] 10), .add (.ofWords 2 [7, 9] 20),
              .remove (Row.ofWords 1 [] 0).key] site).bytes = .ok image ∧
        image.Keeps (Shape.words 2) rows ∧
        ReadsAs (Shape.words 2)
          ((Store.machine (Operation.run (Shape.words 2))).reached
            [.add (.ofWords 1 [7, 8] 10), .add (.ofWords 2 [7, 9] 20),
              .remove (Row.ofWords 1 [] 0).key] site) rows ∧
        rows 0 = none ∧ rows 1 = some (.ofWords 2 [7, 9] 20) := by
  obtain ⟨site, run⟩ := @run_init_of_granting BlockBuffer _ (Shape.words 2) ⟨.empty none, []⟩ _ _
    BlockBuffer.granting rfl (Shape.wellFormed_words 2) (Shape.supported_words 2) (by decide)
    (by decide) rfl {} (by decide) (by decide)
  have fits : ∀ operation ∈ [Operation.add (.ofWords 1 [7, 8] 10), .add (.ofWords 2 [7, 9] 20),
      .remove (Row.ofWords 1 [] 0).key], operation.Fits (Shape.words 2) := by
    simp only [List.mem_cons, List.not_mem_nil, or_false, forall_eq_or_imp, forall_eq]
    exact ⟨Row.fits_ofWords 1 [7, 8] 10, Row.fits_ofWords 2 [7, 9] 20, trivial⟩
  obtain ⟨image, rows, loaded, keeps, reads⟩ :=
    ((Reachable.init {} run).reached fits).reads_agree (Shape.wellFormed_words 2)
  obtain ⟨start, created, continues, -⟩ := holds_of_init (Shape.wellFormed_words 2) run
  -- the rows are those of the slot table that the map follows
  have mirrors : Mirrors (fun buffer => buffer.limit = none) (Shape.words 2) site SlotTable.empty :=
    ⟨continues _ BlockBuffer.granting rfl, start, _, created⟩
  obtain ⟨-, _, _, holds⟩ :=
    mirrors.reached BlockBuffer.granting (Shape.wellFormed_words 2) (by decide) fits
  have same (slot : Nat) := (EStateM.Result.ok.inj
    ((reads.entryAt slot).symm.trans (holds.run_entryAt slot))).1
  refine ⟨site, run, image, rows, loaded, keeps, reads, ?_, ?_⟩
  · exact Option.map_eq_none_iff.mp ((same 0).trans rfl)
  · obtain ⟨row, there, isRow⟩ := Option.map_eq_some_iff.mp ((same 1).trans rfl)
    rw [there]
    exact congrArg (fun entry => some entry.row) isRow

end PackedStore.IndexedMap
