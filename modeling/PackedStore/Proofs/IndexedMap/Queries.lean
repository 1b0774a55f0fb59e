/-
This file says what the questions about the rows of an indexed map answer. A slot
holds a row exactly when its key is found there. The rows with an index are those
in the bucket of the index, in the order of its chain; a cursor goes through them
one after another, and stands on a row of the map as long as the map is not
changed.
-/

import PackedStore.Proofs.IndexedMap.Contents

namespace PackedStore.IndexedMap

variable {Buffer : Type} [Host Buffer] {shape : Shape} {site : Site Buffer} {image : Image}
  {table : SlotTable} {orders : Nat → Nat → List Nat}

theorem SlotTable.exists_row {position slot : Nat} {key : Bytes}
    (there : table.cell position slot = some key) : ∃ row, table.rowAt slot = some row := by
  obtain ⟨row, isRow, -⟩ := Option.bind_eq_some_iff.mp there
  exact ⟨row, isRow⟩

/-! ### By slot -/

namespace Represents

/-- A slot is live if it holds a row. One that is free again keeps its key, but if that is found at
all, it is found elsewhere. -/
theorem isLive_eq (represents : Represents shape image table orders) (slot : Nat) :
    image.isLive shape slot = .ok (table.rowAt slot).isSome := by
  have keyTable := represents.tabled.key
  by_cases used : slot < image.header.allocatedIndex
  · have inside : slot < image.key.keys.size := by
      have room := represents.room
      rw [represents.allocated] at used
      have sized := represents.wellFormed.sized (Nat.lt_of_le_of_lt (Nat.zero_le _) used)
      rw [keyTable.size_keys]
      exact Codec.lt_arraySize.mpr ⟨sized.kinds _ List.mem_cons_self, by omega⟩
    have stored := Array.getElem?_eq_getElem inside
    rw [Image.isLive, if_pos used, fetch_of stored, Checked.bind_ok, represents.find_eq,
      Checked.bind_ok]
    refine congrArg Except.ok (Bool.eq_iff_iff.mpr ?_)
    rw [beq_iff_eq, represents.wellFormed.find_eq_some]
    constructor
    · intro there
      obtain ⟨row, isRow⟩ := SlotTable.exists_row there
      rw [isRow]
      rfl
    · intro live
      obtain ⟨row, isRow⟩ := Option.isSome_iff_exists.mp live
      have there := SlotTable.cell_zero_eq_some.mpr ⟨row, isRow, rfl⟩
      rw [there, ← keyTable.getElem?_keys slot row.key there, stored]
  · have vacant : table.rowAt slot = none := by
      refine Option.eq_none_iff_forall_ne_some.mpr fun row there => used ?_
      rw [represents.allocated]
      exact SlotTable.row_lt there
    rw [Image.isLive, if_neg used, vacant]
    rfl

/-! ### By index -/

/-- The hash table of an index is a key table of that index of the rows. -/
theorem dimension_eq (represents : Represents shape image table orders) {position : Nat}
    {kind : KeyType} (isKind : shape.indices[position]? = some kind) :
    ∃ chains, dimension shape image position = .ok (kind, chains) ∧
      KeyTable kind image.header.capacity (table.cell (position + 1)) (orders (position + 1))
        chains := by
  have lengths : image.indices.length = shape.indices.length :=
    Nat.succ.inj represents.tabled.length_eq
  have inside : position < image.indices.length := by
    rw [lengths]
    exact (List.getElem?_eq_some_iff.mp isKind).1
  have there := List.getElem?_eq_getElem inside
  refine ⟨_, orFail_eq_ok.mpr (List.getElem?_zip_eq_some.mpr ⟨isKind, there⟩), ?_⟩
  exact represents.tabled.table (position + 1) kind _ isKind there

end Represents

/-- The cursor is in front of all rows, or on one of them. -/
def Cursor.Live (table : SlotTable) (cursor : Cursor) : Prop :=
  ∀ slot, cursor.slot = some slot → ∃ row, table.rowAt slot = some row

theorem Cursor.live_start (index : Bytes) : (Cursor.start index).Live table :=
  fun _ isSlot => absurd isSlot (by simp [Cursor.start])

namespace Cursor

section

variable {kind : KeyType} {capacity : Nat} {cell : Nat → Option Bytes} {order : Nat → List Nat}
  {chains : HashChains Bytes} (keyTable : KeyTable kind capacity cell order chains)

include keyTable

/-- The first slot with an index is the first one in the list of its bucket. -/
theorem advance_start (index : Bytes) :
    (start index).advance kind.hash chains =
      .ok (((order (kind.home capacity index)).find? fun slot => cell slot = some index).map
        fun slot => ⟨index, some slot⟩) := by
  simp only [start, advance, keyTable.find_eq]
  rfl

/-- Behind a slot, the next slot with an index is the next one in the list. -/
theorem advance_behind {bucket slot : Nat} {before after : List Nat}
    (split : order bucket = before ++ slot :: after) (index : Bytes) :
    (⟨index, some slot⟩ : Cursor).advance kind.hash chains =
      .ok ((after.find? fun slot => cell slot = some index).map fun slot => ⟨index, some slot⟩) := by
  simp only [advance, keyTable.findAfter_eq split]
  rfl

/-- A cursor on a linked slot goes to the next slot with its index, if there is one. -/
theorem advance_eq {cursor : Cursor}
    (linked : ∀ slot, cursor.slot = some slot → (cell slot).isSome) :
    ∃ found, cursor.advance kind.hash chains =
        .ok (found.map fun slot => ⟨cursor.index, some slot⟩) ∧
      ∀ slot, found = some slot → cell slot = some cursor.index := by
  have first (slots : List Nat) (slot : Nat)
      (found : (slots.find? fun slot => cell slot = some cursor.index) = some slot) :
      cell slot = some cursor.index := by
    have hasIndex := List.find?_some found
    exact of_decide_eq_true hasIndex
  obtain ⟨index, place⟩ := cursor
  cases place with
  | none => exact ⟨_, advance_start keyTable index, first (order (kind.home capacity index))⟩
  | some slot =>
    obtain ⟨bucket, member⟩ := (keyTable.linked slot).mpr (linked slot rfl)
    obtain ⟨before, after, split⟩ := List.append_of_mem member
    exact ⟨_, advance_behind keyTable split index, first after⟩

end

end Cursor

namespace Holds

variable (holds : Holds shape site image table orders)

include holds

theorem run_entryAt (slot : Nat) :
    entryAt shape slot site =
      .ok ((table.rowAt slot).map fun row => ⟨slot, row⟩) site := by
  refine Store.run_view_ok holds.loaded ?_
  rw [holds.represents.isLive_eq, Checked.bind_ok]
  cases there : table.rowAt slot with
  | none => rfl
  | some row =>
    rw [Option.isSome_some, if_pos rfl, holds.represents.entry_eq there, Checked.bind_ok]
    rfl

variable {position : Nat} {kind : KeyType} (isKind : shape.indices[position]? = some kind)

include isKind

/-- The rows with an index are those in its bucket that have it. -/
theorem run_entriesFor (index : Bytes) :
    entriesFor shape position index site =
      .ok (rowsIn table ((orders (position + 1) (kind.home image.header.capacity index)).filter
        fun slot => table.cell (position + 1) slot = some index)) site := by
  obtain ⟨chains, found, keyTable⟩ := holds.represents.dimension_eq isKind
  refine Store.run_view_ok holds.loaded ?_
  simp only [found, Checked.bind_ok, keyTable.allMatches_eq]
  refine holds.represents.mapM_entry fun slot member => ?_
  exact SlotTable.exists_row (of_decide_eq_true (List.mem_filter.mp member).2)

omit isKind in
/-- Where the chain of an index leads a cursor, the walk follows. -/
theorem run_next_of {cursor : Cursor} {chains : HashChains Bytes} {found : Option Nat}
    (isDimension : dimension shape image position = .ok (kind, chains))
    (advanced : cursor.advance kind.hash chains =
      .ok (found.map fun slot => ⟨cursor.index, some slot⟩))
    (indexed : ∀ slot, found = some slot → table.cell (position + 1) slot = some cursor.index) :
    (found = none ∧ next shape position cursor site = .ok (none, cursor) site) ∨
      ∃ slot row, found = some slot ∧ table.rowAt slot = some row ∧
        next shape position cursor site = .ok (some ⟨slot, row⟩, ⟨cursor.index, some slot⟩) site := by
  cases found with
  | none =>
    refine Or.inl ⟨rfl, Store.run_view_ok holds.loaded ?_⟩
    simp only [isDimension, Checked.bind_ok, advanced, Option.map_none]
    rfl
  | some slot =>
    obtain ⟨row, there⟩ := SlotTable.exists_row (indexed slot rfl)
    refine Or.inr ⟨slot, row, rfl, there, Store.run_view_ok holds.loaded ?_⟩
    simp only [isDimension, Checked.bind_ok, advanced, Option.map_some, Option.getD_some,
      holds.represents.entry_eq there]
    rfl

/-- A cursor goes on to a row with its index, or stays where it is if there is no more. -/
theorem run_next {cursor : Cursor} (live : cursor.Live table) :
    next shape position cursor site = .ok (none, cursor) site ∨
      ∃ slot row, table.rowAt slot = some row ∧
        table.cell (position + 1) slot = some cursor.index ∧
        next shape position cursor site = .ok (some ⟨slot, row⟩, ⟨cursor.index, some slot⟩) site := by
  have represents := holds.represents
  obtain ⟨chains, isDimension, keyTable⟩ := represents.dimension_eq isKind
  have linked (slot : Nat) (isSlot : cursor.slot = some slot) :
      (table.cell (position + 1) slot).isSome := by
    obtain ⟨row, there⟩ := live slot isSlot
    have inside : position + 1 < shape.kinds.length :=
      Nat.succ_lt_succ (List.getElem?_eq_some_iff.mp isKind).1
    rw [represents.wellFormed.cell_isSome inside, there]
    rfl
  obtain ⟨found, advanced, indexed⟩ := Cursor.advance_eq keyTable linked
  rcases holds.run_next_of isDimension advanced indexed with
    ⟨-, run⟩ | ⟨slot, row, isSlot, there, run⟩
  · exact Or.inl run
  · exact Or.inr ⟨slot, row, there, indexed slot isSlot, run⟩

/-- The first row of a walk is one with the index. -/
theorem run_first (index : Bytes) :
    first shape position index site = .ok none site ∨
      ∃ slot row, table.rowAt slot = some row ∧ table.cell (position + 1) slot = some index ∧
        first shape position index site = .ok (some (⟨slot, row⟩, ⟨index, some slot⟩)) site := by
  rcases holds.run_next isKind (Cursor.live_start index) with run | ⟨slot, row, there, indexed, run⟩
  · refine Or.inl ?_
    simp only [first, Edit.run_bind, run, Edit.run_pure]
  · refine Or.inr ⟨slot, row, there, indexed, ?_⟩
    simp only [first, Edit.run_bind, run, Edit.run_pure]
    rfl

end Holds

/-! ### Cursors -/

/-- The cursors that walks from a first row on lead to, while the site stays as it is. -/
inductive Cursor.Current (shape : Shape) (site : Site Buffer) : Cursor → Prop where
  | start (index : Bytes) : Current shape site (Cursor.start index)
  | next {position : Nat} {cursor moved : Cursor} {entry : Option Entry}
      (current : Current shape site cursor) (inside : position < shape.indices.length)
      (run : next shape position cursor site = .ok (entry, moved) site) : Current shape site moved

/-- A cursor that has only been moved stands on a row, even if it changed to another index. -/
theorem Cursor.Current.live {cursor : Cursor} (current : cursor.Current shape site)
    (holds : Holds shape site image table orders) : cursor.Live table := by
  induction current with
  | start index => exact Cursor.live_start index
  | next _ inside run inductionHypothesis =>
    rcases holds.run_next (List.getElem?_eq_getElem inside) inductionHypothesis with
      ran | ⟨slot, row, there, -, ran⟩
    · obtain ⟨answer, -⟩ := EStateM.Result.ok.inj (run.symm.trans ran)
      obtain ⟨-, rfl⟩ := Prod.mk.inj answer
      exact inductionHypothesis
    · obtain ⟨answer, -⟩ := EStateM.Result.ok.inj (run.symm.trans ran)
      obtain ⟨-, rfl⟩ := Prod.mk.inj answer
      rintro other ⟨⟩
      exact ⟨row, there⟩

end PackedStore.IndexedMap
