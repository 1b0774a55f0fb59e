/-
This file stores values in an untyped map. A new entry needs a slot and, if its
value is large, room in the arena; both are found before anything is written, so
an entry is stored whole or not at all. Another value of the same size takes the
place of the old one where it suits the new one, and moves to a new place in the
arena otherwise.
-/

import PackedStore.Proofs.UntypedMap.Outcomes

namespace PackedStore.UntypedMap

variable {Buffer : Type} [Host Buffer] {known : ElementType → Prop} {key : KeyType}
  {site : Site Buffer} {image : Image} {entries : List Entry} {order : Nat → List Nat}

/-! ### New entries -/

/-- What makes room for one more slot. -/
def makeRoom (key : KeyType) (before : Header) : Store Buffer Unit := do
  if before.count = before.capacity then
    grow key (← nextCapacity before.count before.capacity before.log2MinGrowth)

/-- What takes room for a value from the arena, if it is large. -/
def takeRoom (key : KeyType) (payload : Payload) : Store Buffer (Option Nat) :=
  if isLarge payload.bytes.size then
    some <$> allocate key payload.bytes.size payload.align
  else pure none

/-- What puts a new entry into a free slot. -/
def fillSlot (key : KeyType) (entryKey : Bytes) (payload : Payload) : Store Buffer Nat := do
  let offset ← takeRoom key payload
  Store.edit (format key.toElementType) (place key entryKey payload offset)

theorem insertNew_eq {entryKey : Bytes} {payload : Payload} :
    insertNew key entryKey payload = (do
      demand (payload.bytes.size < 2 ^ 16) (.valueTooLarge payload.bytes.size)
      let before ← header
      makeRoom key before
      fillSlot key entryKey payload : Store Buffer Nat) := by
  have taken : (if isLarge payload.bytes.size then do
        let offset ← some <$> allocate key payload.bytes.size payload.align
        Store.edit (format key.toElementType) (place key entryKey payload offset)
      else do
        let offset ← pure none
        Store.edit (format key.toElementType) (place key entryKey payload offset) :
        Store Buffer Nat) = fillSlot key entryKey payload := by
    unfold fillSlot takeRoom
    split <;> rfl
  simp only [insertNew, makeRoom, taken]
  refine congrArg _ (funext fun _ => congrArg _ (funext fun before => ?_))
  split
  · rw [bind_assoc]
  · rw [pure_bind]

namespace Holds

variable [LawfulHost Buffer] (wellFormed : key.toElementType.WellFormed)
  (holds : Holds known key site image entries order)

include wellFormed holds

/-- There is a slot for one more entry, or there are too many entries already. -/
theorem run_makeRoom :
    (∃ failure, makeRoom key image.header site = .error failure site ∧ failure.IsStorage ∧
      (¬ image.header.count < maxCapacity ∨ CannotGrow key site failure)) ∨
    ∃ later roomy relinked, makeRoom key image.header site = .ok () later ∧
      Holds known key later roomy entries relinked ∧
      entries.length < roomy.header.capacity ∧
      roomy.header.dataAllocated = image.header.dataAllocated ∧ site.Continues later := by
  have represents := holds.represents
  have reached := represents.framed.header.reached
  have count := represents.count
  by_cases full : image.header.count = image.header.capacity
  · have run : makeRoom key image.header site =
        (liftM (nextCapacity image.header.count image.header.capacity
          image.header.log2MinGrowth) >>= grow key : Store Buffer Unit) site := by
      simp only [makeRoom, if_pos full]
    rw [nextCapacity_eq reached (Nat.le_of_eq full)] at run
    by_cases largest : image.header.capacity = maxCapacity
    · refine Or.inl ⟨.overflow .slotCapacity, ?_, Failure.isStorage_overflow _, Or.inl (by omega)⟩
      rw [run, if_pos largest]
      rfl
    · rw [if_neg largest, Edit.run_bind, Edit.run_lift_ok] at run
      rcases holds.run_larger wellFormed (reached.double largest) reached.lt_double with
        ⟨failure, refused, cause⟩ | ⟨later, grown, relinked, runGrow, holdsLater, isHeader, continues⟩
      · exact Or.inl ⟨failure, run.trans refused, cause.isStorage (holds.supported wellFormed),
          Or.inr cause⟩
      · have positive := reached.pos
        refine Or.inr ⟨later, grown, relinked, run.trans runGrow, holdsLater, ?_, ?_, continues⟩
        · rw [isHeader]
          show entries.length < 2 * image.header.capacity
          omega
        · rw [isHeader]
          rfl
  · have least := represents.framed.header.count_le
    refine Or.inr ⟨site, image, order, ?_, holds, by omega, rfl, Site.Continues.refl site⟩
    simp only [makeRoom, if_neg full, Edit.run_pure]

/-- A value can be written to a slot behind all entries once room has been taken for it. -/
theorem run_takeRoom {payload : Payload} (size : payload.bytes.size < 2 ^ 16)
    (fits : payload.Fits known) (below : entries.length < image.header.capacity) :
    (∃ failure, takeRoom key payload site = .error failure site ∧ failure.IsStorage ∧
      (∃ required, ensureData key required site = .error failure site) ∧
      (¬ image.ArenaRoom payload ∨ CannotGrow key site failure)) ∨
    ∃ offset later roomy cells, takeRoom key payload site = .ok offset later ∧
      Holds known key later roomy entries order ∧
      roomy.header.capacity = image.header.capacity ∧
      writeNew entries.length payload.bytes offset roomy.cells = .ok () cells ∧
      cells.arena.size = roomy.cells.arena.size ∧
      ValueTable known roomy.header.capacity roomy.header.dataAllocated
        (Function.update (Entries.stored entries) entries.length (some payload.value)) cells ∧
      site.Continues later := by
  by_cases large : 4 < payload.bytes.size
  · obtain ⟨offset, planned, behind, word, aligned, either⟩ :=
      holds.run_allocate wellFormed size fits.supported
    have isLarge := isLarge_iff.mpr large
    rcases either with ⟨failure, refused, short, cause⟩ |
      ⟨room, later, roomy, dataCapacity, allocated, holdsLater, values, isHeader, continues⟩
    · refine Or.inl ⟨failure, ?_, holds.isStorage_of_arena wellFormed cause, ⟨_, short⟩,
        cause.imp_left fun beyond room => ?_⟩
      · simp only [takeRoom, isLarge, if_true, Edit.run_map, refused]
      · rcases room with small | ⟨allocation, planned', within⟩
        · omega
        · obtain rfl := Option.some.inj (planned.symm.trans planned')
          exact absurd within (Nat.not_le_of_lt beyond.1)
    · have framed := holdsLater.represents.framed
      have capacity : roomy.header.capacity = image.header.capacity := by
        rw [isHeader]
        rfl
      have used : roomy.header.dataAllocated = offset + wordsFor payload.bytes.size := by
        rw [isHeader]
        rfl
      have inside := framed.header.allocated_le
      obtain ⟨cells, written, size_arena, stored⟩ :=
        @ValueTable.writeLarge_spec known _ _ _ _ entries.length payload.value values below large
          offset behind word
          (by
            rw [framed.size_arena]
            exact Nat.mul_le_mul_right _ (Nat.le_trans (Nat.le_of_eq used.symm) inside))
          (fits.suits aligned)
      refine Or.inr ⟨some offset, later, roomy, cells, ?_, holdsLater, capacity, written, size_arena,
        ?_, continues⟩
      · simp only [takeRoom, isLarge, if_true, Edit.run_map, allocated]
      · rw [capacity, used]
        exact stored
  · have small := Nat.le_of_not_lt large
    obtain ⟨cells, written, size_arena, stored⟩ :=
      @ValueTable.writeInline_spec known _ _ _ _ entries.length payload.value
        holds.represents.values below small
    refine Or.inr ⟨none, site, image, cells, ?_, holds, rfl, written, size_arena, stored,
      Site.Continues.refl site⟩
    simp only [takeRoom, not_isLarge_iff.mpr small, Bool.false_eq_true, if_false, Edit.run_pure]

/-- A new entry takes a free slot behind all others, or the arena has no room for its value. -/
theorem run_fillSlot {entryKey : Bytes} (isKey : key.Fits entryKey)
    (absent : Entries.find entries entryKey = none) {payload : Payload} (fits : payload.Fits known)
    (size : payload.bytes.size < 2 ^ 16) (below : entries.length < image.header.capacity) :
    (∃ failure, fillSlot key entryKey payload site = .error failure site ∧ failure.IsStorage ∧
      (∃ required, ensureData key required site = .error failure site) ∧
      (¬ image.ArenaRoom payload ∨ CannotGrow key site failure)) ∨
    ∃ later, fillSlot key entryKey payload site = .ok entries.length later ∧
      Follows known key site later (entries ++ [⟨entryKey, payload.value⟩]) := by
  rcases holds.run_takeRoom wellFormed size fits below with
    ⟨failure, refused, storage, short, cause⟩ |
    ⟨offset, taken, wide, cells, took, holdsTaken, capacity, written, size_arena, values, continues⟩
  · refine Or.inl ⟨failure, ?_, storage, short, cause⟩
    simp only [fillSlot, Edit.run_bind, refused]
  · obtain ⟨changed, runPlace, layout, -, -, represents⟩ :=
      holdsTaken.represents.place_spec (capacity ▸ below) isKey
        (holds.represents.distinct.not_cell absent) size written size_arena values
    obtain ⟨later, runEdit, holdsLater, continuesLater⟩ :=
      run_edit wellFormed holdsTaken.loaded holdsTaken.size_eq runPlace layout represents
    refine Or.inr ⟨later, ?_, continues.trans continuesLater, changed, _, holdsLater⟩
    simp only [fillSlot, Edit.run_bind, took, runEdit]

/-- A new entry comes behind all others. -/
theorem run_insertNew {entryKey : Bytes} (isKey : key.Fits entryKey)
    (absent : Entries.find entries entryKey = none) {payload : Payload}
    (fits : payload.Fits known) :
    Performs known key site entries (image.InsertRoom payload) (insertNew key entryKey payload)
      (Entries.insert entries entryKey payload) := by
  by_cases size : payload.bytes.size < 2 ^ 16
  · have run : insertNew key entryKey payload site = ((do
        makeRoom key image.header
        fillSlot key entryKey payload : Store Buffer Nat) site) := by
      simp only [insertNew_eq, Edit.run_bind, demand_of size, Edit.run_lift_ok, holds.run_header]
    have expects : Entries.insert entries entryKey payload =
        .ok (entries.length, entries ++ [⟨entryKey, payload.value⟩]) := by
      rw [Entries.insert, demand_of size]
      rfl
    rcases holds.run_makeRoom wellFormed with ⟨failure, refused, storage, cause⟩ |
      ⟨roomy, larger, relinked, made, holdsRoomy, below, used, continues⟩
    · have runRefused : insertNew key entryKey payload site = .error failure site := by
        simp only [run, Edit.run_bind, refused]
      exact .refused runRefused holds.follows storage (cause.imp (fun beyond room => beyond room.1)
        fun cannotGrow => ⟨site, Site.Continues.refl site, cannotGrow⟩)
    · rcases holdsRoomy.run_fillSlot wellFormed isKey absent fits size below with
        ⟨failure, refused, storage, -, cause⟩ | ⟨later, filled, follows⟩
      · have runRefused : insertNew key entryKey payload site = .error failure roomy := by
          simp only [run, Edit.run_bind, made, refused]
        refine .refused runRefused ⟨continues, larger, relinked, holdsRoomy⟩ storage
          (cause.imp (fun beyond room => beyond ?_) fun cannotGrow => ⟨roomy, continues, cannotGrow⟩)
        rcases room.2 with small | planned
        · exact Or.inl small
        · rw [← used] at planned
          exact Or.inr planned
      · refine .answered ?_ expects (follows.after continues)
        simp only [run, Edit.run_bind, made, filled]
  · have run : insertNew key entryKey payload site =
        .error (.misuse (.valueTooLarge payload.bytes.size)) site := by
      simp only [insertNew, Edit.run_bind, demand_of_not size, Edit.run_lift_error]
    refine .failed run ?_ holds.follows
    rw [Entries.insert, demand_of_not size]
    rfl

end Holds

/-! ### Other values -/

namespace Represents

variable (represents : Represents known key image entries order) {slot : Nat} {old : Value}
  (there : Entries.stored entries slot = some old)

include represents there

theorem slot_lt : slot < image.types.size ∧ slot < image.sizes.size :=
  ⟨(Array.getElem?_eq_some_iff.mp (represents.described.tags slot old there)).1,
    (Array.getElem?_eq_some_iff.mp (represents.described.sizes slot old there)).1⟩

theorem old_lt : old.bytes.size < 2 ^ 16 :=
  represents.framed.sizes _ (Array.mem_of_getElem? (represents.described.sizes slot old there))

/-- A value of the same size can take the place of the old one if it suits it. -/
theorem overwrite_spec {payload : Payload} (fits : payload.Fits known)
    (size : payload.bytes.size = old.bytes.size) (keeps : image.Keeps slot payload) :
    ∃ cells, ValueCells.overwrite slot payload.bytes image.cells = .ok () cells ∧
      (4 < old.bytes.size → cells.words = image.cells.words) ∧
      Represents known key
        { image with cells, types := image.types.setIfInBounds slot payload.tag }
        (Entries.put entries slot payload.value) order := by
  obtain ⟨cells, run, size_arena, -, words, values⟩ :=
    @ValueTable.overwrite_spec known _ _ _ _ slot payload.value represents.values old there size
      (by
        intro word large isWord
        rcases keeps with small | aligned
        · omega
        · exact fits.suits (aligned word isWord))
  exact ⟨cells, run, words, represents.setValue there size size_arena values⟩

/-- A value of the type of the old one can take its place, where the type is recorded already. -/
theorem overwrite_typed (types : AlignedTypes known) {datum : Datum} (isKnown : known datum.type)
    (same : old.tag = datum.type.tag ∧ old.bytes.size = datum.type.size) :
    ∃ cells, ValueCells.overwrite slot datum.bytes image.cells = .ok () cells ∧
      Represents known key { image with cells } (Entries.put entries slot datum.payload.value)
        order := by
  have keeps : image.Keeps slot datum.payload := by
    by_cases large : 4 < old.bytes.size
    · refine Or.inr fun word isWord => ?_
      exact represents.values.suits slot old word ⟨there, large, isWord⟩ datum.type isKnown
        same.1.symm same.2.symm
    · refine Or.inl ?_
      rw [Datum.payload, datum.size_bytes, ← same.2]
      exact Nat.le_of_not_lt large
  obtain ⟨cells, written, -, changed⟩ := represents.overwrite_spec there (types.fits_payload isKnown)
    (datum.size_bytes.trans same.2.symm) keeps
  have tag := represents.described.tags slot old there
  rw [same.1] at tag
  have types : image.types.setIfInBounds slot datum.payload.tag = image.types :=
    setIfInBounds_of_there tag
  rw [types] at changed
  exact ⟨cells, written, changed⟩

end Represents

/-- What moves the value of a slot to a new place in the arena. -/
def move (key : KeyType) (slot : Nat) (payload : Payload) : Store Buffer Unit := do
  let offset ← allocate key payload.bytes.size payload.align
  Store.edit (format key.toElementType) (putType slot payload.tag)
  Store.report (.valueMoved slot offset)
  Store.edit (format key.toElementType)
    (onCells (ValueCells.writeLarge slot offset payload.bytes))

namespace Holds

variable [LawfulHost Buffer] (wellFormed : key.toElementType.WellFormed)
  (holds : Holds known key site image entries order)

section

variable {slot : Nat} {old : Value} (there : Entries.stored entries slot = some old)

include wellFormed holds there

/-- A value that can take the place of the old one does so. -/
theorem run_overwrite {payload : Payload} (fits : payload.Fits known)
    (size : payload.bytes.size = old.bytes.size) (keeps : image.Keeps slot payload) :
    ∃ later,
      Store.edit (format key.toElementType) (do
        putType slot payload.tag
        onCells (ValueCells.overwrite slot payload.bytes)) site = .ok () later ∧
      Follows known key site later (Entries.put entries slot payload.value) := by
  obtain ⟨cells, run, -, represents⟩ := holds.represents.overwrite_spec there fits size keeps
  have inTypes := (holds.represents.slot_lt there).1
  have ran : (do
      putType slot payload.tag
      onCells (ValueCells.overwrite slot payload.bytes) : Edit Image Unit) image =
      .ok () { image with cells, types := image.types.setIfInBounds slot payload.tag } := by
    rw [Edit.run_bind, run_putType inTypes]
    exact @run_onCells { image with types := image.types.setIfInBounds slot payload.tag }
      _ _ _ _ run
  obtain ⟨later, runEdit, holdsLater, continues⟩ :=
    run_edit wellFormed holds.loaded holds.size_eq ran rfl represents
  exact ⟨later, runEdit, continues, _, order, holdsLater⟩

/-- A value that cannot take the place of the old one moves to a new place, which a large enough
arena has. -/
theorem run_move {payload : Payload} (fits : payload.Fits known)
    (size : payload.bytes.size = old.bytes.size) (large : 4 < payload.bytes.size) :
    (∃ failure, move key slot payload site = .error failure site ∧ failure.IsStorage ∧
      (¬ image.ArenaRoom payload ∨ CannotGrow key site failure)) ∨
    ∃ later, move key slot payload site = .ok () later ∧
      Follows known key site later (Entries.put entries slot payload.value) := by
  have short := holds.represents.old_lt there
  rw [← size] at short
  obtain ⟨offset, planned, behind, word, aligned, either⟩ :=
    holds.run_allocate wellFormed short fits.supported
  rcases either with ⟨failure, refused, -, cause⟩ |
    ⟨room, roomy, wide, dataCapacity, allocated, holdsRoomy, values, isHeader, continues⟩
  · refine Or.inl ⟨failure, by simp only [move, Edit.run_bind, refused],
      holds.isStorage_of_arena wellFormed cause, cause.imp_left fun beyond room => ?_⟩
    rcases room with small | ⟨allocation, planned', within⟩
    · omega
    · obtain rfl := Option.some.inj (planned.symm.trans planned')
      exact absurd within (Nat.not_le_of_lt beyond.1)
  · have represents := holdsRoomy.represents
    have framed := represents.framed
    have sound := represents.sound
    have used : wide.header.dataAllocated = offset + wordsFor payload.bytes.size := by
      rw [isHeader]
      rfl
    have capacity : wide.header.capacity = image.header.capacity := by
      rw [isHeader]
      rfl
    let tagged : Image := { wide with types := wide.types.setIfInBounds slot payload.tag }
    have soundTagged : tagged.Sound key :=
      ⟨sound.computed, sound.header, sound.size_words, sound.size_arena, sound.chains,
        Array.size_setIfInBounds.trans sound.size_types, sound.size_sizes, sound.sizes⟩
    obtain ⟨marked, runMark, loadedMarked, sizeMarked, continuesMarked⟩ :=
      run_edit_of_sound wellFormed holdsRoomy.loaded holdsRoomy.size_eq
        (run_putType (represents.slot_lt there).1 payload.tag) (by rfl) soundTagged
    obtain ⟨cells, written, size_arena, stored⟩ :=
      @ValueTable.writeLarge_spec known _ _ _ _ slot payload.value values
        (values.lt_capacity slot old there) large offset behind word
        (by
          rw [framed.size_arena]
          exact Nat.mul_le_mul_right _
            (Nat.le_trans (Nat.le_of_eq used.symm) framed.header.allocated_le))
        (fits.suits aligned)
    have moved : ValueTable known wide.header.capacity wide.header.dataAllocated
        (Function.update (Entries.stored entries) slot (some payload.value)) cells := by
      rw [capacity, used]
      exact stored
    let reported : Site Buffer :=
      { marked with events := marked.events ++ [.valueMoved slot offset] }
    obtain ⟨later, runWrite, holdsLater, continuesLater⟩ :=
      @run_edit _ _ known key reported tagged _ order _ wellFormed loadedMarked sizeMarked _ _ _ _
        (@run_onCells tagged _ _ _ _ written) (by rfl)
        (represents.setValue there size size_arena moved)
    refine Or.inr ⟨later, ?_, continues.trans (continuesMarked.trans
      ((Site.Continues.report marked reported.events).trans continuesLater)), _, order, holdsLater⟩
    simp only [move, Edit.run_bind, allocated, runMark, Store.run_report]
    exact runWrite

omit [LawfulHost Buffer] wellFormed in
theorem exists_word : ∃ word, image.cells.words[slot]? = some word ∧
    Store.view (format key.toElementType)
        (fun image => return (← fetch image.sizes slot, ← fetch image.cells.words slot)) site =
      .ok (old.bytes.size, word) site := by
  have values := holds.represents.values
  obtain ⟨word, isWord⟩ := values.exists_word (values.lt_capacity slot old there)
  refine ⟨word, isWord, Store.run_view_ok holds.loaded ?_⟩
  rw [fetch_of (holds.represents.described.sizes slot old there), fetch_of isWord]
  rfl

omit [LawfulHost Buffer] wellFormed in
/-- A value that can take the place of the old one is written over it. -/
theorem replace_eq_overwrite {payload : Payload} (fits : payload.Fits known)
    (size : old.bytes.size = payload.bytes.size) (keeps : image.Keeps slot payload) :
    replace key slot payload site =
      Store.edit (format key.toElementType) (do
        putType slot payload.tag
        onCells (ValueCells.overwrite slot payload.bytes)) site := by
  obtain ⟨word, isWord, viewed⟩ := holds.exists_word there
  simp only [replace, Edit.run_bind, viewed, demand_of size, Edit.run_lift_ok]
  by_cases large : 4 < payload.bytes.size
  · have aligned := keeps.resolve_left (Nat.not_le_of_lt large) word isWord
    simp only [isLarge_iff.mpr large, if_true, isAligned_eq fits.supported.pos,
      decide_eq_true aligned, Edit.run_bind, Edit.run_lift_ok]
  · simp only [not_isLarge_iff.mpr (Nat.le_of_not_lt large), Bool.false_eq_true, if_false,
      if_true, Edit.run_bind, Edit.run_pure]

/-- A value of the same size replaces the old one, or finds no room. -/
theorem run_replace_same {payload : Payload} (fits : payload.Fits known)
    (size : old.bytes.size = payload.bytes.size) :
    (∃ failure, replace key slot payload site = .error failure site ∧ failure.IsStorage ∧
      (¬ (image.Keeps slot payload ∨ image.ArenaRoom payload) ∨ CannotGrow key site failure)) ∨
    ∃ later, replace key slot payload site = .ok () later ∧
      Follows known key site later (Entries.put entries slot payload.value) := by
  obtain ⟨word, isWord, viewed⟩ := holds.exists_word there
  by_cases keeps : image.Keeps slot payload
  · obtain ⟨later, run, follows⟩ := holds.run_overwrite wellFormed there fits size.symm keeps
    exact Or.inr ⟨later, (holds.replace_eq_overwrite there fits size keeps).trans run, follows⟩
  · have large : 4 < payload.bytes.size := Nat.lt_of_not_le fun small => keeps (Or.inl small)
    have notAligned : ¬ payload.align ∣ word.toNat * wordSize := fun aligned =>
      keeps (Or.inr fun other isOther => by
        rw [← Option.some.inj (isWord.symm.trans isOther)]
        exact aligned)
    have moves : replace key slot payload site = move key slot payload site := by
      simp only [replace, move, Edit.run_bind, viewed, demand_of size, Edit.run_lift_ok,
        isLarge_iff.mpr large, if_true, isAligned_eq fits.supported.pos,
        decide_eq_false notAligned, Bool.false_eq_true, if_false]
    rw [moves]
    rcases holds.run_move wellFormed there fits size.symm large with
      ⟨failure, refused, storage, cause⟩ | moved
    · exact Or.inl ⟨failure, refused, storage,
        cause.imp_left fun full room => full (room.resolve_left keeps)⟩
    · exact Or.inr moved

omit [LawfulHost Buffer] wellFormed in
/-- A value of another size is refused. -/
theorem run_replace_other {payload : Payload} (size : ¬ old.bytes.size = payload.bytes.size) :
    replace key slot payload site = .error (.misuse
      (.sizeMismatch slot old.bytes.size payload.type payload.bytes.size)) site := by
  obtain ⟨word, -, viewed⟩ := holds.exists_word there
  simp only [replace, Edit.run_bind, viewed, demand_of_not size, Edit.run_lift_error]

/-- A value of the same size replaces the old one, another one is a misuse. -/
theorem run_replace {payload : Payload} (fits : payload.Fits known) :
    Performs known key site entries (image.ReplaceRoom slot payload) (replace key slot payload)
      (Entries.replace entries slot payload) := by
  have expects : Entries.replace entries slot payload = (do
      demand (old.bytes.size = payload.bytes.size)
        (.sizeMismatch slot old.bytes.size payload.type payload.bytes.size)
      return ((), Entries.put entries slot payload.value)) := by
    rw [Entries.replace, there]
    rfl
  by_cases size : old.bytes.size = payload.bytes.size
  · have sizes := holds.represents.described.sizes slot old there
    rw [size] at sizes
    rw [demand_of size] at expects
    rcases holds.run_replace_same wellFormed there fits size with
      ⟨failure, refused, storage, cause⟩ | ⟨later, replaced, follows⟩
    · exact .refused refused holds.follows storage (cause.imp (fun full room => full (room sizes))
        fun cannotGrow => ⟨site, Site.Continues.refl site, cannotGrow⟩)
    · exact .answered replaced expects follows
  · rw [demand_of_not size] at expects
    exact .failed (holds.run_replace_other there size) expects holds.follows

end

end Holds

end PackedStore.UntypedMap
