/-
This file states what is true of the values of an untyped map at all times:
however the map was used, and whichever operations failed, large values lie in
the allocated part of the arena, apart from each other, at places that are aligned
for every type they can be read as. So a typed access that passes its checks finds
the value, and writing one key changes no other.
-/

import PackedStore.Proofs.UntypedMap.Simulation

namespace PackedStore.UntypedMap

variable {Buffer : Type} [Host Buffer] {known : ElementType → Prop} {key : KeyType}
  {site : Site Buffer} {image : Image} {entries : List Entry} {order : Nat → List Nat}

/-! ### Reachable sites -/

/-- The sites that creation and operations lead to, failed operations included. -/
inductive Reachable (known : ElementType → Prop) (key : KeyType) : Site Buffer → Prop where
  | init {site later : Site Buffer} (sizing : Sizing) (run : init key sizing site = .ok () later) :
      Reachable known key later
  | operation {site : Site Buffer} (operation : Operation) (fits : operation.Fits known key)
      (reachable : Reachable known key site) :
      Reachable known key (Store.outcome (operation.run key) site).2

theorem Reachable.holds [LawfulHost Buffer] (wellFormed : key.toElementType.WellFormed)
    (types : AlignedTypes known) (reachable : Reachable known key site) :
    ∃ image entries order, Holds known key site image entries order := by
  induction reachable with
  | init sizing run =>
    obtain ⟨image, created, -⟩ := holds_of_init wellFormed run
    exact ⟨image, [], _, created⟩
  | operation operation fits _ inductionHypothesis =>
    obtain ⟨image, entries, order, holds⟩ := inductionHypothesis
    obtain ⟨changed, follows, -⟩ := (holds.performs wellFormed types fits).follows
    obtain ⟨image', order', holdsLater⟩ := follows.stands
    exact ⟨image', changed, order', holdsLater⟩

/-! ### The places of values -/

/-- A live slot has a value of a size above four bytes, whose place is the word. -/
structure Image.LargeAt (image : Image) (slot : Nat) (word : UInt32) (size : Nat) : Prop where
  live : slot < image.header.count
  large : 4 < size
  word : image.cells.words[slot]? = some word
  size : image.sizes[slot]? = some size

/-- All large values lie in the allocated part of the arena, apart from each other, where they are
aligned for every type that their tags and sizes stand for. -/
structure Image.WellPlaced (known : ElementType → Prop) (image : Image) : Prop where
  recorded : ∀ slot, slot < image.header.count →
    ∃ word tag size, image.cells.words[slot]? = some word ∧ image.types[slot]? = some tag ∧
      image.sizes[slot]? = some size
  allocated : image.header.dataAllocated ≤ image.header.dataCapacity
  size_arena : image.cells.arena.size = wordSize * image.header.dataCapacity
  start : blockAlign ∣ image.layout.data.offset
  inside : ∀ slot word size, image.LargeAt slot word size →
    wordSize * word.toNat + size ≤ wordSize * image.header.dataAllocated
  apart : ∀ slot other word next size second, slot ≠ other → image.LargeAt slot word size →
    image.LargeAt other next second →
    word.toNat + wordsFor size ≤ next.toNat ∨ next.toNat + wordsFor second ≤ word.toNat
  aligned : ∀ slot word type, image.LargeAt slot word type.size → known type →
    image.types[slot]? = some type.tag → type.align ∣ wordSize * word.toNat

namespace Represents

variable (represents : Represents known key image entries order)

include represents

/-- A live slot has a value, and the recorded tag and size are those of the value. -/
theorem exists_value {slot : Nat} (live : slot < image.header.count) :
    ∃ value, Entries.stored entries slot = some value ∧
      image.types[slot]? = some value.tag ∧ image.sizes[slot]? = some value.bytes.size := by
  rw [represents.count] at live
  have there : Entries.stored entries slot = some entries[slot].value := by
    rw [Entries.stored, List.getElem?_eq_getElem live, Option.map_some]
  exact ⟨_, there, represents.described.tags slot _ there, represents.described.sizes slot _ there⟩

theorem large_of_largeAt {slot size : Nat} {word : UInt32} (large : image.LargeAt slot word size) :
    ∃ value, image.cells.Large (Entries.stored entries) slot value word ∧
      image.types[slot]? = some value.tag ∧ value.bytes.size = size := by
  obtain ⟨value, there, tag, isSize⟩ := represents.exists_value large.live
  have same : value.bytes.size = size := Option.some.inj (isSize.symm.trans large.size)
  exact ⟨value, ⟨there, by rw [same]; exact large.large, large.word⟩, tag, same⟩

/-- The values of an image that stands for entries are well placed. -/
theorem places (wellFormed : key.toElementType.WellFormed) : image.WellPlaced known := by
  have framed := represents.framed
  have values := represents.values
  refine ⟨?_, framed.header.allocated_le, framed.size_arena.trans (Nat.mul_comm _ _),
    (Layout.placed_of_compute wellFormed framed.computed).start, ?_, ?_, ?_⟩
  · intro slot live
    obtain ⟨value, there, tag, size⟩ := represents.exists_value live
    obtain ⟨word, isWord⟩ := values.exists_word (values.lt_capacity slot value there)
    exact ⟨word, value.tag, value.bytes.size, isWord, tag, size⟩
  · intro slot word size large
    obtain ⟨value, isLarge, -, rfl⟩ := represents.large_of_largeAt large
    have stop := values.inside slot value word isLarge
    have words := le_wordsFor value.bytes.size
    simp only [ValueCells.range, Segment.stop] at stop
    unfold wordSize at words ⊢
    omega
  · intro slot other word next size second different large largeOther
    obtain ⟨value, isLarge, -, rfl⟩ := represents.large_of_largeAt large
    obtain ⟨found, isLargeOther, -, rfl⟩ := represents.large_of_largeAt largeOther
    exact values.apart slot other value found word next different isLarge isLargeOther
  · intro slot word type large isKnown tag
    obtain ⟨value, isLarge, isTag, isSize⟩ := represents.large_of_largeAt large
    have sameTag : type.tag = value.tag := Option.some.inj (tag.symm.trans isTag)
    rw [Nat.mul_comm]
    exact values.suits slot value word isLarge type isKnown sameTag isSize.symm

/-- A typed access whose checks pass finds the value. -/
theorem exists_read (types : AlignedTypes known) {slot : Nat} (live : slot < image.header.count)
    {type : ElementType} (isKnown : known type) (tag : image.types[slot]? = some type.tag)
    (size : image.sizes[slot]? = some type.size) :
    ∃ content, image.cells.read slot type = .ok content ∧ content.size = type.size := by
  obtain ⟨value, there, isTag, isSize⟩ := represents.exists_value live
  have sameTag : value.tag = type.tag := Option.some.inj (isTag.symm.trans tag)
  have sameSize : value.bytes.size = type.size := Option.some.inj (isSize.symm.trans size)
  have bytes := represents.values.read slot value there
  rw [sameSize] at bytes
  refine ⟨value.bytes, ?_, sameSize⟩
  rw [ValueCells.read, bytes, Checked.bind_ok, represents.checkAligned_eq there isKnown
    (types.isAlign isKnown).pos sameTag sameSize]
  rfl

end Represents

/-! ### Writing one key -/

/-- The operation may change the value of a key. -/
def Operation.Touches (key : Bytes) : Operation → Prop
  | add entryKey _ | addOrSet entryKey _ | getOrAdd entryKey _ | exchange entryKey _ =>
    entryKey = key
  | addBytes entryKey _ _ | addOrSetBytes entryKey _ _ => entryKey = key
  | clear => True
  | _ => False

namespace Entries

variable {changed : List Entry} {entryKey other : Bytes} {payload : Payload}

theorem lookup_insert (distinct : Distinct entries) (absent : find entries entryKey = none)
    (different : entryKey ≠ other) {slot : Nat}
    (inserted : insert entries entryKey payload = .ok (slot, changed)) :
    lookup changed other = lookup entries other := by
  obtain ⟨-, -, rfl⟩ := insert_eq_ok.mp inserted
  exact distinct.lookup_concat (distinct.not_cell absent) different

theorem lookup_replace (distinct : Distinct entries) {slot : Nat}
    (found : find entries entryKey = some slot) (different : entryKey ≠ other) {answer : Unit}
    (replaced : replace entries slot payload = .ok (answer, changed)) :
    lookup changed other = lookup entries other := by
  simp only [replace, Checked.bind_eq_ok, pure, Except.pure, Except.ok.injEq, Prod.mk.injEq]
    at replaced
  obtain ⟨-, -, -, -, -, rfl⟩ := replaced
  exact distinct.lookup_put (cell_of_find found) different payload.value

theorem map_eq_ok {α β : Type} {change : α → β} {checked : Checked (α × List Entry)} {answer : β} :
    Prod.map change id <$> checked = .ok (answer, changed) ↔
      ∃ result, checked = .ok (result, changed) ∧ change result = answer := by
  cases checked with
  | error failure =>
    refine ⟨fun run => ?_, fun ⟨_, run, _⟩ => ?_⟩ <;> cases run
  | ok result =>
    constructor
    · intro run
      cases run
      exact ⟨result.1, rfl, rfl⟩
    · rintro ⟨_, run, rfl⟩
      cases run
      rfl

section

variable (distinct : Distinct entries) (different : entryKey ≠ other)

include distinct different

theorem lookup_insertUnique {slot : Nat}
    (inserted : insertUnique entries entryKey payload = .ok (slot, changed)) :
    lookup changed other = lookup entries other := by
  simp only [insertUnique, Checked.bind_eq_ok, demand_eq_ok] at inserted
  obtain ⟨-, absent, inserted⟩ := inserted
  exact lookup_insert distinct absent different inserted

theorem lookup_store {answer : Unit}
    (stored : store entries entryKey payload = .ok (answer, changed)) :
    lookup changed other = lookup entries other := by
  unfold store at stored
  cases found : find entries entryKey with
  | some slot =>
    rw [found] at stored
    exact lookup_replace distinct found different stored
  | none =>
    rw [found] at stored
    obtain ⟨slot, inserted, -⟩ := map_eq_ok.mp stored
    exact lookup_insert distinct found different inserted

theorem lookup_getOrAdd {default : Datum} {content : Bytes}
    (got : getOrAdd entries entryKey default = .ok (content, changed)) :
    lookup changed other = lookup entries other := by
  unfold getOrAdd at got
  cases found : find entries entryKey with
  | some slot =>
    rw [found] at got
    change (·, entries) <$> read entries slot default.type = _ at got
    cases result : read entries slot default.type with
    | error failure =>
      rw [result] at got
      cases got
    | ok value =>
      rw [result] at got
      cases got
      rfl
  | none =>
    rw [found] at got
    obtain ⟨slot, inserted, -⟩ := map_eq_ok.mp got
    exact lookup_insert distinct found different inserted

theorem lookup_exchange {datum : Datum} {old : Option Bytes}
    (exchanged : exchange entries entryKey datum = .ok (old, changed)) :
    lookup changed other = lookup entries other := by
  unfold exchange at exchanged
  cases found : find entries entryKey with
  | none =>
    simp only [found, pure, Except.pure, Except.ok.injEq, Prod.mk.injEq] at exchanged
    rw [exchanged.2]
  | some slot =>
    simp only [found, Checked.bind_eq_ok, pure, Except.pure, Except.ok.injEq, Prod.mk.injEq]
      at exchanged
    obtain ⟨_, _, _, rfl⟩ := exchanged
    exact distinct.lookup_put (cell_of_find found) different datum.payload.value

end

/-- An operation keeps the values of all keys that it does not touch. -/
theorem lookup_perform (distinct : Distinct entries) {operation : Operation}
    (untouched : ¬ operation.Touches other) {answer : Answer}
    (performed : perform operation entries = .ok (answer, changed)) :
    lookup changed other = lookup entries other := by
  cases operation with
  | add entryKey datum | addBytes entryKey tag content =>
    obtain ⟨slot, inserted, -⟩ := map_eq_ok.mp performed
    obtain ⟨-, -, inserted⟩ := Checked.bind_eq_ok.mp inserted
    exact lookup_insertUnique distinct untouched inserted
  | addOrSet entryKey datum | addOrSetBytes entryKey tag content =>
    obtain ⟨nothing, stored, -⟩ := map_eq_ok.mp performed
    obtain ⟨-, -, stored⟩ := Checked.bind_eq_ok.mp stored
    exact lookup_store distinct untouched stored
  | getOrAdd entryKey default =>
    obtain ⟨content, got, -⟩ := map_eq_ok.mp performed
    obtain ⟨-, -, got⟩ := Checked.bind_eq_ok.mp got
    exact lookup_getOrAdd distinct untouched got
  | exchange entryKey datum =>
    obtain ⟨old, exchanged, -⟩ := map_eq_ok.mp performed
    exact lookup_exchange distinct untouched exchanged
  | clear => exact absurd trivial untouched
  | get wanted type =>
    obtain ⟨content, -, returned⟩ := Checked.bind_eq_ok.mp performed
    cases returned
    rfl
  | _ =>
    cases performed
    rfl

end Entries

/-- An operation leaves what is read of the keys it does not touch as it was. -/
theorem Holds.run_getBytes?_after [LawfulHost Buffer] (wellFormed : key.toElementType.WellFormed)
    (types : AlignedTypes known) (holds : Holds known key site image entries order)
    {operation : Operation} (fits : operation.Fits known key) {other : Bytes}
    (untouched : ¬ operation.Touches other) :
    (Store.outcome (getBytes? key other) (Store.outcome (operation.run key) site).2).1 =
      (Store.outcome (getBytes? key other) site).1 := by
  obtain ⟨changed, follows, either⟩ := (holds.performs wellFormed types fits).follows
  obtain ⟨image', order', holdsLater⟩ := follows.stands
  have same : Entries.lookup changed other = Entries.lookup entries other := by
    rcases either with rfl | ⟨answer, performed⟩
    · rfl
    · exact Entries.lookup_perform holds.represents.distinct untouched performed
  rw [Store.outcome_ok (holdsLater.run_getBytes? other), Store.outcome_ok (holds.run_getBytes? other),
    same]

/-- In every reachable site the values are well placed, a typed access whose checks pass finds a
value of the type, and an operation on one key leaves the values of all other keys as they were. -/
theorem Reachable.wellPlaced [LawfulHost Buffer] (wellFormed : key.toElementType.WellFormed)
    (family : TypeFamily known) (reachable : Reachable known key site) :
    ∃ image, Image.load key.toElementType site.bytes = .ok image ∧ image.WellPlaced known ∧
      (∀ slot type, slot < image.header.count → known type →
        image.types[slot]? = some type.tag → image.sizes[slot]? = some type.size →
        ∃ content, image.cells.read slot type = .ok content ∧ content.size = type.size) ∧
      ∀ operation : Operation, operation.Fits known key → ∀ other, ¬ operation.Touches other →
        (Store.outcome (getBytes? key other) (Store.outcome (operation.run key) site).2).1 =
          (Store.outcome (getBytes? key other) site).1 := by
  obtain ⟨image, entries, order, holds⟩ := reachable.holds wellFormed family.aligned
  exact ⟨image, holds.loaded, holds.represents.places wellFormed,
    fun slot type live isKnown tag size =>
      holds.represents.exists_read family.aligned live isKnown tag size,
    fun operation fits other untouched =>
      holds.run_getBytes?_after wellFormed family.aligned fits untouched⟩

/-- A wide value is there once it was added, and it is well placed. -/
theorem wide_wellPlaced :
    ∃ site : Site BlockBuffer, init wordKey {} ⟨.empty none, []⟩ = .ok () site ∧
      ∃ later, later = (Store.outcome
          (Operation.run wordKey (.add (keyOf 7) (wideDatum 1))) site).2 ∧
        ∃ image, Image.load wordKey.toElementType later.bytes = .ok image ∧
          image.WellPlaced WordOrWide ∧ ∃ word, image.LargeAt 0 word 16 := by
  obtain ⟨site, run⟩ := @run_init_of_granting BlockBuffer _ wordKey ⟨.empty none, []⟩ _ _
    BlockBuffer.granting rfl ElementType.wellFormed_word32 (by decide) (by decide) rfl {}
    (by decide) (by decide) (by decide)
  have fits : (Operation.add (keyOf 7) (wideDatum 1)).Fits WordOrWide wordKey :=
    ⟨fits_keyOf rfl 7, Or.inr rfl⟩
  obtain ⟨start, created, -, continues⟩ :=
    @holds_of_init _ _ WordOrWide wordKey _ _ ElementType.wellFormed_word32 _ _ run
  have mirrors : Mirrors (fun buffer => buffer.limit = none) WordOrWide wordKey site [] :=
    ⟨continues _ BlockBuffer.granting rfl, start, _, created⟩
  have added := (mirrors.step BlockBuffer.granting ElementType.wellFormed_word32 family_wordOrWide
    fits (within_of_init ElementType.wellFormed_word32 run (by decide)
      (isAlign_iff.mpr (by decide)))).2
  obtain ⟨-, found, order, holds⟩ := added
  obtain ⟨image, loaded, placed, -⟩ := (Reachable.operation _ fits (Reachable.init {} run)).wellPlaced
    ElementType.wellFormed_word32 family_wordOrWide
  obtain rfl := Except.ok.inj (holds.loaded.symm.trans loaded)
  have live : 0 < found.header.count := by
    rw [holds.represents.count]
    decide
  obtain ⟨word, -, -, isWord, -⟩ := placed.recorded 0 live
  exact ⟨site, run, _, rfl, found, loaded, placed, word, live, by decide, isWord,
    holds.represents.described.sizes 0 (wideDatum 1).payload.value rfl⟩

end PackedStore.UntypedMap
