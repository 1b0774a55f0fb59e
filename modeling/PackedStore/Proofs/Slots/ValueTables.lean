/-
This file describes the words of the slots and the arena by the values stored in
the slots. The ranges of large values are apart and lie in the allocated words, and
each is aligned for every type its value can be read as. Storing a value changes
the table at its slot only, because it writes nothing in the range of another
value; this is said once for all four ways to store one.
-/

import PackedStore.Proofs.Slots.ValueCells

namespace PackedStore

namespace ValueCells

/-- The slot stores a large value, which starts at the word. -/
structure Large (cells : ValueCells) (stored : Nat → Option Value) (slot : Nat) (value : Value)
    (word : UInt32) : Prop where
  stored : stored slot = some value
  large : 4 < value.bytes.size
  word : cells.words[slot]? = some word

end ValueCells

open ValueCells

/-- Cells with as many words as the capacity that hold the stored values, the large ones in the
allocated words of the arena. -/
structure ValueTable (known : ElementType → Prop) (capacity allocated : Nat)
    (stored : Nat → Option Value) (cells : ValueCells) : Prop where
  size_words : cells.words.size = capacity
  room : allocated * wordSize ≤ cells.arena.size
  lt_capacity : ∀ slot value, stored slot = some value → slot < capacity
  read : ∀ slot value, stored slot = some value →
    cells.bytes slot value.bytes.size = .ok value.bytes
  inside : ∀ slot value word, cells.Large stored slot value word →
    (range word value.bytes.size).stop ≤ allocated
  apart : ∀ slot other value second word next, slot ≠ other →
    cells.Large stored slot value word → cells.Large stored other second next →
    (range word value.bytes.size).Apart (range next second.bytes.size)
  suits : ∀ slot value word, cells.Large stored slot value word → value.Suits known word.toNat

namespace ValueTable

variable {known : ElementType → Prop} {capacity allocated : Nat} {stored : Nat → Option Value}
  {cells changed : ValueCells} {slot : Nat} {value : Value}

theorem exists_word (table : ValueTable known capacity allocated stored cells)
    (below : slot < capacity) : ∃ word, cells.words[slot]? = some word :=
  ⟨_, Array.getElem?_eq_getElem (table.size_words ▸ below)⟩

/-- The bytes of a large value lie inside the arena. -/
theorem inside_arena (table : ValueTable known capacity allocated stored cells) {word : UInt32}
    (large : cells.Large stored slot value word) :
    word.toNat * wordSize + value.bytes.size ≤ cells.arena.size := by
  have stop := table.inside slot value word large
  have room := table.room
  have words := le_wordsFor value.bytes.size
  simp only [range, Segment.stop] at stop
  unfold wordSize at room words ⊢
  omega

/-! ### Storing a value -/

/-- A change that leaves the other words and the ranges of the other large values alone, and after
which the slot holds a value at a place apart from them, stores the value. -/
theorem put (table : ValueTable known capacity allocated stored cells) (below : slot < capacity)
    {stop : Nat} (more : allocated ≤ stop) (size_words : changed.words.size = cells.words.size)
    (room : stop * wordSize ≤ changed.arena.size)
    (otherWords : ∀ other, other ≠ slot → changed.words[other]? = cells.words[other]?)
    (otherArena : ∀ other second next, other ≠ slot → cells.Large stored other second next →
      ∀ position, position < second.bytes.size →
        changed.arena[next.toNat * wordSize + position]? =
          cells.arena[next.toNat * wordSize + position]?)
    (read : changed.bytes slot value.bytes.size = .ok value.bytes)
    (own : ∀ word, 4 < value.bytes.size → changed.words[slot]? = some word →
      (range word value.bytes.size).stop ≤ stop ∧ value.Suits known word.toNat ∧
        ∀ other second next, other ≠ slot → cells.Large stored other second next →
          (range word value.bytes.size).Apart (range next second.bytes.size)) :
    ValueTable known capacity stop (Function.update stored slot (some value)) changed := by
  have ofSlot {found : Value} {word : UInt32}
      (large : changed.Large (Function.update stored slot (some value)) slot found word) :
      found = value := by
    have same := large.stored
    rw [Function.update_self] at same
    exact (Option.some.inj same).symm
  have ofOther {other : Nat} {found : Value} {word : UInt32} (different : other ≠ slot)
      (large : changed.Large (Function.update stored slot (some value)) other found word) :
      cells.Large stored other found word := by
    have same := large.stored
    rw [Function.update_of_ne different] at same
    exact ⟨same, large.large, (otherWords other different).symm.trans large.word⟩
  refine ⟨size_words.trans table.size_words, room, ?_, ?_, ?_, ?_, ?_⟩
  · intro other found there
    by_cases same : other = slot
    · rw [same]
      exact below
    · rw [Function.update_of_ne same] at there
      exact table.lt_capacity other found there
  · intro other found there
    by_cases same : other = slot
    · rw [same, Function.update_self] at there
      rw [same, ← Option.some.inj there]
      exact read
    · rw [Function.update_of_ne same] at there
      refine bytes_congr (otherWords other same) (fun next isNext large => ?_)
        (table.read other found there)
      exact otherArena other found next same ⟨there, large, isNext⟩
  · intro other found word large
    by_cases same : other = slot
    · subst same
      obtain rfl := ofSlot large
      exact (own word large.large large.word).1
    · exact Nat.le_trans (table.inside other found word (ofOther same large)) more
  · intro first second found other word next different large largeOther
    by_cases sameFirst : first = slot
    · subst sameFirst
      obtain rfl := ofSlot large
      have away : second ≠ first := fun equal => different equal.symm
      exact (own word large.large large.word).2.2 second other next away (ofOther away largeOther)
    · by_cases sameSecond : second = slot
      · subst sameSecond
        obtain rfl := ofSlot largeOther
        exact ((own next largeOther.large largeOther.word).2.2 first found word different
          (ofOther different large)).symm
      · exact table.apart first second found other word next different (ofOther sameFirst large)
          (ofOther sameSecond largeOther)
  · intro other found word large
    by_cases same : other = slot
    · subst same
      obtain rfl := ofSlot large
      exact (own word large.large large.word).2.1
    · exact table.suits other found word (ofOther same large)

/-- A small value in the word of its slot. -/
theorem put_small (table : ValueTable known capacity allocated stored cells)
    (below : slot < capacity) {spelled : List UInt8} (front : value.bytes.toList <+: spelled)
    (short : spelled.length ≤ 4) :
    ValueTable known capacity allocated (Function.update stored slot (some value)) { cells with
      words := cells.words.setIfInBounds slot (UInt32.ofNat (Bytes.toNat spelled)) } := by
  have inWords : slot < cells.words.size := table.size_words ▸ below
  have small : value.bytes.size ≤ 4 := by
    rw [← Array.length_toList]
    exact Nat.le_trans front.length_le short
  refine table.put below (Nat.le_refl _) Array.size_setIfInBounds table.room ?_ ?_ ?_ ?_
  · intro other different
    exact Array.getElem?_setIfInBounds_ne fun same => different same.symm
  · intro other second next _ _ position _
    rfl
  · let written : ValueCells := { cells with
      words := cells.words.setIfInBounds slot (UInt32.ofNat (Bytes.toNat spelled)) }
    have there : written.words[slot]? = some (UInt32.ofNat (Bytes.toNat spelled)) :=
      Array.getElem?_setIfInBounds_self_of_lt inWords
    have spells := take_word front short
    rw [Array.length_toList] at spells
    refine (bytes_small there small).trans (congrArg Except.ok ?_)
    rw [spells]
  · intro word large
    omega

/-- A large value in a range that is apart from those of the other values. -/
theorem put_large (table : ValueTable known capacity allocated stored cells)
    (below : slot < capacity) (large : 4 < value.bytes.size) {word : UInt32} {stop : Nat}
    (more : allocated ≤ stop) (room : stop * wordSize ≤ cells.arena.size)
    (inside : (range word value.bytes.size).stop ≤ stop) (suits : value.Suits known word.toNat)
    (apart : ∀ other second next, other ≠ slot → cells.Large stored other second next →
      (range word value.bytes.size).Apart (range next second.bytes.size)) :
    ValueTable known capacity stop (Function.update stored slot (some value))
      { words := cells.words.setIfInBounds slot word
        arena := cells.arena.patch (word.toNat * wordSize) value.bytes.toList } := by
  let written : ValueCells := {
    words := cells.words.setIfInBounds slot word
    arena := cells.arena.patch (word.toNat * wordSize) value.bytes.toList }
  have inWords : slot < cells.words.size := table.size_words ▸ below
  have there : written.words[slot]? = some word :=
    Array.getElem?_setIfInBounds_self_of_lt inWords
  have words := le_wordsFor value.bytes.size
  have insideBytes : word.toNat * wordSize + value.bytes.size ≤ cells.arena.size := by
    simp only [range, Segment.stop] at inside
    unfold wordSize at room words ⊢
    omega
  have size := Bytes.size_patch cells.arena (word.toNat * wordSize) value.bytes.toList
  refine table.put below more Array.size_setIfInBounds (by rw [size]; exact room) ?_ ?_ ?_ ?_
  · intro other different
    exact Array.getElem?_setIfInBounds_ne fun same => different same.symm
  · intro other second next different isLarge position inSecond
    have away := apart other second next different isLarge
    have otherWords := le_wordsFor second.bytes.size
    refine Bytes.getElem?_patch_outside ?_
    simp only [range, Segment.Apart, Segment.stop] at away
    rw [Array.length_toList]
    unfold wordSize at words otherWords ⊢
    omega
  · have insideWritten : word.toNat * wordSize + value.bytes.size ≤ written.arena.size := by
      rw [size]
      exact insideBytes
    refine (bytes_large there large insideWritten).trans (congrArg Except.ok ?_)
    refine (Bytes.stands_patch ?_).extract_eq
    rw [Array.length_toList]
    exact insideBytes
  · intro found _ isWord
    obtain rfl := Option.some.inj (there.symm.trans isWord)
    exact ⟨inside, suits, apart⟩

/-! ### Operations -/

theorem writeInline_spec (table : ValueTable known capacity allocated stored cells)
    (below : slot < capacity) (small : value.bytes.size ≤ 4) :
    ∃ changed, writeInline slot value.bytes cells = .ok () changed ∧
      changed.arena.size = cells.arena.size ∧
      ValueTable known capacity allocated (Function.update stored slot (some value)) changed := by
  refine ⟨_, run_writeInline small (table.size_words ▸ below), rfl,
    table.put_small below (List.prefix_refl _) ?_⟩
  rw [Array.length_toList]
  exact small

/-- A large value goes behind all words allocated so far. -/
theorem writeLarge_spec (table : ValueTable known capacity allocated stored cells)
    (below : slot < capacity) (large : 4 < value.bytes.size) {offset : Nat}
    (behind : allocated ≤ offset) (fits : offset < 2 ^ 32)
    (room : (offset + wordsFor value.bytes.size) * wordSize ≤ cells.arena.size)
    (suits : value.Suits known offset) :
    ∃ changed, writeLarge slot offset value.bytes cells = .ok () changed ∧
      changed.arena.size = cells.arena.size ∧
      ValueTable known capacity (offset + wordsFor value.bytes.size)
        (Function.update stored slot (some value)) changed := by
  have word : (UInt32.ofNat offset).toNat = offset := by
    rw [UInt32.toNat_ofNat', Nat.mod_eq_of_lt fits]
  have words := le_wordsFor value.bytes.size
  have inside : offset * wordSize + value.bytes.size ≤ cells.arena.size := by
    unfold wordSize at room words ⊢
    omega
  have stored := @put_large known capacity allocated _ cells slot value table below large
    (UInt32.ofNat offset) (offset + wordsFor value.bytes.size) (by omega) room
    (Nat.le_of_eq (by rw [range, Segment.stop, word])) (by rw [word]; exact suits)
    (by
      intro other second next _ isLarge
      have stop := table.inside other second next isLarge
      refine Or.inr (Nat.le_trans stop ?_)
      show allocated ≤ (UInt32.ofNat offset).toNat
      rw [word]
      exact behind)
  rw [word] at stored
  exact ⟨_, run_writeLarge large (table.size_words ▸ below) inside, Bytes.size_patch _ _ _, stored⟩

/-- Any content of its size can be written over a value. -/
theorem exists_overwritten (table : ValueTable known capacity allocated stored cells)
    (there : stored slot = some value) {content : Bytes} (size : content.size = value.bytes.size) :
    ∃ changed, overwrite slot content cells = .ok () changed := by
  obtain ⟨word, isWord⟩ := table.exists_word (table.lt_capacity slot value there)
  by_cases large : 4 < value.bytes.size
  · have inside := table.inside_arena ⟨there, large, isWord⟩
    rw [← size] at large inside
    exact ⟨_, run_overwrite_large large isWord inside⟩
  · exact ⟨_, run_overwrite_small (by omega) isWord⟩

/-- A value of the same size stays in the place of the old one. -/
theorem overwrite_spec (table : ValueTable known capacity allocated stored cells) {old : Value}
    (there : stored slot = some old) (size : value.bytes.size = old.bytes.size)
    (suits : ∀ word, 4 < old.bytes.size → cells.words[slot]? = some word →
      value.Suits known word.toNat) :
    ∃ changed, overwrite slot value.bytes cells = .ok () changed ∧
      changed.arena.size = cells.arena.size ∧ changed.words.size = cells.words.size ∧
      (4 < old.bytes.size → changed.words = cells.words) ∧
      ValueTable known capacity allocated (Function.update stored slot (some value)) changed := by
  have below := table.lt_capacity slot old there
  obtain ⟨word, isWord⟩ := table.exists_word below
  by_cases large : 4 < old.bytes.size
  · have largeOld : cells.Large stored slot old word := ⟨there, large, isWord⟩
    have inside := table.inside_arena largeOld
    have stop := table.inside slot old word largeOld
    rw [← size] at inside stop large
    have stored := table.put_large below large (Nat.le_refl _) table.room stop
      (suits word (size ▸ large) isWord) (by
        intro other second next different isLarge
        rw [size]
        exact table.apart slot other old second word next (fun same => different same.symm) largeOld
          isLarge)
    rw [setIfInBounds_of_there isWord] at stored
    exact ⟨_, run_overwrite_large large isWord inside, Bytes.size_patch _ _ _, rfl, fun _ => rfl,
      stored⟩
  · have small : value.bytes.size ≤ 4 := by omega
    refine ⟨_, run_overwrite_small small isWord, rfl, Array.size_setIfInBounds,
      fun isLarge => absurd isLarge large, table.put_small below (List.prefix_append _ _) ?_⟩
    rw [List.length_append, Array.length_toList, List.length_drop, Bytes.length_littleEndian]
    unfold wordSize
    omega

/-! ### Other tables of the same values -/

/-- Words that are allocated but not used do no harm. -/
theorem raise (table : ValueTable known capacity allocated stored cells) {more : Nat}
    (raised : allocated ≤ more) (room : more * wordSize ≤ cells.arena.size) :
    ValueTable known capacity more stored cells where
  size_words := table.size_words
  room := room
  lt_capacity := table.lt_capacity
  read := table.read
  inside slot value word large := Nat.le_trans (table.inside slot value word large) raised
  apart := table.apart
  suits := table.suits

theorem empty (size : cells.words.size = capacity) :
    ValueTable known capacity 0 (fun _ => none) cells where
  size_words := size
  room := by rw [Nat.zero_mul]; exact Nat.zero_le _
  lt_capacity _ _ absurdity := absurd absurdity (by simp)
  read _ _ absurdity := absurd absurdity (by simp)
  inside _ _ _ large := absurd large.stored (by simp)
  apart _ _ _ _ _ _ _ large := absurd large.stored (by simp)
  suits _ _ _ large := absurd large.stored (by simp)

/-- Larger cells that start with the same words and the same allocated part of the arena hold the
same values. -/
theorem extend (table : ValueTable known capacity allocated stored cells) {larger : Nat}
    (size : changed.words.size = larger) (grows : capacity ≤ larger)
    (words : ∀ slot, slot < capacity → changed.words[slot]? = cells.words[slot]?)
    (room : allocated * wordSize ≤ changed.arena.size)
    (arena : ∀ position, position < allocated * wordSize →
      changed.arena[position]? = cells.arena[position]?) :
    ValueTable known larger allocated stored changed := by
  have back {slot : Nat} {value : Value} {word : UInt32}
      (large : changed.Large stored slot value word) : cells.Large stored slot value word :=
    ⟨large.stored, large.large,
      (words slot (table.lt_capacity slot value large.stored)).symm.trans large.word⟩
  refine ⟨size, room, ?_, ?_, ?_, ?_, ?_⟩
  · intro slot value there
    exact Nat.lt_of_lt_of_le (table.lt_capacity slot value there) grows
  · intro slot value there
    refine bytes_congr (words slot (table.lt_capacity slot value there)) ?_
      (table.read slot value there)
    intro word isWord large position below
    have stop := table.inside slot value word ⟨there, large, isWord⟩
    have needed := le_wordsFor value.bytes.size
    simp only [range, Segment.stop] at stop
    refine arena _ ?_
    unfold wordSize at needed ⊢
    omega
  · intro slot value word large
    exact table.inside slot value word (back large)
  · intro slot other value second word next different large largeOther
    exact table.apart slot other value second word next different (back large) (back largeOther)
  · intro slot value word large
    exact table.suits slot value word (back large)

end ValueTable

end PackedStore
