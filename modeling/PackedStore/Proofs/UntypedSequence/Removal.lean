/-
This file says that removing an element closes the gap it leaves. The descriptors
of all later elements move down by one, and their values are packed anew from
where the one in front ends. No value moves up and each is read before anything is
written behind it, so one pass over an arena that overlaps itself loses nothing.
-/

import PackedStore.Proofs.Slots.Rebuilding
import PackedStore.Proofs.UntypedSequence.Representation

namespace PackedStore.UntypedSequence

variable {image changed : Image} {index cursor old : Nat} {datum : Datum}
  {elements front back : List Datum}

/-! ### Packing one element anew -/

/-- The image whose element stands at another place. -/
def Image.withPlace (image : Image) (index offset : Nat) (content : Bytes) : Image :=
  { image with
    offsets := image.offsets.setIfInBounds index offset
    data := image.data.patch offset content.toList }

/-- Alignments of elements are powers of two. -/
theorem Storable.elementAlign_eq (storable : Storable datum.type) :
    elementAlign datum.type = 2 ^ ceilLog2 (elementAlign datum.type) := by
  obtain ⟨exponent, -, power⟩ := storable.isAlign
  rw [power, ceilLog2_two_pow]

theorem Storable.alignUp?_eq (storable : Storable datum.type) (near : cursor < 2 ^ 32) :
    alignUp? cursor (elementAlign datum.type) = some (startFrom cursor datum) := by
  refine Placement.alignUp?_eq_some.mpr ⟨?_, rfl⟩
  unfold sizeLimit
  rcases isAlign_iff.mp storable.isAlign with same | same | same | same | same <;> rw [same] <;>
    omega

theorem run_repackElement (stored : Stored image index old datum) (storable : Storable datum.type)
    (lower : startFrom cursor datum ≤ old) (small : old < 2 ^ 32) :
    repackElement index cursor image =
      .ok (stopFrom cursor datum) (image.withPlace index (startFrom cursor datum) datum.bytes) := by
  have near : cursor < 2 ^ 32 := Nat.lt_of_le_of_lt (Nat.le_trans le_startFrom lower) small
  have inside : startFrom cursor datum + datum.bytes.size ≤ image.data.size :=
    Nat.le_trans (Nat.add_le_add_right lower _) stored.inside
  simp only [repackElement, Edit.run_bind, Edit.run_get, fetch_of stored.offset_eq,
    fetch_of stored.size_eq, fetch_of stored.align_eq, Edit.run_lift_ok,
    require_of storable.elementAlign_eq, storable.alignUp?_eq near, Option.getD_some,
    require_of lower, stored.content, orFail, run_putData inside, Edit.run_modify, Edit.run_pure]
  rfl

/-! ### Packing several elements anew -/

/-- The second image has the header and the descriptions of the first one; in front of an index and
of a position of the arena, it has its offsets and its bytes as well. -/
structure Repacked (index cursor : Nat) (image changed : Image) : Prop where
  layout : changed.layout = image.layout
  header : changed.header = image.header
  sizes : changed.sizes = image.sizes
  types : changed.types = image.types
  aligns : changed.aligns = image.aligns
  size_offsets : changed.offsets.size = image.offsets.size
  size_data : changed.data.size = image.data.size
  offsets : ∀ other, other < index → changed.offsets[other]? = image.offsets[other]?
  data : ∀ position, position < cursor → changed.data[position]? = image.data[position]?
  bounded : (∀ offset ∈ image.offsets, offset < 2 ^ 32) → ∀ offset ∈ changed.offsets, offset < 2 ^ 32

namespace Repacked

theorem refl (image : Image) : Repacked index cursor image image :=
  ⟨rfl, rfl, rfl, rfl, rfl, rfl, rfl, fun _ _ => rfl, fun _ _ => rfl, fun bounded => bounded⟩

theorem trans {between : Image} {later : Nat} (first : Repacked index cursor image between)
    (second : Repacked (index + 1) later between changed) (behind : cursor ≤ later) :
    Repacked index cursor image changed where
  layout := second.layout.trans first.layout
  header := second.header.trans first.header
  sizes := second.sizes.trans first.sizes
  types := second.types.trans first.types
  aligns := second.aligns.trans first.aligns
  size_offsets := second.size_offsets.trans first.size_offsets
  size_data := second.size_data.trans first.size_data
  offsets other below :=
    (second.offsets other (Nat.lt_succ_of_lt below)).trans (first.offsets other below)
  data position below :=
    (second.data position (Nat.lt_of_lt_of_le below behind)).trans (first.data position below)
  bounded bound := second.bounded (first.bounded bound)

theorem descriptor (repacked : Repacked index cursor image changed) {other : Nat}
    (below : other < index) : changed.descriptor other = image.descriptor other := by
  rw [Image.descriptor, Image.descriptor, repacked.offsets other below, repacked.sizes,
    repacked.types, repacked.aligns]

theorem sound (repacked : Repacked index cursor image changed) (sound : image.Sound) :
    changed.Sound where
  computed := by rw [repacked.header, repacked.layout]; exact sound.computed
  header := by rw [repacked.header]; exact sound.header
  size_offsets := by rw [repacked.header, repacked.size_offsets]; exact sound.size_offsets
  size_sizes := by rw [repacked.header, repacked.sizes]; exact sound.size_sizes
  size_types := by rw [repacked.header, repacked.types]; exact sound.size_types
  size_aligns := by rw [repacked.header, repacked.aligns]; exact sound.size_aligns
  size_data := by rw [repacked.header, repacked.size_data]; exact sound.size_data
  offsets := repacked.bounded sound.offsets
  sizes := by rw [repacked.sizes]; exact sound.sizes
  aligns := by rw [repacked.aligns]; exact sound.aligns

/-- Moving one element changes nothing in front of it. -/
theorem of_withPlace {offset : Nat} {content : Bytes} (behind : cursor ≤ offset)
    (small : offset < 2 ^ 32) :
    Repacked index cursor image (image.withPlace index offset content) where
  layout := rfl
  header := rfl
  sizes := rfl
  types := rfl
  aligns := rfl
  size_offsets := Array.size_setIfInBounds
  size_data := Bytes.size_patch _ _ _
  offsets _ below := Array.getElem?_setIfInBounds_ne (Nat.ne_of_gt below)
  data _ below := Bytes.getElem?_patch_outside (Or.inl (Nat.lt_of_lt_of_le below behind))
  bounded bound := lt_of_mem_setIfInBounds bound small

end Repacked

/-- An element that has been moved is stored at its new place. -/
theorem Stored.withPlace (stored : Stored image index old datum) {offset : Nat}
    (lower : offset ≤ old) : Stored (image.withPlace index offset datum.bytes) index offset datum := by
  have inOffsets := (Array.getElem?_eq_some_iff.mp stored.offset_eq).1
  refine ⟨?_, Bytes.slice?_patch (Nat.le_trans (Nat.add_le_add_right lower _) stored.inside)⟩
  simp only [Image.descriptor, Image.withPlace, stored.size_eq, stored.tag_eq, stored.align_eq,
    Array.getElem?_setIfInBounds_self_of_lt inOffsets]

/-- Elements that are packed from a position on are packed from an earlier one on, in one pass that
changes nothing in front of the first of them. -/
theorem run_repack (packs : Packs image index old elements) (earlier : cursor ≤ old)
    (storable : ∀ datum ∈ elements, Storable datum.type)
    (small : packedFrom old elements < 2 ^ 32) :
    ∃ changed,
      repack (List.range' index elements.length) cursor image =
        .ok (packedFrom cursor elements) changed ∧
      Repacked index cursor image changed ∧ Packs changed index cursor elements := by
  induction elements generalizing image index cursor old with
  | nil => exact ⟨image, rfl, Repacked.refl image, trivial⟩
  | cons datum rest inductionHypothesis =>
    obtain ⟨stored, packsRest⟩ := packs
    have lower : startFrom cursor datum ≤ startFrom old datum := startFrom_mono earlier
    have stops := @le_packedFrom (stopFrom old datum) rest
    have near : startFrom old datum < 2 ^ 32 := by
      rw [packedFrom_cons] at small
      unfold stopFrom at stops small
      omega
    have step := run_repackElement stored (storable datum List.mem_cons_self) lower near
    -- the later values stand behind the old place, hence behind the new one
    have packsMoved : Packs (image.withPlace index (startFrom cursor datum) datum.bytes) (index + 1)
        (stopFrom old datum) rest := by
      refine packsRest.congr (fun place _ => ?_) (Nat.le_of_eq (Bytes.size_patch _ _ _).symm)
        fun position behind _ => ?_
      · rw [Image.descriptor, Image.withPlace,
          Array.getElem?_setIfInBounds_ne (show index ≠ index + 1 + place by omega)]
        rfl
      · refine Bytes.getElem?_patch_outside (Or.inr ?_)
        rw [Array.length_toList]
        exact Nat.le_trans (Nat.add_le_add_right lower _) behind
    obtain ⟨changed, run, repacked, packsChanged⟩ := inductionHypothesis packsMoved
      (stopFrom_mono earlier) (fun other member => storable other (List.mem_cons_of_mem _ member))
      small
    have moved : Repacked index cursor image
        (image.withPlace index (startFrom cursor datum) datum.bytes) :=
      Repacked.of_withPlace le_startFrom (Nat.lt_of_le_of_lt lower near)
    refine ⟨changed, ?_, moved.trans repacked le_stopFrom, ?_, packsChanged⟩
    · rw [List.length_cons, List.range'_succ, repack, Edit.run_bind, step]
      exact run
    · refine (stored.withPlace lower).congr (repacked.descriptor (Nat.lt_succ_self index))
        (Nat.le_of_eq repacked.size_data.symm) fun position _ below => repacked.data position below

/-! ### Taking out a descriptor -/

/-- The image whose first descriptors have lost one of them. -/
def Image.withoutDescriptor (image : Image) (index count : Nat) : Image :=
  { image with
    offsets := moveDown image.offsets index 1 count
    sizes := moveDown image.sizes index 1 count
    types := moveDown image.types index 1 count
    aligns := moveDown image.aligns index 1 count }

section

variable {count : Nat} (sound : image.Sound) (range : index + 1 ≤ count)
  (inside : count ≤ image.header.capacity)

include sound range inside

theorem run_removeDescriptor :
    removeDescriptor index count image = .ok () (image.withoutDescriptor index count) := by
  have moved {α : Type} {array : Array α} (size : array.size = image.header.capacity) :
      moveDown? array index 1 count = .ok (moveDown array index 1 count) :=
    moveDown?_of range (by rw [size]; exact inside)
  simp only [removeDescriptor, Edit.run_bind, Edit.run_get, moved sound.size_offsets,
    moved sound.size_sizes, moved sound.size_types, moved sound.size_aligns, Edit.run_lift_ok,
    Edit.run_set]
  rfl

theorem descriptor_withoutDescriptor {place : Nat} (below : place < count - 1) :
    (image.withoutDescriptor index count).descriptor place =
      image.descriptor (indexBefore index place) := by
  have moved {α : Type} {array : Array α} (size : array.size = image.header.capacity) :
      (moveDown array index 1 count)[place]? = array[indexBefore index place]? :=
    getElem?_moveDown range (by rw [size]; exact inside) below
  simp only [Image.descriptor, Image.withoutDescriptor, moved sound.size_offsets,
    moved sound.size_sizes, moved sound.size_types, moved sound.size_aligns]

theorem Image.Sound.withoutDescriptor : (image.withoutDescriptor index count).Sound := by
  have moved {α : Type} {array : Array α} (size : array.size = image.header.capacity) :
      (moveDown array index 1 count).size = image.header.capacity :=
    (size_moveDown range (by rw [size]; exact inside)).trans size
  exact ⟨sound.computed, sound.header, moved sound.size_offsets, moved sound.size_sizes,
    moved sound.size_types, moved sound.size_aligns, sound.size_data,
    fun offset member => sound.offsets offset (mem_moveDown member),
    fun size member => sound.sizes size (mem_moveDown member),
    fun align member => sound.aligns align (mem_moveDown member)⟩

end

/-- The value in front of an element ends where the elements in front of it are packed to. -/
theorem endBefore_eq (packs : Packs image 0 0 front) (small : packedFrom 0 front < 2 ^ 32) :
    endBefore image front.length = .ok (packedFrom 0 front) := by
  rcases List.eq_nil_or_concat front with rfl | ⟨others, last, rfl⟩
  · rfl
  · rw [List.concat_eq_append] at packs small ⊢
    have stored := (Packs.append_iff.mp packs).2.1
    rw [Nat.zero_add] at stored
    rw [packedFrom_append, packedFrom_cons, packedFrom_nil] at small ⊢
    rw [endBefore, List.length_append, List.length_singleton, if_neg (Nat.succ_ne_zero _),
      Nat.add_sub_cancel, fetch_of stored.offset_eq, Checked.bind_ok, fetch_of stored.size_eq,
      Checked.bind_ok]
    show (require (stopFrom (packedFrom 0 others) last < 2 ^ 32) .overflow >>= _) = _
    rw [require_of small]
    rfl

/-! ### Removing an element -/

/-- How an element is taken out of the image. -/
def removal (index : Nat) : Edit Image Nat := do
  let count := (← get).header.count
  removeDescriptor index count
  let start ← endBefore (← get) index
  let length ← repack (List.range' index (count - 1 - index)) start
  modify fun image => { image with
    header := { image.header with count := count - 1, dataAllocated := length % 2 ^ 32 } }
  return length

/-- When its descriptor has been taken out, the values behind an element are packed from where the
one in front ends. -/
theorem Represents.run_close (represents : Represents image (front ++ datum :: back)) :
    ∃ removed moved,
      removeDescriptor front.length (front ++ datum :: back).length image = .ok () removed ∧
      endBefore removed front.length = .ok (packedFrom 0 front) ∧
      repack (List.range' front.length back.length) (packedFrom 0 front) removed =
        .ok (packedFrom 0 (front ++ back)) moved ∧
      moved.layout = image.layout ∧ moved.header = image.header ∧ moved.Sound ∧
      Packs moved 0 0 (front ++ back) := by
  have sound := represents.sound
  have inside := represents.length_le
  have length : (front ++ datum :: back).length = front.length + back.length + 1 := by
    rw [List.length_append, List.length_cons, Nat.add_assoc]
  have range : front.length + 1 ≤ (front ++ datum :: back).length := by omega
  have small : packedFrom 0 (front ++ datum :: back) ≤ 2 ^ 29 := represents.packed_le_max
  rw [packedFrom_append] at small
  have near : packedFrom 0 front < 2 ^ 32 := by
    have behind := @le_packedFrom (packedFrom 0 front) (datum :: back)
    omega
  obtain ⟨packsFront, -, packsBack⟩ := Packs.append_iff.mp represents.packs
  -- the later elements keep their places and have the indices one below
  have described {place : Nat} (below : place < front.length + back.length) :=
    descriptor_withoutDescriptor sound range inside (show place < _ by omega)
  have keptFront : Packs (image.withoutDescriptor front.length (front ++ datum :: back).length) 0 0
      front := by
    refine packsFront.congr (fun place below => ?_) (Nat.le_refl _) fun _ _ _ => rfl
    rw [described (by omega), indexBefore, if_pos (by omega)]
  have keptBack : Packs (image.withoutDescriptor front.length (front ++ datum :: back).length)
      front.length (stopFrom (packedFrom 0 front) datum) back := by
    refine packsBack.congr (fun place below => ?_) (Nat.le_refl _) fun _ _ _ => rfl
    rw [described (by omega), indexBefore, if_neg (by omega)]
    exact congrArg _ (by omega)
  have storable : ∀ other ∈ back, Storable other.type := fun other member =>
    represents.storable other (List.mem_append_right _ (List.mem_cons_of_mem _ member))
  obtain ⟨moved, runRepack, repacked, packsMoved⟩ :=
    run_repack keptBack le_stopFrom storable (Nat.lt_of_le_of_lt small (by decide))
  refine ⟨_, moved, run_removeDescriptor sound range inside, endBefore_eq keptFront near, ?_,
    repacked.layout, repacked.header, repacked.sound (sound.withoutDescriptor range inside), ?_⟩
  · rw [packedFrom_append]
    exact runRepack
  · refine Packs.append_iff.mpr ⟨keptFront.congr (fun place below => ?_)
      (Nat.le_of_eq repacked.size_data.symm) fun position _ below => repacked.data position below, ?_⟩
    · exact repacked.descriptor (by omega)
    · rw [Nat.zero_add]
      exact packsMoved

/-- The image stands for the elements without the one that has been taken out. -/
theorem Represents.removal_append (represents : Represents image (front ++ datum :: back)) :
    ∃ changed, removal front.length image = .ok (packedFrom 0 (front ++ back)) changed ∧
      changed.layout = image.layout ∧ Represents changed (front ++ back) ∧
      changed.header.log2MinGrowth = image.header.log2MinGrowth := by
  have regular := represents.regular
  have fewer : (front ++ back).Sublist (front ++ datum :: back) :=
    (List.Sublist.refl front).append (List.sublist_cons_self datum back)
  have packed_le : packedFrom 0 (front ++ back) ≤ image.header.dataCapacity :=
    Nat.le_trans (packedFrom_sublist fewer) represents.packed_le
  have word : packedFrom 0 (front ++ back) % 2 ^ 32 = packedFrom 0 (front ++ back) := by
    have bound := regular.dataReached.le_max
    unfold maxCapacity at bound
    exact Nat.mod_eq_of_lt (by omega)
  have length : (front ++ datum :: back).length - 1 = (front ++ back).length := by
    rw [List.length_append, List.length_append, List.length_cons]
    rfl
  have many : (front ++ back).length - front.length = back.length := by
    rw [List.length_append, Nat.add_sub_cancel_left]
  obtain ⟨removed, moved, runRemove, ended, runRepack, layout, header, sound, packs⟩ :=
    represents.run_close
  have step : moved.header.log2MinGrowth = image.header.log2MinGrowth := by rw [header]
  have regularMoved : Header.Regular { moved.header with
      count := (front ++ back).length, dataAllocated := packedFrom 0 (front ++ back) } := by
    rw [header]
    exact ⟨regular.magic, regular.reached, regular.dataReached,
      Nat.le_trans fewer.length_le represents.length_le, packed_le, regular.spare⟩
  refine ⟨{ moved with header := { moved.header with
    count := (front ++ back).length, dataAllocated := packedFrom 0 (front ++ back) } }, ?_, layout,
    ⟨⟨sound.computed, regularMoved.fits, sound.size_offsets, sound.size_sizes, sound.size_types,
      sound.size_aligns, sound.size_data, sound.offsets, sound.sizes, sound.aligns⟩, regularMoved,
    rfl, rfl, packs.congr (fun _ _ => rfl) (Nat.le_refl _) fun _ _ _ => rfl,
    fun other member => represents.storable other (fewer.mem member)⟩,
    step⟩
  simp only [removal, Edit.run_bind, Edit.run_get, represents.count, runRemove, ended,
    Edit.run_lift_ok, length, many, runRepack, Edit.run_modify, Edit.run_pure, word]

theorem Represents.removal_spec (represents : Represents image elements)
    (inside : index < elements.length) :
    ∃ changed, removal index image = .ok (packedFrom 0 (elements.eraseIdx index)) changed ∧
      changed.layout = image.layout ∧ Represents changed (elements.eraseIdx index) ∧
      changed.header.log2MinGrowth = image.header.log2MinGrowth := by
  have split : elements = elements.take index ++ elements[index] :: elements.drop (index + 1) := by
    rw [← List.drop_eq_getElem_cons, List.take_append_drop]
  have length : (elements.take index).length = index :=
    List.length_take.trans (Nat.min_eq_left (Nat.le_of_lt inside))
  rw [split] at represents
  have spec := represents.removal_append
  rwa [length, ← List.eraseIdx_eq_take_drop_succ] at spec

end PackedStore.UntypedSequence
