/-
This file carries the resemblance of hash tables over to indexed maps. Two images
resemble each other when they differ in nothing but the keys and values of slots that
were never handed out. They are read alike, and all changes of rows, of ranges and of
the whole map lead from images that resemble each other to such images, with the same
answers.
-/

import PackedStore.Proofs.IndexedMap.Resizing
import PackedStore.Proofs.Slots.Resemblance

namespace PackedStore.IndexedMap

variable {shape : Shape} {one other : Image} {limit count : Nat} {α : Type}

/-! ### Images with related parts -/

/-- The images have the same layout and the same header, and their other parts are related. -/
structure Image.Related (Headed : Header → Prop) (Valued : Array Bytes → Array Bytes → Prop)
    (Keyed Indexed : HashChains Bytes → HashChains Bytes → Prop) (count : Nat)
    (one other : Image) : Prop where
  layout : other.layout = one.layout
  header : other.header = one.header
  headed : Headed one.header
  values : Valued one.values other.values
  key : Keyed one.key other.key
  indices : one.indices.length = count ∧ List.Forall₂ Indexed one.indices other.indices

section

variable {Headed HeadedLater : Header → Prop}
  {Valued ValuedLater : Array Bytes → Array Bytes → Prop}
  {Keyed KeyedLater Indexed IndexedLater : HashChains Bytes → HashChains Bytes → Prop}

theorem transfers_onKey {change : Edit (HashChains Bytes) α}
    (transfers : Edit.Transfers Keyed KeyedLater change) :
    Edit.Transfers (Image.Related Headed Valued Keyed Indexed count)
      (Image.Related Headed Valued KeyedLater Indexed count) (onKey change) :=
  transfers.onPart (fun _ _ related => related.key)
    fun _ _ _ _ related changed => { related with key := changed }

theorem transfers_onIndices {changes : List (Edit (HashChains Bytes) Unit)}
    (length : changes.length = count)
    (each : ∀ change ∈ changes, Edit.Transfers Indexed IndexedLater change) :
    Edit.Transfers (Image.Related Headed Valued Keyed Indexed count)
      (Image.Related Headed Valued Keyed IndexedLater count) (onIndices changes) := by
  subst length
  exact (Edit.Transfers.onEach each).onPart (fun _ _ related => related.indices)
    fun _ _ _ _ related changed => { related with indices := changed }

theorem transfers_putHeader {change : Header → Header}
    (goes : ∀ header, Headed header → HeadedLater (change header)) :
    Edit.Transfers (Image.Related Headed Valued Keyed Indexed count)
      (Image.Related HeadedLater Valued Keyed Indexed count) (putHeader change) :=
  .modify fun _ _ related => { related with
    header := congrArg change related.header, headed := goes _ related.headed }

end

/-! ### Resemblance -/

/-- The slots below the limit have been handed out. -/
structure Header.Uses (limit : Nat) (header : Header) : Prop where
  allocated : header.allocatedIndex = limit
  firstFree : ∀ slot, header.firstFree = some slot → slot < limit

/-- The images differ in nothing but keys and values of slots that were never handed out. -/
abbrev Image.Resembles (shape : Shape) (limit : Nat) : Image → Image → Prop :=
  Image.Related (Header.Uses limit) (SameBelow limit) (HashChains.Resembles limit [])
    (HashChains.Resembles limit []) shape.indices.length

namespace Image.Related

/-! ### Reading -/

section

variable (resembles : Image.Resembles shape limit one other)

include resembles

theorem mapM_fetch_eq {slot : Nat} (below : slot < limit) :
    other.indices.mapM (fun chains => fetch chains.keys slot) =
      one.indices.mapM fun chains => fetch chains.keys slot := by
  obtain ⟨-, related⟩ := resembles.indices
  generalize one.indices = tables, other.indices = twins at related ⊢
  induction related with
  | nil => rfl
  | cons first _ inductionHypothesis =>
    rw [List.mapM_cons, List.mapM_cons, first.keys.fetch_eq below, inductionHypothesis]

/-- What stands in slots that were handed out is the same in both images. -/
theorem entry_eq {slot : Nat} (below : slot < limit) : other.entry slot = one.entry slot := by
  simp only [Image.entry, resembles.key.keys.fetch_eq below, resembles.mapM_fetch_eq below,
    resembles.values.fetch_eq below]

theorem mapM_entry_eq {slots : List Nat} (below : ∀ slot ∈ slots, slot < limit) :
    slots.mapM other.entry = slots.mapM one.entry := by
  induction slots with
  | nil => rfl
  | cons slot rest inductionHypothesis =>
    rw [List.mapM_cons, List.mapM_cons, resembles.entry_eq (below slot List.mem_cons_self),
      inductionHypothesis fun other member => below other (List.mem_cons_of_mem _ member)]

theorem isLive_eq (slot : Nat) : other.isLive shape slot = one.isLive shape slot := by
  simp only [Image.isLive, resembles.header, resembles.key.find_eq]
  by_cases below : slot < one.header.allocatedIndex
  · rw [if_pos below, if_pos below,
      resembles.key.keys.fetch_eq (resembles.headed.allocated ▸ below)]
  · rw [if_neg below, if_neg below]

/-- An index has the same type in both images, and its tables resemble each other. -/
theorem dimension_eq (position : Nat) :
    (∃ failure, dimension shape one position = .error failure ∧
      dimension shape other position = .error failure) ∨
    ∃ kind chains twin, dimension shape one position = .ok (kind, chains) ∧
      dimension shape other position = .ok (kind, twin) ∧
      chains.Resembles limit [] twin := by
  obtain ⟨-, related⟩ := resembles.indices
  have lengths := related.length_eq
  cases there : (shape.indices.zip one.indices)[position]? with
  | none =>
    have behind : (shape.indices.zip other.indices)[position]? = none := by
      rw [List.getElem?_eq_none_iff, List.length_zip, ← lengths, ← List.length_zip]
      exact List.getElem?_eq_none_iff.mp there
    exact Or.inl ⟨_, by rw [dimension, there]; rfl, by rw [dimension, behind]; rfl⟩
  | some found =>
    obtain ⟨thereKind, thereChains⟩ := List.getElem?_zip_eq_some.mp there
    obtain ⟨inside, isChains⟩ := List.getElem?_eq_some_iff.mp thereChains
    have insideOther : position < other.indices.length := lengths ▸ inside
    have both := related.get inside insideOther
    refine Or.inr ⟨found.1, found.2, other.indices[position], by rw [dimension, there]; rfl, ?_, ?_⟩
    · have thereTwin : (shape.indices.zip other.indices)[position]? =
          some (found.1, other.indices[position]) :=
        List.getElem?_zip_eq_some.mpr ⟨thereKind, List.getElem?_eq_getElem insideOther⟩
      rw [dimension, thereTwin]
      rfl
    · rw [← isChains]
      exact both

end

end Image.Related

/-! ### Taking and freeing slots -/

/-- The free slots of images that resemble each other are the same. -/
theorem transfers_onFree {change : Edit FreeSlots α}
    (keeps : ∀ free answer changed, FreeSlots.Within limit free → change free = .ok answer changed →
      FreeSlots.Within limit changed) :
    Edit.Transfers (Image.Resembles shape limit) (Image.Resembles shape limit) (onFree change) := by
  have transfers : Edit.Transfers
      (fun free twin : FreeSlots => twin = free ∧ FreeSlots.Within limit free)
      (fun free twin => twin = free ∧ FreeSlots.Within limit free) change := by
    rintro free _ answer changed ⟨rfl, within⟩ run
    exact ⟨changed, run, rfl, keeps _ answer changed within run⟩
  refine transfers.onPart (fun one other resembles => ⟨?_, resembles.key.named,
    resembles.headed.firstFree,
    fun slot target => resembles.key.inside slot target (by simp)⟩) ?_
  · simp only [resembles.header, resembles.key.next]
  · rintro one other free _ resembles ⟨rfl, within⟩
    exact { resembles with
      header := by simp only [resembles.header]
      headed := ⟨resembles.headed.allocated, within.head⟩
      key := { resembles.key with
        named := within.named, next := rfl, inside := fun slot target _ => within.next slot target } }

theorem Image.Related.lt_of_pop (resembles : Image.Resembles shape limit one other) {slot : Nat}
    {popped : Image} (run : onFree FreeSlots.pop one = .ok (some slot) popped) : slot < limit := by
  cases ran : FreeSlots.pop { head := one.header.firstFree, next := one.key.next } with
  | error failure free => simp [onFree, Edit.onPart, ran] at run
  | ok found free =>
    have within : FreeSlots.Within limit { head := one.header.firstFree, next := one.key.next } :=
      ⟨resembles.key.named, resembles.headed.firstFree,
        fun slot target => resembles.key.inside slot target (by simp)⟩
    refine (within.pop ran).2 slot ?_
    exact (EStateM.Result.ok.inj ((run_onFree ran).symm.trans run)).1

/-! ### Single rows -/

/-- The images resemble each other, however many slots have been handed out. -/
def Image.Alike (shape : Shape) (one other : Image) : Prop :=
  ∃ limit, Image.Resembles shape limit one other

/-- A row is stored in a slot that was handed out, or in the first one beyond these. -/
theorem transfers_storeRow {Headed : Header → Prop} {row : Row} (fits : row.Fits shape)
    {slot : Nat} (next : slot ≤ limit) :
    Edit.Transfers
      (Image.Related Headed (SameBelow limit) (HashChains.Resembles limit [])
        (HashChains.Resembles limit []) shape.indices.length)
      (Image.Related Headed (SameBelow (max limit (slot + 1)))
        (HashChains.Resembles (max limit (slot + 1)) [])
        (HashChains.Resembles (max limit (slot + 1)) []) shape.indices.length)
      (storeRow shape slot row) := by
  intro one other answer changed related run
  obtain ⟨_, inside, run⟩ := Edit.lift_bind_eq_ok.mp run
  have insideOther : slot < other.values.size := by
    rw [related.values.size]
    exact require_eq_ok.mp inside
  have length : ((shape.indices.zip row.indices).map fun part =>
      (HashChains.insert part.1.hash slot part.2 : Edit (HashChains Bytes) Unit)).length =
      shape.indices.length := by
    have cells := fits.length_cells
    simp only [Row.cells, Shape.kinds, List.length_cons] at cells
    rw [List.length_map, List.length_zip, Nat.succ.inj cells, Nat.min_self]
  have valued : Image.Related Headed (SameBelow (max limit (slot + 1)))
      (HashChains.Resembles limit []) (HashChains.Resembles limit []) shape.indices.length
      { one with values := one.values.setIfInBounds slot row.value }
      { other with values := other.values.setIfInBounds slot row.value } :=
    { related with values := related.values.set next row.value }
  obtain ⟨twin, ran, relatedTwin⟩ := ((transfers_onKey (HashChains.transfers_insert next row.key)).bind
    fun _ => transfers_onIndices length fun change member => by
      obtain ⟨part, -, rfl⟩ := List.mem_map.mp member
      exact HashChains.transfers_insert next part.2) _ _ _ _ valued run
  exact ⟨twin, Edit.lift_bind_eq_ok.mpr ⟨(), require_of insideOther _, ran⟩, relatedTwin⟩

/-- The slot that is handed out was freed before, or it is the first one beyond the limit. -/
theorem takeSlot_alike (resembles : Image.Resembles shape limit one other) {slot : Nat}
    {taken : Image} (run : takeSlot one = .ok slot taken) :
    ∃ twin, takeSlot other = .ok slot twin ∧ slot ≤ limit ∧
      Image.Related (Header.Uses (max limit (slot + 1))) (SameBelow limit)
        (HashChains.Resembles limit []) (HashChains.Resembles limit []) shape.indices.length
        taken twin := by
  obtain ⟨found, popped, ranPop, run⟩ := Edit.bind_eq_ok.mp run
  obtain ⟨twin, ranTwin, resemblesTwin⟩ := transfers_onFree
    (fun free _ _ within ran => (within.pop ran).1) _ _ _ _ resembles ranPop
  cases found with
  | some free =>
    have below := resembles.lt_of_pop ranPop
    obtain ⟨count, isCount, run⟩ := Edit.lift_bind_eq_ok.mp run
    obtain ⟨rfl, rfl⟩ := EStateM.Result.ok.inj run
    have most : max limit (free + 1) = limit := Nat.max_eq_left below
    refine ⟨{ twin with header := { twin.header with count } }, ?_, Nat.le_of_lt below, ?_⟩
    · refine Edit.bind_eq_ok.mpr ⟨some free, twin, ranTwin, ?_⟩
      exact Edit.lift_bind_eq_ok.mpr ⟨count, by rw [resemblesTwin.header]; exact isCount, rfl⟩
    · rw [most]
      exact { resemblesTwin with
        header := by rw [resemblesTwin.header]
        headed := ⟨resemblesTwin.headed.allocated, resemblesTwin.headed.firstFree⟩ }
  | none =>
    obtain ⟨word, isWord, run⟩ := Edit.lift_bind_eq_ok.mp run
    obtain ⟨count, isCount, run⟩ := Edit.lift_bind_eq_ok.mp run
    obtain ⟨isLimit, rfl⟩ := EStateM.Result.ok.inj run
    change successor popped.header.count = .ok count at isCount
    obtain ⟨_, -, isNext⟩ := Checked.bind_eq_ok.mp isWord
    obtain rfl := Except.ok.inj isNext
    obtain rfl : limit = slot := resemblesTwin.headed.allocated.symm.trans isLimit
    have most : max limit (limit + 1) = limit + 1 := Nat.max_eq_right (Nat.le_succ limit)
    refine ⟨{ twin with header := { twin.header with allocatedIndex := limit + 1, count } }, ?_,
      Nat.le_refl _, ?_⟩
    · refine Edit.bind_eq_ok.mpr ⟨none, twin, ranTwin, ?_⟩
      have isSlot : twin.header.allocatedIndex = limit := by rw [resemblesTwin.header, isLimit]
      have next : successor twin.header.allocatedIndex = .ok (limit + 1) := by
        rw [resemblesTwin.header, isWord, isLimit]
      have counted : successor twin.header.count = .ok count := by
        rw [resemblesTwin.header, isCount]
      refine Edit.lift_bind_eq_ok.mpr ⟨limit + 1, next, Edit.lift_bind_eq_ok.mpr ⟨count, counted, ?_⟩⟩
      exact congrArg (EStateM.Result.ok · _) isSlot
    · rw [most, isLimit]
      exact { resemblesTwin with
        header := by simp only [resemblesTwin.header]
        headed := ⟨rfl, fun slot isFirst =>
          Nat.lt_succ_of_lt (resemblesTwin.headed.firstFree slot isFirst)⟩ }

theorem transfers_insertRow {row : Row} (fits : row.Fits shape) :
    Edit.Transfers (Image.Resembles shape limit) (Image.Alike shape) (insertRow shape row) := by
  intro one other slot changed resembles run
  obtain ⟨free, taken, ranTake, run⟩ := Edit.bind_eq_ok.mp run
  obtain ⟨_, stored, ranStore, returned⟩ := Edit.bind_eq_ok.mp run
  obtain ⟨rfl, rfl⟩ := EStateM.Result.ok.inj returned
  obtain ⟨takenTwin, ranTwin, next, related⟩ := takeSlot_alike resembles ranTake
  obtain ⟨twin, ranStoreTwin, resemblesTwin⟩ :=
    transfers_storeRow fits next _ _ _ _ related ranStore
  exact ⟨twin, Edit.bind_eq_ok.mpr ⟨free, takenTwin, ranTwin,
    Edit.bind_eq_ok.mpr ⟨(), twin, ranStoreTwin, rfl⟩⟩, _, resemblesTwin⟩

theorem transfers_unlinkLinked {kind : KeyType} {slot : Nat} (below : slot < limit) :
    Edit.Transfers (HashChains.Resembles limit []) (HashChains.Resembles limit [])
      (unlinkLinked kind slot) :=
  (HashChains.transfers_unlink below).bind fun _ => .lift _

theorem transfers_removeRow {slot : Nat} (below : slot < limit) :
    Edit.Transfers (Image.Resembles shape limit) (Image.Resembles shape limit)
      (removeRow shape slot) := by
  have each (change : Edit (HashChains Bytes) Unit)
      (member : change ∈ shape.indices.map fun kind => unlinkLinked kind slot) :
      Edit.Transfers (HashChains.Resembles limit []) (HashChains.Resembles limit []) change := by
    obtain ⟨kind, -, rfl⟩ := List.mem_map.mp member
    exact transfers_unlinkLinked below
  refine (transfers_onKey (transfers_unlinkLinked below)).bind fun _ =>
    (transfers_onIndices (List.length_map _) each).bind fun _ =>
    (transfers_onFree fun _ _ _ within ran => within.push below ran).bind fun _ => ?_
  intro one other answer changed resembles run
  obtain ⟨_, positive, run⟩ := Edit.lift_bind_eq_ok.mp run
  obtain ⟨-, rfl⟩ := EStateM.Result.ok.inj run
  refine ⟨{ other with header := { other.header with count := other.header.count - 1 } },
    Edit.lift_bind_eq_ok.mpr ⟨(), by rw [resembles.header]; exact positive, rfl⟩,
    { resembles with
      header := by simp only [resembles.header]
      headed := ⟨resembles.headed.allocated, resembles.headed.firstFree⟩ }⟩

/-- The old value is read and the new one is written. -/
theorem transfers_exchange {slot : Nat} (below : slot < limit) (value : Bytes) :
    Edit.Transfers (Image.Resembles shape limit) (Image.Resembles shape limit)
      (do
        let image ← get
        let old ← fetch image.values slot
        set { image with values := image.values.setIfInBounds slot value }
        return some old : Edit Image (Option Bytes)) := by
  intro one other answer changed resembles run
  obtain ⟨old, isOld, run⟩ := Edit.lift_bind_eq_ok.mp run
  obtain ⟨rfl, rfl⟩ := EStateM.Result.ok.inj run
  have values := resembles.values.set (Nat.le_of_lt below) value
  rw [Nat.max_eq_left (show slot + 1 ≤ limit from below)] at values
  refine ⟨{ other with values := other.values.setIfInBounds slot value },
    Edit.lift_bind_eq_ok.mpr ⟨old, ?_, rfl⟩, { resembles with values }⟩
  rw [resembles.values.fetch_eq below]
  exact isOld

/-! ### Whole maps -/

/-- Images with the hash tables of a shape are compared table by table. -/
theorem Image.related_dimensions {Related : HashChains Bytes → HashChains Bytes → Prop}
    (length : one.dimensions.length = shape.kinds.length)
    (lengthOther : other.dimensions.length = shape.kinds.length)
    (each : ∀ (position : Nat) (kind : KeyType) (chains twin : HashChains Bytes),
      shape.kinds[position]? = some kind → one.dimensions[position]? = some chains →
      other.dimensions[position]? = some twin → Related chains twin) :
    Related one.key other.key ∧ one.indices.length = shape.indices.length ∧
      List.Forall₂ Related one.indices other.indices := by
  have lengths : one.indices.length = shape.indices.length := Nat.succ.inj length
  have lengthsOther : other.indices.length = shape.indices.length := Nat.succ.inj lengthOther
  refine ⟨each 0 shape.key one.key other.key rfl rfl rfl, lengths,
    List.forall₂_iff_get.mpr ⟨lengths.trans lengthsOther.symm, fun position inside insideOther => ?_⟩⟩
  have insideKinds : position < shape.indices.length := lengths ▸ inside
  exact each (position + 1) shape.indices[position] _ _ (List.getElem?_eq_getElem insideKinds)
    (List.getElem?_eq_getElem inside) (List.getElem?_eq_getElem insideOther)

/-- Sound images with the same frame are the same once they are cleared, as far as that can be
told. -/
theorem transfers_clearRows :
    Edit.Transfers (fun one other : Image => one.Sound shape ∧ other.Sound shape ∧
        one.header.capacity ≤ Link.slotLimit ∧ other.header.fixed = one.header.fixed)
      (Image.Resembles shape 0) (clearRows shape) := by
  have each (change : Edit (HashChains Bytes) Unit)
      (member : change ∈ shape.indices.map fun _ => HashChains.clear) :
      Edit.Transfers (HashChains.SameSized 0) (HashChains.Resembles 0 []) change := by
    obtain ⟨kind, -, rfl⟩ := List.mem_map.mp member
    exact HashChains.transfers_clear
  refine Edit.Transfers.bind ?_ fun _ => (transfers_onKey HashChains.transfers_clear).bind
    fun _ => transfers_onIndices (List.length_map _) each
  rintro one other _ _ ⟨sound, soundOther, named, fixed⟩ run
  obtain ⟨rfl, rfl⟩ := EStateM.Result.ok.inj run
  have capacity : other.header.capacity = one.header.capacity := by
    have same := congrArg Header.capacity fixed
    exact same
  have buckets : other.header.bucketCapacity = one.header.bucketCapacity := by
    have same := congrArg Header.bucketCapacity fixed
    exact same
  have computed := soundOther.computed
  rw [capacity, buckets, sound.computed] at computed
  obtain ⟨key, indices⟩ := Image.related_dimensions sound.length_dimensions
    soundOther.length_dimensions fun position kind chains twin isKind isChains isTwin => by
      have sized := sound.dimensions position kind chains isKind isChains
      have sizedTwin := soundOther.dimensions position kind twin isKind isTwin
      rw [capacity, buckets] at sizedTwin
      exact show HashChains.SameSized 0 chains twin from
        ⟨by rw [sized.size_next]; exact named, sizedTwin.size_next.trans sized.size_next.symm,
          sizedTwin.size_buckets.trans sized.size_buckets.symm,
          sizedTwin.size_keys.trans sized.size_keys.symm, fun _ absurdity =>
            absurd absurdity (Nat.not_lt_zero _)⟩
  refine ⟨_, rfl, (Except.ok.inj computed).symm, fixed,
    ⟨rfl, fun _ absurdity => absurd absurdity (by simp)⟩, ⟨?_, fun _ absurdity =>
      absurd absurdity (Nat.not_lt_zero _)⟩, key, indices⟩
  show other.values.size = one.values.size
  rw [soundOther.size_values, sound.size_values, capacity]

/-- Rows that are stored one after another make use of one slot each. -/
theorem transfers_storeRows {Headed : Header → Prop} {rows : List Row}
    (fits : ∀ row ∈ rows, row.Fits shape) :
    Edit.Transfers
      (Image.Related Headed (SameBelow limit) (HashChains.Resembles limit [])
        (HashChains.Resembles limit []) shape.indices.length)
      (Image.Related Headed (SameBelow (limit + rows.length))
        (HashChains.Resembles (limit + rows.length) [])
        (HashChains.Resembles (limit + rows.length) []) shape.indices.length)
      (storeRows shape limit rows) := by
  induction rows generalizing limit with
  | nil => exact .pure ()
  | cons row rest inductionHypothesis =>
    have next : max limit (limit + 1) = limit + 1 := Nat.max_eq_right (Nat.le_succ limit)
    have stored := @transfers_storeRow shape limit Headed row (fits row List.mem_cons_self) limit
      (Nat.le_refl limit)
    rw [next] at stored
    have length : limit + (row :: rest).length = limit + 1 + rest.length := by
      rw [List.length_cons]
      omega
    rw [length]
    exact stored.bind fun _ => inductionHypothesis fun other member =>
      fits other (List.mem_cons_of_mem _ member)

theorem transfers_fillRows {rows : List Row} (fits : ∀ row ∈ rows, row.Fits shape) :
    Edit.Transfers (Image.Resembles shape 0) (Image.Resembles shape rows.length)
      (do
        putHeader fun header => { header with count := rows.length, allocatedIndex := rows.length }
        storeRows shape 0 rows) := by
  have filled := @transfers_storeRows shape 0 (Header.Uses rows.length) rows fits
  rw [Nat.zero_add] at filled
  exact (transfers_putHeader fun header uses =>
    ⟨rfl, fun slot isFirst => absurd (uses.firstFree slot isFirst) (Nat.not_lt_zero _)⟩).bind
      fun _ => filled

/-- Nothing is left of the slots that are taken out. -/
theorem transfers_dropRange {start count rows : Nat} :
    Edit.Transfers
      (fun one other : Image => Image.Resembles shape rows one other ∧ one.header.firstFree = none)
      (Image.Resembles shape (rows - count)) (dropRange shape start count rows) := by
  rintro one other answer changed ⟨resembles, noHoles⟩ run
  obtain ⟨moved, isMoved, run⟩ := Edit.lift_bind_eq_ok.mp run
  obtain ⟨⟨range, inside⟩, rfl⟩ := moveDown?_eq_ok.mp isMoved
  have insideOther : rows ≤ other.values.size := by
    rw [resembles.values.size]
    exact inside
  have each (change : Edit (HashChains Bytes) Unit)
      (member : change ∈ shape.indices.map fun kind =>
        HashChains.removeRange kind.hash start count rows) :
      Edit.Transfers (HashChains.Resembles rows []) (HashChains.Resembles (rows - count) [])
        change := by
    obtain ⟨kind, -, rfl⟩ := List.mem_map.mp member
    exact HashChains.transfers_removeRange
  have valued : Image.Related (fun header => header.firstFree = none) (SameBelow (rows - count))
      (HashChains.Resembles rows []) (HashChains.Resembles rows []) shape.indices.length
      { one with values := moveDown one.values start count rows }
      { other with values := moveDown other.values start count rows } :=
    { resembles with headed := noHoles, values := resembles.values.moveDown range inside }
  obtain ⟨twin, ran, related⟩ := ((transfers_onKey HashChains.transfers_removeRange).bind fun _ =>
    (transfers_onIndices (List.length_map _) each).bind fun _ =>
    transfers_putHeader fun header isNone => show Header.Uses (rows - count)
      { header with count := rows - count, allocatedIndex := rows - count } from
      ⟨rfl, fun slot isFirst => absurd (isNone.symm.trans isFirst) (by simp)⟩) _ _ _ _ valued run
  exact ⟨twin, Edit.lift_bind_eq_ok.mpr ⟨_, moveDown?_of range insideOther, ran⟩, related⟩

/-! ### Growth -/

theorem transfers_relink {kind : KeyType} {capacity : Nat} {oldBuckets : Array Link}
    (below : ∀ slot, some slot ∈ oldBuckets → slot < limit) :
    Edit.Transfers (HashChains.Enlarged limit capacity) (HashChains.Resembles limit [])
      (relink kind capacity oldBuckets) :=
  HashChains.transfers_endLinksFrom.bind fun _ => HashChains.transfers_rehash below

/-- Images that extend images that resemble each other do so again once all slots are relinked. -/
theorem transfers_relinkAll {old : Image} (length : old.indices.length = shape.indices.length)
    (below : ∀ chains ∈ old.dimensions, ∀ slot, some slot ∈ chains.buckets → slot < limit) :
    Edit.Transfers
      (Image.Related (Header.Uses limit) (SameBelow limit)
        (HashChains.Enlarged limit old.header.capacity)
        (HashChains.Enlarged limit old.header.capacity) shape.indices.length)
      (Image.Resembles shape limit) (relinkAll shape old) := by
  have lengths : ((shape.indices.zip (old.indices.map (·.buckets))).map fun part =>
      relink part.1 old.header.capacity part.2).length = shape.indices.length := by
    rw [List.length_map, List.length_zip, List.length_map, length, Nat.min_self]
  refine (transfers_onKey (transfers_relink (below old.key List.mem_cons_self))).bind fun _ =>
    transfers_onIndices lengths fun change member => ?_
  obtain ⟨part, inZip, rfl⟩ := List.mem_map.mp member
  obtain ⟨chains, inIndices, isBuckets⟩ := List.mem_map.mp (List.of_mem_zip inZip).2
  refine transfers_relink fun slot isHead => ?_
  exact below chains (List.mem_cons_of_mem _ inIndices) slot (isBuckets ▸ isHead)

/-- Larger images that start like images that resemble each other. -/
theorem Image.Related.extended (resembles : Image.Resembles shape limit one other)
    (sound : one.Sound shape) (soundOther : other.Sound shape)
    (room : limit ≤ one.header.capacity) {fresh twin : Image} (extension : one.Extends fresh)
    (extensionOther : other.Extends twin) (soundFresh : fresh.Sound shape)
    (soundTwin : twin.Sound shape) (header : twin.header = fresh.header)
    (named : fresh.header.capacity ≤ Link.slotLimit) (uses : Header.Uses limit fresh.header) :
    Image.Related (Header.Uses limit) (SameBelow limit)
      (HashChains.Enlarged limit one.header.capacity)
      (HashChains.Enlarged limit one.header.capacity) shape.indices.length fresh twin := by
  have computed := soundTwin.computed
  rw [header, soundFresh.computed] at computed
  have capacity : other.header.capacity = one.header.capacity := by rw [resembles.header]
  have both : List.Forall₂ (HashChains.Resembles limit []) one.dimensions other.dimensions :=
    .cons resembles.key resembles.indices.2
  obtain ⟨key, indices⟩ := Image.related_dimensions soundFresh.length_dimensions
    soundTwin.length_dimensions fun position kind chains twin isKind isChains isTwin => by
      have inside := (List.getElem?_eq_some_iff.mp isKind).1
      have insideOne : position < one.dimensions.length := sound.length_dimensions ▸ inside
      have insideOther : position < other.dimensions.length := soundOther.length_dimensions ▸ inside
      have alike := both.get insideOne insideOther
      have isBefore := List.getElem?_eq_getElem insideOne
      have isBeforeOther := List.getElem?_eq_getElem insideOther
      have sized := soundFresh.dimensions position kind chains isKind isChains
      have sizedTwin := soundTwin.dimensions position kind twin isKind isTwin
      rw [header] at sizedTwin
      have keys := extension.keys position _ chains isBefore isChains
      have keysTwin := extensionOther.keys position _ twin isBeforeOther isTwin
      have next := extension.next position _ chains isBefore isChains
      have nextTwin := extensionOther.next position _ twin isBeforeOther isTwin
      rw [capacity] at keysTwin nextTwin
      exact show HashChains.Enlarged limit one.header.capacity chains twin from
        { named := by rw [sized.size_next]; exact named
          size_buckets := sizedTwin.size_buckets.trans sized.size_buckets.symm
          keys := ⟨sizedTwin.size_keys.trans sized.size_keys.symm, fun slot below => by
            have within := Nat.lt_of_lt_of_le below room
            rw [keysTwin slot within, keys slot within]
            exact alike.keys.member slot below⟩
          next := ⟨sizedTwin.size_next.trans sized.size_next.symm, fun slot below => by
            rw [nextTwin slot below, next slot below]
            exact congrArg (·[slot]?) alike.next⟩
          inside := fun slot target below there => by
            rw [next slot below] at there
            exact alike.inside slot target (by simp) there }
  refine ⟨(Except.ok.inj computed).symm, header, uses, ⟨?_, fun slot below => ?_⟩, key, indices⟩
  · rw [soundTwin.size_values, soundFresh.size_values, header]
  · have within := Nat.lt_of_lt_of_le below room
    rw [extensionOther.values slot (capacity ▸ within), extension.values slot within]
    exact resembles.values.member slot below

theorem relinkAll_congr (resembles : Image.Resembles shape limit one other) :
    relinkAll shape other = relinkAll shape one := by
  have buckets : other.indices.map (·.buckets) = one.indices.map (·.buckets) := by
    obtain ⟨-, related⟩ := resembles.indices
    generalize one.indices = tables, other.indices = twins at related ⊢
    induction related with
    | nil => rfl
    | cons first _ inductionHypothesis =>
      rw [List.map_cons, List.map_cons, first.buckets, inductionHypothesis]
  simp only [relinkAll, resembles.header, resembles.key.buckets, buckets]

/-- Images that resemble each other do so after growth. -/
theorem Image.GrowsTo.alike (resembles : Image.Resembles shape limit one other)
    (sound : one.Sound shape) (soundOther : other.Sound shape)
    (room : limit ≤ one.header.capacity) {capacity : Nat} (named : capacity ≤ Link.slotLimit)
    {grown twin : Image} (grows : one.GrowsTo shape capacity grown)
    (growsOther : other.GrowsTo shape capacity twin) :
    grown.Alike shape twin := by
  obtain ⟨fresh, extension, soundFresh, header, run⟩ := grows
  obtain ⟨freshTwin, extensionOther, soundTwin, headerTwin, runTwin⟩ := growsOther
  have both : List.Forall₂ (HashChains.Resembles limit []) one.dimensions other.dimensions :=
    .cons resembles.key resembles.indices.2
  have below (chains : HashChains Bytes) (member : chains ∈ one.dimensions) (slot : Nat)
      (isHead : some slot ∈ chains.buckets) : slot < limit := by
    obtain ⟨position, inside, rfl⟩ := List.getElem_of_mem member
    exact (both.get inside (both.length_eq ▸ inside)).heads slot isHead
  have related := resembles.extended sound soundOther room extension extensionOther soundFresh
    soundTwin (by rw [header, headerTwin, resembles.header]) (by rw [header]; exact named)
    (by rw [header]; exact ⟨resembles.headed.allocated, resembles.headed.firstFree⟩)
  obtain ⟨later, again, alike⟩ :=
    transfers_relinkAll resembles.indices.1 below _ _ _ _ related run
  rw [relinkAll_congr resembles] at runTwin
  obtain ⟨-, rfl⟩ := EStateM.Result.ok.inj (again.symm.trans runTwin)
  exact ⟨limit, alike⟩

/-- Images with the same frame resemble each other once they have been emptied. -/
theorem Image.Emptied.alike {header headerOther : Header} (emptied : one.Emptied shape header)
    (emptiedOther : other.Emptied shape headerOther) (named : header.capacity ≤ Link.slotLimit)
    (fixed : headerOther.fixed = header.fixed) : Image.Resembles shape 0 one other := by
  obtain ⟨fresh, sound, rfl, run⟩ := emptied
  obtain ⟨freshOther, soundOther, rfl, runOther⟩ := emptiedOther
  obtain ⟨later, again, alike⟩ := transfers_clearRows _ _ _ _ ⟨sound, soundOther, named, fixed⟩ run
  obtain ⟨-, rfl⟩ := EStateM.Result.ok.inj (again.symm.trans runOther)
  exact alike

end PackedStore.IndexedMap
