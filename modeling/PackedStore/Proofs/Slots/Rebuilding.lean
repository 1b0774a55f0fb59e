/-
This file says what building hash tables anew does to their order. Whether slots
come from a list or from old chains that are consumed on the way, each is linked
once, so every bucket ends up with its slots in reverse. No other link changes,
which is why a list of free slots may run through the same links.
-/

import PackedStore.Proofs.Slots.Linking

namespace PackedStore

/-! ### Ranges -/

section

variable {α : Type} {array : Array α} {start count stop position : Nat} {value : α}

theorem size_moveDown (range : start + count ≤ stop) (inside : stop ≤ array.size) :
    (moveDown array start count stop).size = array.size := by
  simp only [moveDown, Array.size_append, Array.size_extract]
  omega

theorem getElem?_moveDown (range : start + count ≤ stop) (inside : stop ≤ array.size)
    (below : position < stop - count) :
    (moveDown array start count stop)[position]? =
      array[if position < start then position else position + count]? := by
  rw [moveDown, Array.getElem?_append_left (by simp; omega)]
  by_cases before : position < start
  · rw [Array.getElem?_append_left (by simp; omega), Array.getElem?_extract, if_pos before,
      if_pos (by omega), Nat.zero_add]
  · have sizeFront : (array.extract 0 start).size = start := by simp; omega
    rw [Array.getElem?_append_right (by rw [sizeFront]; omega), sizeFront,
      Array.getElem?_extract, if_neg before, if_pos (by omega)]
    congr 1
    omega

theorem mem_moveDown (member : value ∈ moveDown array start count stop) : value ∈ array := by
  simp only [moveDown, Array.mem_append, Array.mem_extract_iff_getElem] at member
  rcases member with (⟨_, _, rfl⟩ | ⟨_, _, rfl⟩) | ⟨_, _, rfl⟩ <;> exact Array.getElem_mem _

theorem moveDown?_of (range : start + count ≤ stop) (inside : stop ≤ array.size) :
    moveDown? array start count stop = .ok (moveDown array start count stop) := by
  rw [moveDown?, require_of ⟨range, inside⟩]
  rfl

theorem moveDown?_eq_ok {moved : Array α} :
    moveDown? array start count stop = .ok moved ↔
      (start + count ≤ stop ∧ stop ≤ array.size) ∧ moveDown array start count stop = moved := by
  simp only [moveDown?, Checked.bind_eq_ok, require_eq_ok, pure, Except.pure, Except.ok.injEq,
    exists_const]

theorem size_fillRange (range : start ≤ stop) (inside : stop ≤ array.size) :
    (fillRange array start stop value).size = array.size := by
  simp only [fillRange, Array.size_append, Array.size_extract, Array.size_replicate]
  omega

theorem getElem?_fillRange_before (inside : start ≤ array.size) (before : position < start) :
    (fillRange array start stop value)[position]? = array[position]? := by
  rw [fillRange, Array.getElem?_append_left (by simp; omega),
    Array.getElem?_append_left (by simp; omega), Array.getElem?_extract, if_pos (by omega),
    Nat.zero_add]

theorem getElem?_fillRange_inside (inside : start ≤ array.size) (behind : start ≤ position)
    (below : position < stop) : (fillRange array start stop value)[position]? = some value := by
  have sizeFront : (array.extract 0 start).size = start := by simp; omega
  rw [fillRange, Array.getElem?_append_left (by simp; omega),
    Array.getElem?_append_right (by omega), Array.getElem?_replicate, if_pos (by omega)]

theorem getElem?_fillRange_behind (range : start ≤ stop) (inside : stop ≤ array.size)
    (behind : stop ≤ position) : (fillRange array start stop value)[position]? = array[position]? := by
  have sizeFront : (array.extract 0 start ++ Array.replicate (stop - start) value).size = stop := by
    simp only [Array.size_append, Array.size_extract, Array.size_replicate]
    omega
  rw [fillRange, Array.getElem?_append_right (by rw [sizeFront]; exact behind), sizeFront,
    Array.getElem?_extract, Nat.add_sub_cancel' behind]
  split
  · rfl
  · rw [Array.getElem?_eq_none (by omega)]

theorem mem_fillRange {other : α} (member : other ∈ fillRange array start stop value) :
    other ∈ array ∨ other = value := by
  simp only [fillRange, Array.mem_append, Array.mem_extract_iff_getElem,
    Array.mem_replicate] at member
  rcases member with (⟨_, _, rfl⟩ | ⟨-, rfl⟩) | ⟨_, _, rfl⟩
  · exact Or.inl (Array.getElem_mem _)
  · exact Or.inr rfl
  · exact Or.inl (Array.getElem_mem _)

theorem fillRange?_of (range : start ≤ stop) (inside : stop ≤ array.size) :
    fillRange? array start stop value = .ok (fillRange array start stop value) := by
  rw [fillRange?, require_of ⟨range, inside⟩]
  rfl

theorem fillRange?_eq_ok {filled : Array α} :
    fillRange? array start stop value = .ok filled ↔
      (start ≤ stop ∧ stop ≤ array.size) ∧ fillRange array start stop value = filled := by
  simp only [fillRange?, Checked.bind_eq_ok, require_eq_ok, pure, Except.pure, Except.ok.injEq,
    exists_const]

end

namespace HashChains

variable {Key : Type} {hash : Key → UInt64} {chains : HashChains Key} {order : Nat → List Nat}

/-! ### What all relinking has in common -/

/-- The second table has the keys of the first one, and its links are the same outside of the
listed slots. -/
structure Relinked (slots : List Nat) (before after : HashChains Key) : Prop where
  keys : after.keys = before.keys
  size_next : after.next.size = before.next.size
  size_buckets : after.buckets.size = before.buckets.size
  next_other : ∀ slot, slot ∉ slots → after.next[slot]? = before.next[slot]?
  bounded : ∀ bound, (∀ slot ∈ slots, slot < bound) → Bounded bound before → Bounded bound after

theorem Relinked.refl (chains : HashChains Key) : Relinked [] chains chains :=
  ⟨rfl, rfl, rfl, fun _ _ => rfl, fun _ _ bounded => bounded⟩

theorem Relinked.append {first second : List Nat} {before between after : HashChains Key}
    (left : Relinked first before between) (right : Relinked second between after) :
    Relinked (first ++ second) before after where
  keys := right.keys.trans left.keys
  size_next := right.size_next.trans left.size_next
  size_buckets := right.size_buckets.trans left.size_buckets
  next_other slot other := by
    simp only [List.mem_append, not_or] at other
    rw [right.next_other slot other.2, left.next_other slot other.1]
  bounded bound below bounded :=
    right.bounded bound (fun slot member => below slot (List.mem_append_right _ member))
      (left.bounded bound (fun slot member => below slot (List.mem_append_left _ member)) bounded)

theorem Relinked.front (chains : HashChains Key) (bucket slot : Nat) :
    Relinked [slot] chains (chains.front bucket slot) where
  keys := rfl
  size_next := size_front_next bucket slot
  size_buckets := size_front_buckets bucket slot
  next_other other different := by
    rw [List.mem_singleton] at different
    exact Array.getElem?_setIfInBounds_ne fun same => different same.symm
  bounded _ below bounded := bounded.front (below slot List.mem_cons_self) bucket

theorem Relinked.linkable {slots : List Nat} {before after : HashChains Key}
    (relinked : Relinked slots before after) {slot : Nat} (linkable : before.Linkable slot) :
    after.Linkable slot :=
  ⟨by rw [relinked.keys]; exact linkable.1, linkable.2⟩

theorem Relinked.slotHome {slots : List Nat} {before after : HashChains Key}
    (relinked : Relinked slots before after) (slot : Nat) :
    slotHome hash after slot = slotHome hash before slot :=
  slotHome_congr relinked.size_buckets (by rw [relinked.keys])

/-- The order after linking a list of slots, the last one in front. -/
def placed (hash : Key → UInt64) (chains : HashChains Key) (order : Nat → List Nat)
    (slots : List Nat) : Nat → List Nat := fun bucket =>
  (slots.filter fun slot => slotHome hash chains slot = some bucket).reverse ++ order bucket

theorem placed_append (first second : List Nat) :
    placed hash chains order (first ++ second) =
      placed hash chains (placed hash chains order first) second := by
  funext bucket
  simp [placed]

theorem placed_congr {changed : HashChains Key} (slots : List Nat)
    (same : ∀ slot, slotHome hash changed slot = slotHome hash chains slot) :
    placed hash changed order slots = placed hash chains order slots := by
  funext bucket
  simp only [placed, same]

theorem placed_singleton {slot : Nat} {key : Key} (there : chains.keys[slot]? = some key) :
    placed hash chains order [slot] = enter order (home hash chains key) slot := by
  funext bucket
  by_cases same : bucket = home hash chains key
  · subst same
    simp [placed, enter, slotHome_of there]
  · have different : ¬ home hash chains key = bucket := fun equal => same equal.symm
    simp [placed, enter, slotHome_of there, same, different]

theorem mem_placed {slots : List Nat} {bucket slot : Nat} :
    slot ∈ placed hash chains order slots bucket ↔
      (slot ∈ slots ∧ slotHome hash chains slot = some bucket) ∨ slot ∈ order bucket := by
  simp [placed]

/-! ### Linking one slot after another -/

/-- Linking a slot that is not linked, as a step of building anew. -/
theorem Chained.link_step (chained : Chained hash chains order) {slot : Nat}
    (linkable : chains.Linkable slot) (unlinked : ∀ bucket, slot ∉ order bucket) :
    ∃ changed, link hash slot chains = .ok () changed ∧ Relinked [slot] chains changed ∧
      Chained hash changed (placed hash chains order [slot]) := by
  have there := Array.getElem?_eq_getElem linkable.1
  have inside : slot < chains.next.size := Nat.lt_of_lt_of_le linkable.1 chained.size_next
  refine ⟨_, run_link chained.buckets_pos there inside linkable.2, Relinked.front _ _ _, ?_⟩
  rw [placed_singleton there]
  exact chained.front there unlinked

/-- Slots that are linked once more than before are still not linked elsewhere. -/
theorem not_mem_placed_singleton {slot other : Nat} (different : other ≠ slot)
    (unlinked : ∀ bucket, other ∉ order bucket) (bucket : Nat) :
    other ∉ placed hash chains order [slot] bucket := by
  intro member
  rcases mem_placed.mp member with ⟨listed, -⟩ | old
  · exact different (List.mem_singleton.mp listed)
  · exact unlinked bucket old

theorem Chained.run_links (chained : Chained hash chains order) {slots : List Nat}
    (linkable : ∀ slot ∈ slots, chains.Linkable slot) (distinct : slots.Nodup)
    (unlinked : ∀ slot ∈ slots, ∀ bucket, slot ∉ order bucket) :
    ∃ changed, slots.forM (link hash) chains = .ok () changed ∧ Relinked slots chains changed ∧
      Chained hash changed (placed hash chains order slots) := by
  induction slots generalizing chains order with
  | nil => exact ⟨chains, rfl, Relinked.refl chains, chained⟩
  | cons slot rest inductionHypothesis =>
    obtain ⟨notRest, distinctRest⟩ := List.nodup_cons.mp distinct
    obtain ⟨linked, runLink, relinked, chainedLinked⟩ :=
      chained.link_step (linkable slot List.mem_cons_self) (unlinked slot List.mem_cons_self)
    obtain ⟨changed, runRest, relinkedRest, chainedRest⟩ := inductionHypothesis chainedLinked
      (fun other member => relinked.linkable (linkable other (List.mem_cons_of_mem _ member)))
      distinctRest
      (fun other member => not_mem_placed_singleton (fun same => notRest (same ▸ member))
        (unlinked other (List.mem_cons_of_mem _ member)))
    refine ⟨changed, ?_, relinked.append relinkedRest, ?_⟩
    · rw [Edit.run_forM_cons, runLink]
      exact runRest
    · rw [← List.singleton_append, placed_append, ← placed_congr _ relinked.slotHome]
      exact chainedRest

/-- Consuming a chain links its slots one after another. The link of a slot is read before it
changes, and the slots that follow still have their old links. -/
theorem Chained.run_relinkWithin (chained : Chained hash chains order) {fuel : Nat}
    {first : Link} {slots : List Nat} (leads : Link.Leads chains.next first slots)
    (enough : slots.length ≤ fuel) (linkable : ∀ slot ∈ slots, chains.Linkable slot)
    (unlinked : ∀ slot ∈ slots, ∀ bucket, slot ∉ order bucket) :
    ∃ changed, relinkWithin hash fuel first chains = .ok () changed ∧
      Relinked slots chains changed ∧ Chained hash changed (placed hash chains order slots) := by
  have distinct := leads.nodup
  induction slots generalizing chains order first fuel with
  | nil =>
    rw [Link.leads_nil] at leads
    subst leads
    refine ⟨chains, ?_, Relinked.refl chains, chained⟩
    cases fuel <;> rfl
  | cons slot rest inductionHypothesis =>
    obtain ⟨notRest, distinctRest⟩ := List.nodup_cons.mp distinct
    obtain ⟨rfl, successor, there, leadsRest⟩ := leads
    cases fuel with
    | zero => simp at enough
    | succ fuel =>
      obtain ⟨linked, runLink, relinked, chainedLinked⟩ :=
        chained.link_step (linkable slot List.mem_cons_self) (unlinked slot List.mem_cons_self)
      have others (other : Nat) (member : other ∈ rest) : other ≠ slot := by
        rintro rfl
        exact notRest member
      have leadsLinked : Link.Leads linked.next successor rest :=
        leadsRest.congr fun other member =>
          relinked.next_other other (by simpa using others other member)
      obtain ⟨changed, runRest, relinkedRest, chainedRest⟩ :=
        inductionHypothesis chainedLinked leadsLinked (by simpa using enough)
          (fun other member => relinked.linkable (linkable other (List.mem_cons_of_mem _ member)))
          (fun other member => not_mem_placed_singleton (others other member)
            (unlinked other (List.mem_cons_of_mem _ member)))
          distinctRest
      refine ⟨changed, ?_, relinked.append relinkedRest, ?_⟩
      · simp only [relinkWithin, Edit.run_bind, Edit.run_get, fetch_of there, Edit.run_lift_ok,
          runLink, runRest]
      · rw [← List.singleton_append, placed_append, ← placed_congr _ relinked.slotHome]
        exact chainedRest

/-- Consuming several chains links the slots of all of them. -/
theorem Chained.run_relinkAll (chained : Chained hash chains order) {fuel start : Nat}
    {heads : List Link} {old : Nat → List Nat}
    (leads : ∀ position head, heads[position]? = some head →
      Link.Leads chains.next head (old (start + position)))
    (distinct : ((List.range' start heads.length).flatMap old).Nodup)
    (enough : chains.next.size ≤ fuel)
    (linkable : ∀ slot ∈ (List.range' start heads.length).flatMap old, chains.Linkable slot)
    (unlinked : ∀ slot ∈ (List.range' start heads.length).flatMap old, ∀ bucket,
      slot ∉ order bucket) :
    ∃ changed, heads.forM (relinkWithin hash fuel) chains = .ok () changed ∧
      Relinked ((List.range' start heads.length).flatMap old) chains changed ∧
      Chained hash changed
        (placed hash chains order ((List.range' start heads.length).flatMap old)) := by
  induction heads generalizing chains order start with
  | nil => exact ⟨chains, rfl, Relinked.refl chains, chained⟩
  | cons head heads inductionHypothesis =>
    rw [List.length_cons, List.range'_succ, List.flatMap_cons] at distinct linkable unlinked ⊢
    obtain ⟨-, distinctRest, apart⟩ := List.nodup_append.mp distinct
    have leadsHead : Link.Leads chains.next head (old start) := leads 0 head rfl
    obtain ⟨linked, runHead, relinked, chainedHead⟩ :=
      chained.run_relinkWithin leadsHead (Nat.le_trans leadsHead.length_le enough)
        (fun slot member => linkable slot (List.mem_append_left _ member))
        fun slot member => unlinked slot (List.mem_append_left _ member)
    have leadsLinked (position : Nat) (link : Link) (there : heads[position]? = some link) :
        Link.Leads linked.next link (old (start + 1 + position)) := by
      have leadsOld := leads (position + 1) link (by simpa using there)
      rw [show start + (position + 1) = start + 1 + position by omega] at leadsOld
      refine leadsOld.congr fun slot member => relinked.next_other slot fun inHead => ?_
      have inRest : slot ∈ (List.range' (start + 1) heads.length).flatMap old := by
        refine List.mem_flatMap.mpr ⟨start + 1 + position, ?_, member⟩
        have bound := (List.getElem?_eq_some_iff.mp there).1
        simp only [List.mem_range'_1]
        omega
      exact apart slot inHead slot inRest rfl
    obtain ⟨changed, runRest, relinkedRest, chainedRest⟩ :=
      inductionHypothesis chainedHead leadsLinked distinctRest
        (by rw [relinked.size_next]; exact enough)
        (fun slot member => relinked.linkable (linkable slot (List.mem_append_right _ member)))
        (fun slot member bucket placedThere => by
          rcases mem_placed.mp placedThere with ⟨inHead, -⟩ | old
          · exact apart slot inHead slot member rfl
          · exact unlinked slot (List.mem_append_right _ member) bucket old)
    refine ⟨changed, ?_, relinked.append relinkedRest, ?_⟩
    · rw [Edit.run_forM_cons, runHead]
      exact runRest
    · rw [placed_append, ← placed_congr _ relinked.slotHome]
      exact chainedRest

/-! ### Building anew -/

theorem Chained.distinct_range (chained : Chained hash chains order) (start count : Nat) :
    ((List.range' start count).flatMap order).Nodup := by
  induction count generalizing start with
  | zero => exact List.nodup_nil
  | succ count inductionHypothesis =>
    rw [List.range'_succ, List.flatMap_cons, List.nodup_append]
    refine ⟨chained.nodup start, inductionHypothesis (start + 1), ?_⟩
    rintro slot inFirst other inRest rfl
    obtain ⟨bucket, inRange, member⟩ := List.mem_flatMap.mp inRest
    have same := chained.bucket_unique inFirst member
    simp only [List.mem_range'_1] at inRange
    omega

/-- The table with empty buckets, as building anew starts. -/
def cleared (chains : HashChains Key) : HashChains Key :=
  { chains with buckets := Array.replicate chains.buckets.size none }

theorem placed_cleared (slots : List Nat) :
    placed hash chains.cleared order slots = placed hash chains order slots :=
  placed_congr slots fun _ => slotHome_congr (by simp [cleared]) rfl

theorem Bounded.cleared {bound : Nat} (next : ∀ slot, some slot ∈ chains.next → slot < bound) :
    Bounded bound chains.cleared where
  next := next
  buckets slot member := absurd (Array.mem_replicate.mp member).2 (by simp)

/-- Rehashing moves the slots of old chains, listed bucket after bucket, to the buckets of the
table. The links and keys of the old slots must still be those of the old table. -/
theorem run_rehash {oldBuckets : Array Link} {old : Nat → List Nat}
    (positive : 0 < chains.buckets.size) (size_next : chains.keys.size ≤ chains.next.size)
    (linkable : ∀ slot ∈ (List.range oldBuckets.size).flatMap old, chains.Linkable slot)
    (leads : ∀ bucket head, oldBuckets[bucket]? = some head →
      Link.Leads chains.next head (old bucket))
    (distinct : ((List.range oldBuckets.size).flatMap old).Nodup) :
    ∃ changed, rehash hash oldBuckets chains = .ok () changed ∧
      Relinked ((List.range oldBuckets.size).flatMap old) chains.cleared changed ∧
      Chained hash changed
        (placed hash chains (fun _ => []) ((List.range oldBuckets.size).flatMap old)) := by
  rw [List.range_eq_range'] at linkable distinct ⊢
  have empty : Chained hash chains.cleared fun _ => [] := chained_empty positive size_next
  have enough : chains.cleared.next.size ≤ (chains.next.size + 1) * (chains.next.size + 1) :=
    Nat.le_trans (Nat.le_succ _) (Nat.le_mul_of_pos_right _ (Nat.succ_pos _))
  have leadsList (position : Nat) (head : Link)
      (there : oldBuckets.toList[position]? = some head) :
      Link.Leads chains.cleared.next head (old (0 + position)) := by
    rw [Nat.zero_add]
    exact leads position head (by simpa using there)
  obtain ⟨changed, run, relinked, chained⟩ := empty.run_relinkAll leadsList distinct enough
    linkable fun _ _ _ member => absurd member (by simp)
  refine ⟨changed, ?_, relinked, ?_⟩
  · simp only [rehash, clearBuckets, Edit.run_bind, Edit.run_modify, Edit.run_get]
    exact run
  · rw [← placed_cleared]
    exact chained

/-- Rebuilding links exactly the given slots, whatever was linked before. -/
theorem run_rebuild {slots : List Nat} (positive : 0 < chains.buckets.size)
    (size_next : chains.keys.size ≤ chains.next.size)
    (linkable : ∀ slot ∈ slots, chains.Linkable slot) (distinct : slots.Nodup) :
    ∃ changed, rebuild hash slots chains = .ok () changed ∧
      Relinked slots chains.cleared changed ∧
      Chained hash changed (placed hash chains (fun _ => []) slots) := by
  have empty : Chained hash chains.cleared fun _ => [] := chained_empty positive size_next
  obtain ⟨changed, run, relinked, chained⟩ := empty.run_links linkable distinct
    fun _ _ _ member => absurd member (by simp)
  refine ⟨changed, ?_, relinked, ?_⟩
  · simp only [rebuild, clearBuckets, Edit.run_bind, Edit.run_modify]
    exact run
  · rw [← placed_cleared]
    exact chained

/-- Dropping a range of keys links the slots that are left, whatever was linked before. -/
theorem run_removeRange {start count rows : Nat} (positive : 0 < chains.buckets.size)
    (size_next : chains.keys.size ≤ chains.next.size) (range : start + count ≤ rows)
    (inside : rows ≤ chains.keys.size) (named : rows ≤ Link.slotLimit) :
    ∃ changed, removeRange hash start count rows chains = .ok () changed ∧
      changed.keys = moveDown chains.keys start count rows ∧
      changed.next.size = chains.next.size ∧ changed.buckets.size = chains.buckets.size ∧
      (∀ bound, rows ≤ bound → Bounded bound chains → Bounded bound changed) ∧
      Chained hash changed (placed hash changed (fun _ => []) (List.range (rows - count))) := by
  let moved : HashChains Key :=
    { chains with
      keys := moveDown chains.keys start count rows
      next := fillRange chains.next (rows - count) rows none }
  have sizeKeys : moved.keys.size = chains.keys.size := size_moveDown range inside
  have insideNext : rows ≤ chains.next.size := Nat.le_trans inside size_next
  have sizeNext : moved.next.size = chains.next.size :=
    size_fillRange (Nat.sub_le rows count) insideNext
  have below (slot : Nat) (member : slot ∈ List.range (rows - count)) : slot < rows := by
    rw [List.mem_range] at member
    omega
  obtain ⟨changed, run, relinked, chained⟩ :=
    @run_rebuild _ hash moved (List.range (rows - count)) positive
      (by rw [sizeKeys, sizeNext]; exact size_next)
      (fun slot member => ⟨by rw [sizeKeys]; exact Nat.lt_of_lt_of_le (below slot member) inside,
        Nat.lt_of_lt_of_le (below slot member) named⟩) List.nodup_range
  refine ⟨changed, ?_, relinked.keys, relinked.size_next.trans sizeNext, ?_, ?_, ?_⟩
  · simp only [removeRange, Edit.run_bind, Edit.run_get, moveDown?_of range inside,
      Edit.run_lift_ok, Edit.run_set,
      fillRange?_of (Nat.sub_le rows count) insideNext]
    exact run
  · simpa [cleared] using relinked.size_buckets
  · intro bound enough bounded
    refine relinked.bounded bound (fun slot member => ?_) (Bounded.cleared fun slot member => ?_)
    · exact Nat.lt_of_lt_of_le (below slot member) enough
    · rcases mem_fillRange member with old | new
      · exact bounded.next slot old
      · exact absurd new (by simp)
  · rw [placed_congr _ fun slot => relinked.slotHome slot, placed_cleared]
    exact chained

end HashChains

end PackedStore
