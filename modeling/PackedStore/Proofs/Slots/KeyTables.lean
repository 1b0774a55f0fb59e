/-
This file describes a hash table by the keys of its linked slots. A key table of
a given capacity has linked exactly the slots that have a key, in an order of the
buckets, and all its records fit the bytes they take. Each operation gives a key
table again, says how the order changes, and leaves the links of other slots that
have no key alone, so a list of free slots can run through them.
-/

import Mathlib.Data.List.Find
import PackedStore.Element.Basic
import PackedStore.Proofs.Layout.Growth
import PackedStore.Proofs.Layout.Headers
import PackedStore.Proofs.Slots.Rebuilding

namespace PackedStore

/-- Capacities are so small that links can name all slots. -/
theorem IsCapacity.named {log2MinGrowth capacity : Nat}
    (reached : IsCapacity log2MinGrowth capacity) : capacity ≤ Link.slotLimit :=
  Nat.le_trans reached.le_max (by decide)

/-- A key can be stored under a type that has as many bytes as the key, and at least one. -/
structure KeyType.Fits (kind : KeyType) (key : Bytes) : Prop where
  size : key.size = kind.size
  sized : 0 < kind.size

/-- The arrays of a hash table have the given sizes, and its records fit their bytes. -/
structure HashChains.Sound (kind : KeyType) (capacity buckets : Nat) (chains : HashChains Bytes) :
    Prop where
  size_keys : chains.keys.size = Codec.arraySize kind.size capacity
  size_next : chains.next.size = capacity
  size_buckets : chains.buckets.size = buckets
  keys : ∀ key ∈ chains.keys, key.size = kind.size
  next : ∀ link ∈ chains.next, Codec.Fits Link.codec link
  buckets : ∀ link ∈ chains.buckets, Codec.Fits Link.codec link

/-- The bucket that a key of the type falls into, among twice as many buckets as slots. -/
def KeyType.home (kind : KeyType) (capacity : Nat) (key : Bytes) : Nat :=
  bucketOf kind.hash key (2 * capacity - 1)

/-- A hash table with as many slots as the capacity, each of which links can name, and twice as many
buckets. Exactly the slots that have a key are linked, in the given order. -/
structure KeyTable (kind : KeyType) (capacity : Nat) (cell : Nat → Option Bytes)
    (order : Nat → List Nat) (chains : HashChains Bytes) : Prop where
  chained : HashChains.Chained kind.hash chains order
  bounded : HashChains.Bounded capacity chains
  named : capacity ≤ Link.slotLimit
  size_keys : chains.keys.size = Codec.arraySize kind.size capacity
  size_next : chains.next.size = capacity
  size_buckets : chains.buckets.size = 2 * capacity
  keys : ∀ key ∈ chains.keys, key.size = kind.size
  linked : ∀ slot, (∃ bucket, slot ∈ order bucket) ↔ (cell slot).isSome
  getElem?_keys : ∀ slot key, cell slot = some key → chains.keys[slot]? = some key

namespace KeyTable

variable {kind : KeyType} {capacity : Nat} {cell : Nat → Option Bytes} {order : Nat → List Nat}
  {chains : HashChains Bytes} {slot : Nat} {key : Bytes}

theorem capacity_pos (table : KeyTable kind capacity cell order chains) : 0 < capacity := by
  have positive := table.chained.buckets_pos
  have size := table.size_buckets
  omega

theorem home_eq (table : KeyTable kind capacity cell order chains) (key : Bytes) :
    HashChains.home kind.hash chains key = kind.home capacity key := by
  rw [HashChains.home, table.size_buckets, KeyType.home]

theorem lt_size_keys (table : KeyTable kind capacity cell order chains)
    (there : cell slot = some key) : slot < chains.keys.size :=
  (Array.getElem?_eq_some_iff.mp (table.getElem?_keys slot key there)).1

theorem lt_capacity (table : KeyTable kind capacity cell order chains)
    (there : cell slot = some key) : slot < capacity := by
  have below := table.lt_size_keys there
  rw [table.size_keys] at below
  exact (Codec.lt_arraySize.mp below).2

/-- Rows that all have keys have room in the array of the keys. -/
theorem le_size_keys (table : KeyTable kind capacity cell order chains) {rows : Nat}
    (keyed : ∀ slot, slot < rows → (cell slot).isSome) : rows ≤ chains.keys.size := by
  by_contra beyond
  obtain ⟨key, there⟩ := Option.isSome_iff_exists.mp (keyed chains.keys.size (by omega))
  exact Nat.lt_irrefl _ (table.lt_size_keys there)

theorem fits_key (table : KeyTable kind capacity cell order chains)
    (there : cell slot = some key) : kind.Fits key := by
  have below := table.lt_size_keys there
  rw [table.size_keys] at below
  exact ⟨table.keys key (Array.mem_of_getElem? (table.getElem?_keys slot key there)),
    (Codec.lt_arraySize.mp below).1⟩

theorem mem_home (table : KeyTable kind capacity cell order chains)
    (there : cell slot = some key) : slot ∈ order (kind.home capacity key) := by
  obtain ⟨bucket, member⟩ := (table.linked slot).mpr (by rw [there]; rfl)
  have home := table.chained.home_eq member (table.getElem?_keys slot key there)
  rw [table.home_eq] at home
  rw [home]
  exact member

theorem unlinked (table : KeyTable kind capacity cell order chains) (vacant : cell slot = none)
    (bucket : Nat) : slot ∉ order bucket := by
  intro member
  have keyed := (table.linked slot).mp ⟨bucket, member⟩
  rw [vacant] at keyed
  exact absurd keyed (by simp)

theorem of_mem (table : KeyTable kind capacity cell order chains) {bucket : Nat}
    (member : slot ∈ order bucket) : ∃ key, cell slot = some key :=
  Option.isSome_iff_exists.mp ((table.linked slot).mp ⟨bucket, member⟩)

/-- The records of a table fit into their bytes. -/
theorem sound (table : KeyTable kind capacity cell order chains) :
    chains.Sound kind capacity (2 * capacity) where
  size_keys := table.size_keys
  size_next := table.size_next
  size_buckets := table.size_buckets
  keys := table.keys
  next _ member := Codec.fits_link fun slot isSlot =>
    Nat.lt_of_lt_of_le (table.bounded.next slot (isSlot ▸ member)) table.named
  buckets _ member := Codec.fits_link fun slot isSlot =>
    Nat.lt_of_lt_of_le (table.bounded.buckets slot (isSlot ▸ member)) table.named

/-! ### Searching -/

/-- A linked slot has the key that its cell says. -/
theorem hasKey_eq (table : KeyTable kind capacity cell order chains) {bucket : Nat}
    (member : slot ∈ order bucket) (key : Bytes) :
    chains.hasKey key slot = decide (cell slot = some key) := by
  obtain ⟨other, isOther⟩ := table.of_mem member
  rw [HashChains.hasKey, table.getElem?_keys slot other isOther, isOther]

/-- The first slot with a key is the first one in the list of its bucket. -/
theorem find_eq (table : KeyTable kind capacity cell order chains) (key : Bytes) :
    chains.find kind.hash key =
      .ok ((order (kind.home capacity key)).find? fun slot => cell slot = some key) := by
  rw [table.chained.find_eq, table.home_eq]
  exact congrArg Except.ok (List.find?_congr fun slot member => table.hasKey_eq member key)

/-- Behind a slot, the next slot with a key is the next one in the list. -/
theorem findAfter_eq (table : KeyTable kind capacity cell order chains) {bucket : Nat}
    {before after : List Nat} (split : order bucket = before ++ slot :: after) (key : Bytes) :
    chains.findAfter slot key = .ok (after.find? fun other => cell other = some key) := by
  rw [table.chained.findAfter_eq split]
  refine congrArg Except.ok (List.find?_congr fun other member => ?_)
  exact table.hasKey_eq
    (split ▸ List.mem_append_right before (List.mem_cons_of_mem slot member)) key

theorem allMatches_eq (table : KeyTable kind capacity cell order chains) (key : Bytes) :
    chains.allMatches kind.hash key =
      .ok ((order (kind.home capacity key)).filter fun slot => cell slot = some key) := by
  rw [table.chained.allMatches_eq, table.home_eq]
  exact congrArg Except.ok (List.filter_congr fun slot member => table.hasKey_eq member key)

/-- Where keys are distinct, a search finds the slot of a key. -/
theorem find_spec (table : KeyTable kind capacity cell order chains)
    (distinct : ∀ slot other key, cell slot = some key → cell other = some key → slot = other)
    (key : Bytes) :
    ∃ found, chains.find kind.hash key = .ok found ∧
      ∀ slot, found = some slot ↔ cell slot = some key := by
  have keyOf {slot : Nat} {bucket : Nat} (member : slot ∈ order bucket)
      (there : chains.keys[slot]? = some key) : cell slot = some key := by
    obtain ⟨other, isOther⟩ := table.of_mem member
    rw [table.getElem?_keys slot other isOther] at there
    rw [isOther, there]
  by_cases present : ∃ slot, cell slot = some key
  · obtain ⟨slot, there⟩ := present
    refine ⟨some slot, ?_, fun other => ⟨?_, ?_⟩⟩
    · exact table.chained.find_unique (table.mem_home there) (table.getElem?_keys slot key there)
        fun _ other member same => distinct other slot key (keyOf member same) there
    · rintro ⟨⟩
      exact there
    · exact fun thereOther => congrArg some (distinct slot other key there thereOther)
  · refine ⟨none, table.chained.find_none fun _ slot member there =>
      present ⟨slot, keyOf member there⟩, fun slot => ⟨by simp, ?_⟩⟩
    exact fun there => absurd ⟨slot, there⟩ present

/-! ### Linking and unlinking -/

theorem insert_spec (table : KeyTable kind capacity cell order chains) (below : slot < capacity)
    (vacant : cell slot = none) (fits : kind.Fits key) :
    ∃ changed, HashChains.insert kind.hash slot key chains = .ok () changed ∧
      KeyTable kind capacity (Function.update cell slot (some key))
        (HashChains.enter order (kind.home capacity key) slot) changed ∧
      ∀ other, other ≠ slot → changed.next[other]? = chains.next[other]? := by
  have inside : slot < chains.keys.size := by
    rw [table.size_keys]
    exact Codec.lt_arraySize.mpr ⟨fits.sized, below⟩
  have named : slot < Link.slotLimit := Nat.lt_of_lt_of_le below table.named
  have insideNext : slot < chains.next.size := table.size_next ▸ below
  have chained := table.chained.insert inside (table.unlinked vacant) key
  rw [table.home_eq] at chained
  have run :=
    @HashChains.run_insert _ kind.hash _ table.chained.buckets_pos slot inside insideNext named key
  rw [table.home_eq] at run
  refine ⟨_, run, ⟨chained, ?_, table.named, ?_, ?_, ?_, ?_, ?_, ?_⟩, ?_⟩
  · have keyed : HashChains.Bounded capacity
        { chains with keys := chains.keys.setIfInBounds slot key } :=
      ⟨table.bounded.next, table.bounded.buckets⟩
    exact keyed.front below _
  · exact Array.size_setIfInBounds.trans table.size_keys
  · exact (HashChains.size_front_next _ _).trans table.size_next
  · exact (HashChains.size_front_buckets _ _).trans table.size_buckets
  · intro other member
    rcases Array.mem_or_eq_of_mem_setIfInBounds member with old | rfl
    · exact table.keys other old
    · exact fits.size
  · intro other
    by_cases same : other = slot
    · subst same
      rw [Function.update_self]
      exact ⟨fun _ => rfl, fun _ => ⟨_, HashChains.mem_enter.mpr (Or.inl ⟨rfl, rfl⟩)⟩⟩
    · rw [Function.update_of_ne same, ← table.linked other]
      refine exists_congr fun bucket => ?_
      rw [HashChains.mem_enter]
      exact ⟨fun either => either.resolve_left fun new => same new.2, Or.inr⟩
  · intro other content there
    by_cases same : other = slot
    · subst same
      rw [Function.update_self] at there
      rw [← there]
      exact Array.getElem?_setIfInBounds_self_of_lt inside
    · rw [Function.update_of_ne same] at there
      exact (Array.getElem?_setIfInBounds_ne fun equal => same equal.symm).trans
        (table.getElem?_keys other content there)
  · intro other different
    exact Array.getElem?_setIfInBounds_ne fun equal => different equal.symm

/-- A key is inserted exactly if it takes bytes, for the keys without bytes have no array. -/
theorem insert_cases (table : KeyTable kind capacity cell order chains) (below : slot < capacity)
    (key : Bytes) :
    (0 < kind.size ∧ ∃ changed, HashChains.insert kind.hash slot key chains = .ok () changed) ∨
      (kind.size = 0 ∧
        HashChains.insert kind.hash slot key chains = .error (.fault .outOfRange) chains) := by
  by_cases inside : slot < chains.keys.size
  · have sized := inside
    rw [table.size_keys] at sized
    exact Or.inl ⟨(Codec.lt_arraySize.mp sized).1, _, HashChains.run_insert_word
      table.chained.buckets_pos inside (table.size_next ▸ below) key⟩
  · refine Or.inr ⟨?_, HashChains.run_insert_outside inside key⟩
    rw [table.size_keys, Codec.lt_arraySize] at inside
    omega

theorem unlink_spec (table : KeyTable kind capacity cell order chains)
    (there : cell slot = some key) :
    ∃ changed, HashChains.unlink kind.hash slot chains = .ok true changed ∧
      KeyTable kind capacity (Function.update cell slot none)
        (HashChains.leave order (kind.home capacity key) slot) changed ∧
      ∀ other, cell other = none → changed.next[other]? = chains.next[other]? := by
  have member := table.mem_home there
  obtain ⟨passed, after, split⟩ := List.append_of_mem member
  have inside : slot < chains.next.size := table.chained.mem_lt member
  have thereNext := Array.getElem?_eq_getElem inside
  refine ⟨_, table.chained.run_unlink split thereNext,
    ⟨table.chained.bypass split thereNext, table.bounded.bypass thereNext _ _, table.named,
      ?_, ?_, ?_, ?_, ?_, ?_⟩, ?_⟩
  · rw [HashChains.bypass_keys]
    exact table.size_keys
  · rw [HashChains.size_bypass_next]
    exact table.size_next
  · rw [HashChains.size_bypass_buckets]
    exact table.size_buckets
  · rw [HashChains.bypass_keys]
    exact table.keys
  · intro other
    have distinct := table.chained.nodup (kind.home capacity key)
    by_cases same : other = slot
    · subst same
      rw [Function.update_self]
      refine ⟨fun ⟨bucket, left⟩ => ?_, fun absent => absurd absent (by simp)⟩
      have old := (HashChains.mem_leave distinct).mp left
      exact absurd ⟨table.chained.bucket_unique old.1 member, rfl⟩ old.2
    · rw [Function.update_of_ne same, ← table.linked other]
      refine exists_congr fun bucket => ?_
      rw [HashChains.mem_leave distinct]
      exact ⟨And.left, fun old => ⟨old, fun equal => same equal.2⟩⟩
  · intro other content thereOther
    rw [HashChains.bypass_keys]
    by_cases same : other = slot
    · subst same
      rw [Function.update_self] at thereOther
      exact absurd thereOther (by simp)
    · rw [Function.update_of_ne same] at thereOther
      exact table.getElem?_keys other content thereOther
  · intro other vacant
    refine HashChains.bypass_next_of_ne fun before isLast same => ?_
    have inOrder : before ∈ order (kind.home capacity key) := by
      rw [split]
      exact List.mem_append_left _ (List.mem_of_getLast? isLast)
    exact table.unlinked vacant _ (same ▸ inOrder)

/-- The link of a slot that has no key does not matter. -/
theorem set_next (table : KeyTable kind capacity cell order chains) (vacant : cell slot = none)
    {link : Link} (below : ∀ other, link = some other → other < capacity) :
    KeyTable kind capacity cell order
      { chains with next := chains.next.setIfInBounds slot link } := by
  have chained := @HashChains.Chained.congr _ _ _ _
    { chains with next := chains.next.setIfInBounds slot link } table.chained
    (by rw [Array.size_setIfInBounds]; exact table.chained.size_next) rfl (fun _ _ _ => rfl)
    fun bucket other member => by
      have different : slot ≠ other := fun same =>
        table.unlinked vacant bucket (by rw [same]; exact member)
      exact Array.getElem?_setIfInBounds_ne different
  refine ⟨chained, ⟨fun other member => ?_, table.bounded.buckets⟩, table.named, table.size_keys,
    Array.size_setIfInBounds.trans table.size_next, table.size_buckets, table.keys, table.linked,
    table.getElem?_keys⟩
  rcases Array.mem_or_eq_of_mem_setIfInBounds member with old | new
  · exact table.bounded.next other old
  · exact below other new.symm

/-! ### Emptying -/

theorem clear_spec (sound : chains.Sound kind capacity (2 * capacity)) (positive : 0 < capacity)
    (named : capacity ≤ Link.slotLimit) :
    ∃ changed, HashChains.clear chains = .ok () changed ∧
      KeyTable kind capacity (fun _ => none) (fun _ => []) changed := by
  refine ⟨_, rfl, HashChains.chained_empty ?_ ?_, ⟨?_, ?_⟩, named, sound.size_keys, ?_, ?_,
    sound.keys, ?_, ?_⟩
  · rw [sound.size_buckets]
    omega
  · rw [Array.size_replicate, sound.size_next, sound.size_keys]
    exact Codec.arraySize_le kind.size capacity
  · exact fun slot member => absurd (Array.mem_replicate.mp member).2 (by simp)
  · exact fun slot member => absurd (Array.mem_replicate.mp member).2 (by simp)
  · exact Array.size_replicate.trans sound.size_next
  · exact Array.size_replicate.trans sound.size_buckets
  · simp
  · simp

/-! ### Building anew -/

/-- Slots sorted into buckets by their keys, the last one in front. -/
def grouped (kind : KeyType) (capacity : Nat) (cell : Nat → Option Bytes) (slots : List Nat) :
    Nat → List Nat := fun bucket =>
  (slots.filter fun slot => (cell slot).map (kind.home capacity) = some bucket).reverse

theorem mem_grouped {slots : List Nat} {bucket : Nat} :
    slot ∈ grouped kind capacity cell slots bucket ↔
      slot ∈ slots ∧ (cell slot).map (kind.home capacity) = some bucket := by
  simp [grouped]

theorem placed_eq_grouped {slots : List Nat} (size : chains.buckets.size = 2 * capacity)
    (keyed : ∀ slot ∈ slots, chains.keys[slot]? = cell slot) :
    HashChains.placed kind.hash chains (fun _ => []) slots = grouped kind capacity cell slots := by
  funext bucket
  rw [HashChains.placed, List.append_nil, grouped]
  congr 1
  refine List.filter_congr fun slot member => ?_
  have homes : HashChains.home kind.hash chains = kind.home capacity := by
    funext key
    rw [HashChains.home, size, KeyType.home]
  rw [HashChains.slotHome, keyed slot member, homes]

/-- A table that has been built anew from all slots with keys is a key table. -/
theorem of_grouped {slots : List Nat} (named : capacity ≤ Link.slotLimit)
    (size_keys : chains.keys.size = Codec.arraySize kind.size capacity)
    (size_next : chains.next.size = capacity) (size_buckets : chains.buckets.size = 2 * capacity)
    (bounded : HashChains.Bounded capacity chains)
    (keys : ∀ key ∈ chains.keys, key.size = kind.size)
    (listed : ∀ slot, slot ∈ slots ↔ (cell slot).isSome)
    (keyed : ∀ slot key, cell slot = some key → chains.keys[slot]? = some key)
    (chained : HashChains.Chained kind.hash chains
      (HashChains.placed kind.hash chains (fun _ => []) slots)) :
    KeyTable kind capacity cell (grouped kind capacity cell slots) chains := by
  have keyedSlots (slot : Nat) (member : slot ∈ slots) : chains.keys[slot]? = cell slot := by
    obtain ⟨key, there⟩ := Option.isSome_iff_exists.mp ((listed slot).mp member)
    rw [there, keyed slot key there]
  rw [placed_eq_grouped size_buckets keyedSlots] at chained
  refine ⟨chained, bounded, named, size_keys, size_next, size_buckets, keys,
    fun slot => ⟨?_, ?_⟩, keyed⟩
  · rintro ⟨bucket, member⟩
    exact (listed slot).mp (mem_grouped.mp member).1
  · intro present
    obtain ⟨key, there⟩ := Option.isSome_iff_exists.mp present
    exact ⟨kind.home capacity key, mem_grouped.mpr
      ⟨(listed slot).mpr present, by rw [there, Option.map_some]⟩⟩

/-- The slots of a key table, bucket after bucket. -/
theorem mem_listing (table : KeyTable kind capacity cell order chains) :
    slot ∈ (List.range chains.buckets.size).flatMap order ↔ (cell slot).isSome := by
  rw [← table.linked slot, List.mem_flatMap]
  refine exists_congr fun bucket => ⟨And.right, fun member => ⟨?_, member⟩⟩
  exact List.mem_range.mpr (table.chained.bucket_lt member)

/-- Growth regroups the linked slots. The keys and links of the old slots must have been copied to
the front of the larger table; what else stands there does not matter. -/
theorem grow_spec {larger : Nat} {old fresh : HashChains Bytes}
    (table : KeyTable kind capacity cell order old) (sound : fresh.Sound kind larger (2 * larger))
    (grows : capacity ≤ larger) (named : larger ≤ Link.slotLimit)
    (sameKeys : ∀ slot, slot < capacity → fresh.keys[slot]? = old.keys[slot]?)
    (sameNext : ∀ slot, slot < capacity → fresh.next[slot]? = old.next[slot]?) :
    ∃ changed,
      (do HashChains.endLinksFrom capacity; HashChains.rehash kind.hash old.buckets :
        Edit (HashChains Bytes) Unit) fresh = .ok () changed ∧
      KeyTable kind larger cell
        (grouped kind larger cell ((List.range old.buckets.size).flatMap order)) changed ∧
      ∀ slot, slot < capacity → cell slot = none → changed.next[slot]? = old.next[slot]? := by
  have positive := table.capacity_pos
  have room : capacity ≤ fresh.next.size := by rw [sound.size_next]; exact grows
  let ended : HashChains Bytes :=
    { fresh with next := fillRange fresh.next capacity fresh.next.size none }
  have endedNext (slot : Nat) (below : slot < capacity) : ended.next[slot]? = old.next[slot]? :=
    (getElem?_fillRange_before room below).trans (sameNext slot below)
  have sizeNext : ended.next.size = fresh.next.size := size_fillRange room (Nat.le_refl _)
  have member {slot : Nat} := @mem_listing kind capacity cell order old slot table
  have below {slot : Nat} (inOrder : slot ∈ (List.range old.buckets.size).flatMap order) :
      slot < capacity := by
    obtain ⟨key, there⟩ := Option.isSome_iff_exists.mp (member.mp inOrder)
    exact table.lt_capacity there
  have linkable (slot : Nat) (inOrder : slot ∈ (List.range old.buckets.size).flatMap order) :
      ended.Linkable slot := by
    obtain ⟨key, there⟩ := Option.isSome_iff_exists.mp (member.mp inOrder)
    have thereFresh :=
      (sameKeys slot (table.lt_capacity there)).trans (table.getElem?_keys slot key there)
    exact ⟨(Array.getElem?_eq_some_iff.mp thereFresh).1,
      Nat.lt_of_lt_of_le (table.lt_capacity there) table.named⟩
  have leads (bucket : Nat) (head : Link) (there : old.buckets[bucket]? = some head) :
      Link.Leads ended.next head (order bucket) := by
    refine (table.chained.leads bucket head there).congr fun slot inOrder => endedNext slot ?_
    obtain ⟨key, there⟩ := table.of_mem inOrder
    exact table.lt_capacity there
  have distinct : ((List.range old.buckets.size).flatMap order).Nodup := by
    rw [List.range_eq_range']
    exact table.chained.distinct_range 0 _
  obtain ⟨changed, run, relinked, chained⟩ :=
    @HashChains.run_rehash _ kind.hash ended old.buckets order
      (by rw [sound.size_buckets]; omega)
      (by rw [sizeNext, sound.size_next, sound.size_keys]; exact Codec.arraySize_le kind.size larger)
      linkable leads distinct
  have keys : changed.keys = fresh.keys := relinked.keys
  have buckets : changed.buckets.size = 2 * larger := by
    rw [relinked.size_buckets]
    exact Array.size_replicate.trans sound.size_buckets
  refine ⟨changed, ?_, of_grouped named ?_ ?_ buckets ?_ ?_ (fun _ => member) ?_ ?_, ?_⟩
  · simp only [HashChains.endLinksFrom, Edit.run_bind, Edit.run_get,
      fillRange?_of room (Nat.le_refl _), Edit.run_lift_ok, Edit.run_set]
    exact run
  · rw [keys]
    exact sound.size_keys
  · exact (relinked.size_next.trans sizeNext).trans sound.size_next
  · -- the old links are bounded by the old capacity, the new ones have been ended
    refine relinked.bounded larger (fun slot inOrder => Nat.lt_of_lt_of_le (below inOrder) grows)
      (HashChains.Bounded.cleared fun slot inNext => ?_)
    obtain ⟨position, there⟩ := Array.getElem?_of_mem inNext
    by_cases before : position < capacity
    · rw [endedNext position before] at there
      exact Nat.lt_of_lt_of_le (table.bounded.next slot (Array.mem_of_getElem? there)) grows
    · have inside := (Array.getElem?_eq_some_iff.mp there).1
      rw [sizeNext] at inside
      have empty : ended.next[position]? = some none :=
        getElem?_fillRange_inside room (Nat.le_of_not_lt before) inside
      exact absurd (there.symm.trans empty) (by simp)
  · rw [keys]
    exact sound.keys
  · intro slot key there
    rw [keys, sameKeys slot (table.lt_capacity there)]
    exact table.getElem?_keys slot key there
  · rw [HashChains.placed_congr _ fun slot => relinked.slotHome slot, HashChains.placed_cleared]
    exact chained
  · intro slot inside vacant
    have other : slot ∉ (List.range old.buckets.size).flatMap order := fun inOrder => by
      have present := member.mp inOrder
      rw [vacant] at present
      exact absurd present (by simp)
    rw [relinked.next_other slot other]
    exact endedNext slot inside

/-- The keys of slots from which a range has been taken out. -/
def shifted (cell : Nat → Option Bytes) (start count rows : Nat) : Nat → Option Bytes := fun slot =>
  if slot < rows - count then cell (if slot < start then slot else slot + count) else none

/-- Taking a range out of a table without holes regroups the slots that are left. -/
theorem removeRange_spec {start count rows : Nat}
    (table : KeyTable kind capacity cell order chains)
    (full : ∀ slot, (cell slot).isSome ↔ slot < rows) (range : start + count ≤ rows)
    (room : rows ≤ capacity) :
    ∃ changed, HashChains.removeRange kind.hash start count rows chains = .ok () changed ∧
      KeyTable kind capacity (shifted cell start count rows)
        (grouped kind capacity (shifted cell start count rows) (List.range (rows - count)))
        changed := by
  have insideKeys := table.le_size_keys fun slot => (full slot).mpr
  obtain ⟨changed, run, keys, sizeNext, sizeBuckets, bounded, chained⟩ :=
    @HashChains.run_removeRange _ kind.hash chains start count rows table.chained.buckets_pos
      table.chained.size_next range insideKeys (Nat.le_trans room table.named)
  refine ⟨changed, run, of_grouped table.named ?_ (sizeNext.trans table.size_next)
    (sizeBuckets.trans table.size_buckets) (bounded capacity room table.bounded) ?_ ?_ ?_ chained⟩
  · rw [keys, size_moveDown range insideKeys]
    exact table.size_keys
  · intro key member
    rw [keys] at member
    exact table.keys key (mem_moveDown member)
  · intro slot
    rw [List.mem_range, shifted]
    by_cases left : slot < rows - count
    · rw [if_pos left, full]
      split <;> omega
    · rw [if_neg left]
      simp [left]
  · intro slot key there
    rw [shifted] at there
    by_cases left : slot < rows - count
    · rw [if_pos left] at there
      rw [keys, getElem?_moveDown range insideKeys left]
      exact table.getElem?_keys _ key there
    · rw [if_neg left] at there
      exact absurd there (by simp)

end KeyTable

end PackedStore
