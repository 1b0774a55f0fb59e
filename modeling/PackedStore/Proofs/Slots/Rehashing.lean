/-
This file says where rehashing and rebuilding put each slot. Rehashing goes through
the old chains one after another, reads each link one step ahead of the link that it
overwrites, and puts every slot in front of the bucket that its key falls into now.
So a new chain holds the slots of the old bucket order that fall into its bucket, the
other way round; what stands in none of the old chains keeps its link. When the
numbers of buckets are powers of two, each old bucket is split and none are mixed, so
a new chain comes out of a single old one.
-/

import PackedStore.Proofs.Slots.Histories

namespace PackedStore

/-- A list of which all parts but one are empty. -/
theorem flatMap_range_eq {count wanted : Nat} {part : Nat → List Nat} (inside : wanted < count)
    (others : ∀ other, other ≠ wanted → part other = []) :
    (List.range count).flatMap part = part wanted := by
  induction count with
  | zero => exact absurd inside (Nat.not_lt_zero wanted)
  | succ count inductionHypothesis =>
    rw [List.range_succ, List.flatMap_append, List.flatMap_singleton]
    by_cases last : wanted = count
    · have front : (List.range count).flatMap part = [] :=
        List.flatMap_eq_nil_iff.mpr fun other member =>
          others other (by rw [last]; exact Nat.ne_of_lt (List.mem_range.mp member))
      rw [front, List.nil_append, last]
    · rw [inductionHypothesis (by omega), others count fun same => last same.symm, List.append_nil]

/-- Among fewer buckets, a power of two, a key falls into the bucket that it leaves as a remainder
among more. -/
theorem bucketOf_two_pow_mod {Key : Type} (hash : Key → UInt64) (key : Key) {few many : Nat}
    (le : few ≤ many) :
    bucketOf hash key (2 ^ many - 1) % 2 ^ few = bucketOf hash key (2 ^ few - 1) := by
  rw [bucketOf, bucketOf, Nat.and_two_pow_sub_one_eq_mod, Nat.and_two_pow_sub_one_eq_mod,
    Nat.mod_mod_of_dvd _ (Nat.pow_dvd_pow 2 le)]

namespace HashChains

variable {Key : Type} {hash : Key → UInt64} {old later : HashChains Key} {slots : List Nat}

/-! ### Chains that can be consumed -/

/-- Following the links from every bucket comes to an end, on the way there are only slots that have
keys and that links can name, and no slot occurs twice, wherever the keys of the slots belong. -/
structure Untangled (chains : HashChains Key) : Prop where
  size_next : chains.keys.size ≤ chains.next.size
  linkable : ∀ slot, chains.Linked slot → chains.Linkable slot
  ends : ∀ (bucket : Nat) (head : Link), chains.buckets[bucket]? = some head →
    ∃ slots, Link.Leads chains.next head slots
  distinct : ((List.range chains.buckets.size).flatMap chains.chain).Nodup

theorem WellFormed.untangled (wellFormed : WellFormed hash old)
    (named : ∀ slot, old.Linked slot → slot < Link.slotLimit) : Untangled old :=
  ⟨wellFormed.size_next,
    fun slot linked => ⟨(wellFormed_iff.mp wellFormed).mem_lt_keys linked.choose_spec,
      named slot linked⟩,
    wellFormed.ends, wellFormed.distinct⟩

namespace Untangled

variable (untangled : Untangled old)

include untangled

theorem leads (bucket : Nat) (head : Link) (there : old.buckets[bucket]? = some head) :
    Link.Leads old.next head (old.chain bucket) := by
  obtain ⟨slots, leads⟩ := untangled.ends bucket head there
  rwa [chain_of_leads there leads]

theorem linkedSlots_eq :
    old.linkedSlots = .ok ((List.range old.buckets.size).flatMap old.chain) :=
  linkedSlots_of_leads untangled.leads

end Untangled

/-- A slot stands in a chain exactly if it is listed with the buckets. -/
theorem mem_listed {chains : HashChains Key} {slot : Nat} :
    slot ∈ (List.range chains.buckets.size).flatMap chains.chain ↔ chains.Linked slot := by
  rw [List.mem_flatMap]
  refine exists_congr fun bucket => ⟨And.right, fun member => ⟨List.mem_range.mpr ?_, member⟩⟩
  by_contra outside
  rw [chain, Array.getElem?_eq_none (Nat.le_of_not_lt outside)] at member
  exact absurd member List.not_mem_nil

/-! ### Sorted slots -/

/-- The chains hold the listed slots, each bucket those whose keys fall into it, the last one in
front. -/
def Sorts (hash : Key → UInt64) (slots : List Nat) (chains : HashChains Key) : Prop :=
  ∀ bucket, chains.chain bucket =
    (slots.filter fun slot => slotHome hash chains slot = some bucket).reverse

theorem sorts_of_placed {before : HashChains Key}
    (relinked : Relinked slots before later)
    (chained : Chained hash later (placed hash before (fun _ => []) slots)) :
    Sorts hash slots later := by
  intro bucket
  rw [← placed_congr slots fun slot => relinked.slotHome slot] at chained
  rw [chained.chain_eq, placed, List.append_nil]

namespace Sorts

variable (sorts : Sorts hash slots later)

include sorts

/-- Sorting loses no slot. -/
theorem linked_iff (inside : ∀ slot ∈ slots, slot < later.keys.size) (slot : Nat) :
    later.Linked slot ↔ slot ∈ slots := by
  constructor
  · rintro ⟨bucket, member⟩
    rw [sorts bucket, List.mem_reverse] at member
    exact (List.mem_filter.mp member).1
  · intro member
    have below := inside slot member
    have there := Array.getElem?_eq_getElem below
    refine ⟨home hash later later.keys[slot], ?_⟩
    rw [sorts, List.mem_reverse]
    exact List.mem_filter.mpr ⟨member, decide_eq_true (slotHome_of there)⟩

/-- When buckets are split, a new chain is the part of one old chain that falls into its bucket, the
other way round. -/
theorem chain_eq_of_split (wellFormed : WellFormed hash old)
    (listed : slots = (List.range old.buckets.size).flatMap old.chain) (keys : later.keys = old.keys)
    {few many : Nat} (sizeOld : old.buckets.size = 2 ^ few) (size : later.buckets.size = 2 ^ many)
    (le : few ≤ many) (bucket : Nat) :
    later.chain bucket = ((old.chain (bucket % old.buckets.size)).filter
      fun slot => slotHome hash later slot = some bucket).reverse := by
  have positive : 0 < old.buckets.size := wellFormed.buckets_pos
  rw [sorts, listed, List.filter_flatMap, flatMap_range_eq (Nat.mod_lt bucket positive)]
  -- what falls into the bucket now stood in the bucket of its remainder before
  intro other different
  refine List.filter_eq_nil_iff.mpr fun slot member fallsHere => different ?_
  have before := wellFormed.slotHome_eq other slot member
  have after := of_decide_eq_true fallsHere
  rw [slotHome, Option.map_eq_some_iff] at before after
  obtain ⟨key, there, rfl⟩ := before
  obtain ⟨same, thereLater, rfl⟩ := after
  rw [keys, there, Option.some_inj] at thereLater
  rw [← thereLater, home, home, sizeOld, size, bucketOf_two_pow_mod hash key le]

end Sorts

/-! ### Rehashing and rebuilding -/

theorem Untangled.rehash (untangled : Untangled old) (hash : Key → UInt64) {buckets : Array Link}
    (positive : 0 < buckets.size) :
    ∃ later, HashChains.rehash hash old.buckets { old with buckets := buckets } = .ok () later ∧
      WellFormed hash later ∧
      Sorts hash ((List.range old.buckets.size).flatMap old.chain) later ∧
      later.keys = old.keys ∧ later.buckets.size = buckets.size ∧
      ∀ slot, ¬ old.Linked slot → later.next[slot]? = old.next[slot]? := by
  obtain ⟨later, run, relinked, chained⟩ :=
    @run_rehash Key hash { old with buckets := buckets } old.buckets old.chain positive
      untangled.size_next (fun slot member => untangled.linkable slot (mem_listed.mp member))
      untangled.leads untangled.distinct
  refine ⟨later, run, chained.wellFormed, sorts_of_placed relinked ?_, relinked.keys, ?_, ?_⟩
  · rw [placed_cleared]
    exact chained
  · rw [relinked.size_buckets]
    exact Array.size_replicate
  · intro slot unlinked
    exact relinked.next_other slot fun member => unlinked (mem_listed.mp member)

theorem rebuild_sorts {chains : HashChains Key} (hash : Key → UInt64)
    (positive : 0 < chains.buckets.size) (size_next : chains.keys.size ≤ chains.next.size)
    (linkable : ∀ slot ∈ slots, chains.Linkable slot) (distinct : slots.Nodup) :
    ∃ later, rebuild hash slots chains = .ok () later ∧ WellFormed hash later ∧
      Sorts hash slots later ∧ later.keys = chains.keys ∧
      later.buckets.size = chains.buckets.size ∧
      ∀ slot, slot ∉ slots → later.next[slot]? = chains.next[slot]? := by
  obtain ⟨later, run, relinked, chained⟩ :=
    @run_rebuild _ hash chains slots positive size_next linkable distinct
  refine ⟨later, run, chained.wellFormed, sorts_of_placed relinked ?_, relinked.keys, ?_,
    relinked.next_other⟩
  · rw [placed_cleared]
    exact chained
  · rw [relinked.size_buckets]
    exact Array.size_replicate

/-- Rehashing into any number of buckets, whatever they held before, leaves each bucket with the slots
of the old bucket order that fall into it, the other way round, and leaves the links of all other slots
alone. When a power of two of buckets becomes a larger one, each chain is a part of one old chain, the
other way round. Rebuilding does the same with listed slots that links can name, whatever was linked
before. -/
theorem rehashing_sorts_chains (hash : Key → UInt64) :
    (∀ (old : HashChains Key) (buckets : Array Link), Untangled old → 0 < buckets.size →
      ∃ slots later, old.linkedSlots = .ok slots ∧
        rehash hash old.buckets { old with buckets := buckets } = .ok () later ∧
        WellFormed hash later ∧
        (∀ bucket, later.chain bucket =
          (slots.filter fun slot => slotHome hash later slot = some bucket).reverse) ∧
        (∀ slot, later.Linked slot ↔ old.Linked slot) ∧
        later.keys = old.keys ∧ later.buckets.size = buckets.size ∧
        (∀ slot, ¬ old.Linked slot → later.next[slot]? = old.next[slot]?) ∧
        (WellFormed hash old → ∀ few many, old.buckets.size = 2 ^ few →
          buckets.size = 2 ^ many → few ≤ many →
          ∀ bucket, ∃ part : List Nat, part.Sublist (old.chain (bucket % old.buckets.size)) ∧
            later.chain bucket = part.reverse)) ∧
    ∀ (chains : HashChains Key) (slots : List Nat), 0 < chains.buckets.size →
      chains.keys.size ≤ chains.next.size → (∀ slot ∈ slots, slot < chains.keys.size) →
      (∀ slot ∈ slots, slot < Link.slotLimit) → slots.Nodup →
      ∃ later, rebuild hash slots chains = .ok () later ∧ WellFormed hash later ∧
        (∀ bucket, later.chain bucket =
          (slots.filter fun slot => slotHome hash later slot = some bucket).reverse) ∧
        (∀ slot, later.Linked slot ↔ slot ∈ slots) ∧
        later.keys = chains.keys ∧ later.buckets.size = chains.buckets.size ∧
        ∀ slot, slot ∉ slots → later.next[slot]? = chains.next[slot]? := by
  constructor
  · intro old buckets untangled positive
    obtain ⟨later, run, wellFormed, sorts, keys, sizes, others⟩ := untangled.rehash hash positive
    have inside (slot : Nat) (member : slot ∈ (List.range old.buckets.size).flatMap old.chain) :
        slot < later.keys.size := by
      rw [keys]
      exact (untangled.linkable slot (mem_listed.mp member)).1
    refine ⟨_, later, untangled.linkedSlots_eq, run, wellFormed, sorts,
      fun slot => (sorts.linked_iff inside slot).trans mem_listed, keys, sizes, others, ?_⟩
    intro wellFormedOld few many sizeOld size le bucket
    exact ⟨_, List.filter_sublist,
      sorts.chain_eq_of_split wellFormedOld rfl keys sizeOld (sizes.trans size) le bucket⟩
  · intro chains slots positive size_next inside named distinct
    have linkable (slot : Nat) (member : slot ∈ slots) : chains.Linkable slot :=
      ⟨inside slot member, named slot member⟩
    obtain ⟨later, run, wellFormed, sorts, keys, sizes, others⟩ :=
      rebuild_sorts hash positive size_next linkable distinct
    exact ⟨later, run, wellFormed, sorts, sorts.linked_iff (by rw [keys]; exact inside), keys, sizes,
      others⟩

/-- Five slots in two buckets. The last slot stands in no chain and has a link all the same. -/
def fiveSlots : HashChains Nat where
  keys := #[0, 4, 6, 3, 7]
  next := #[none, some 0, some 1, none, some 3]
  buckets := #[some 2, some 3]

theorem wellFormed_fiveSlots : WellFormed Nat.toUInt64 fiveSlots := by
  have chained : Chained Nat.toUInt64 fiveSlots
      (fun bucket => [[2, 1, 0], [3]][bucket]?.getD []) := {
    buckets_pos := by decide
    size_next := by decide
    leads := by
      rintro (_ | _ | bucket) head there
      · cases there
        simp [Link.Leads, fiveSlots]
      · cases there
        simp [Link.Leads, fiveSlots]
      · cases there
    slotHome_eq := by
      rintro (_ | _ | bucket) slot member
      · revert slot
        decide
      · revert slot
        decide
      · cases member }
  exact chained.wellFormed

/-- Two buckets become four, which held other links before: the even chain is split in two. The slot
that is in no chain keeps its link. Rebuilding links two slots of a table whose links are circular. -/
theorem even_chain_splits :
    (∃ later, rehash Nat.toUInt64 fiveSlots.buckets
        { fiveSlots with buckets := #[some 4, none, some 9, none] } = .ok () later ∧
      later.chain 0 = [0, 1] ∧ later.chain 2 = [2] ∧ later.next[4]? = some (some 3) ∧
      ∃ part : List Nat, part.Sublist (fiveSlots.chain 0) ∧ later.chain 2 = part.reverse) ∧
    ∃ later, rebuild Nat.toUInt64 [3, 4]
        { fiveSlots with next := #[some 0, some 1, some 2, some 3, some 4] } = .ok () later ∧
      later.chain 1 = [4, 3] ∧ later.next[0]? = some (some 0) := by
  obtain ⟨rehashes, rebuilds⟩ := rehashing_sorts_chains Nat.toUInt64
  have named (slot : Nat) (linked : fiveSlots.Linked slot) : slot < Link.slotLimit := by
    have listed : ∀ slot ∈ (List.range fiveSlots.buckets.size).flatMap fiveSlots.chain,
        slot < Link.slotLimit := by decide
    exact listed slot (mem_listed.mpr linked)
  constructor
  · obtain ⟨slots, later, listed, run, -, sorted, -, keys, -, others, split⟩ :=
      rehashes fiveSlots #[some 4, none, some 9, none] (wellFormed_fiveSlots.untangled named)
        (by decide)
    have free : ¬ fiveSlots.Linked 4 := fun linked => absurd (mem_listed.mpr linked) (by decide)
    have chains : later.chain 0 = [0, 1] ∧ later.chain 2 = [2] := by
      cases run
      exact ⟨rfl, rfl⟩
    exact ⟨later, run, chains.1, chains.2, others 4 free,
      split wellFormed_fiveSlots 1 2 rfl rfl (by decide) 2⟩
  · obtain ⟨later, run, -, sorted, -, keys, -, others⟩ :=
      rebuilds { fiveSlots with next := #[some 0, some 1, some 2, some 3, some 4] } [3, 4]
        (by decide) (Nat.le_refl 5) (by decide) (by decide) (by decide)
    refine ⟨later, run, ?_, others 0 (by decide)⟩
    cases run
    rfl

/-- A single slot without a name is not rebuilt. -/
theorem overfull_slot_not_rebuilt :
    0 < overfull.buckets.size ∧ overfull.keys.size = overfull.next.size ∧
      Link.slotLimit < overfull.keys.size ∧
      ∃ later, rebuild Nat.toUInt64 [Link.slotLimit] overfull = .ok () later ∧
        ¬ WellFormed Nat.toUInt64 later ∧
        later.find Nat.toUInt64 0 = .error (.fault .outOfRange) := by
  have positive : 0 < overfull.buckets.size := Nat.one_pos
  have inside : Link.slotLimit < overfull.keys.size := size_overfull.1 ▸ Nat.lt_succ_self _
  have insideNext : Link.slotLimit < overfull.cleared.next.size :=
    size_overfull.2 ▸ Nat.lt_succ_self _
  have positiveCleared : 0 < overfull.cleared.buckets.size := Nat.one_pos
  have there : overfull.cleared.keys[Link.slotLimit]? = some 0 := by
    rw [cleared, overfull, blank, Array.getElem?_replicate, if_pos (Nat.lt_succ_self _)]
  obtain ⟨later, run, failed⟩ :=
    @link_unnamed _ Nat.toUInt64 _ _ _ positiveCleared there insideNext small_overfull
  have linked :
      [Link.slotLimit].forM (link Nat.toUInt64) overfull.cleared = .ok () later := by
    rw [Edit.run_forM_cons, run]
    rfl
  refine ⟨positive, size_overfull.1.trans size_overfull.2.symm, inside, later, ?_,
    not_wellFormed_of_find failed, failed⟩
  simp only [rebuild, clearBuckets, Edit.run_bind, Edit.run_modify]
  exact linked

end HashChains

end PackedStore
