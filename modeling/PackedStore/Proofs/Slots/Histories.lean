/-
This file says what the chains of a hash table mean, apart from any container. A
table is well formed when its buckets lead through disjoint chains of slots whose
keys fall into them. Linking puts a slot in front of one chain and unlinking takes
it out of one, whatever the hash and however many buckets there are. After any
changes to an empty table, its chains are the links that still stand, each bucket
with its own, the one made last in front; so a search by key is a search through
the standing links.
-/

import Mathlib.Data.List.Find
import PackedStore.Proofs.Slots.Rebuilding

namespace PackedStore.HashChains

variable {Key : Type} {hash : Key → UInt64} {chains : HashChains Key} {order : Nat → List Nat}
  {slot : Nat}

/-! ### Well-formed tables -/

/-- The slots of a bucket's chain, in order. -/
def chain (chains : HashChains Key) (bucket : Nat) : List Nat :=
  (chains.buckets[bucket]?.bind fun (head : Link) => (Link.walk chains.next head).toOption).getD []

/-- A slot stands in one of the chains. -/
def Linked (chains : HashChains Key) (slot : Nat) : Prop :=
  ∃ bucket, slot ∈ chains.chain bucket

/-- Following the links from every bucket comes to an end, on the way there are only slots of the
table whose keys fall into the bucket, and no slot occurs twice. -/
structure WellFormed (hash : Key → UInt64) (chains : HashChains Key) : Prop where
  buckets_pos : 0 < chains.buckets.size
  size_next : chains.keys.size ≤ chains.next.size
  ends : ∀ (bucket : Nat) (head : Link), chains.buckets[bucket]? = some head →
    ∃ slots, Link.Leads chains.next head slots
  slotHome_eq : ∀ bucket, ∀ slot ∈ chains.chain bucket, slotHome hash chains slot = some bucket
  distinct : ((List.range chains.buckets.size).flatMap chains.chain).Nodup

theorem chain_of_leads {bucket : Nat} {head : Link} {slots : List Nat}
    (there : chains.buckets[bucket]? = some head) (leads : Link.Leads chains.next head slots) :
    chains.chain bucket = slots := by
  rw [chain, there, Option.bind_some, Link.walk_of_leads leads]
  rfl

/-- A table is chained in one order only, that of its chains. -/
theorem Chained.chain_eq (chained : Chained hash chains order) : chains.chain = order := by
  funext bucket
  by_cases inside : bucket < chains.buckets.size
  · have there := Array.getElem?_eq_getElem inside
    exact chain_of_leads there (chained.leads bucket _ there)
  · have empty : order bucket = [] :=
      List.eq_nil_iff_forall_not_mem.mpr fun slot member => inside (chained.bucket_lt member)
    rw [chain, Array.getElem?_eq_none (Nat.le_of_not_lt inside), empty]
    rfl

theorem wellFormed_iff : WellFormed hash chains ↔ Chained hash chains chains.chain := by
  constructor
  · intro wellFormed
    refine ⟨wellFormed.buckets_pos, wellFormed.size_next, ?_, wellFormed.slotHome_eq⟩
    intro bucket head there
    obtain ⟨slots, leads⟩ := wellFormed.ends bucket head there
    rwa [chain_of_leads there leads]
  · intro chained
    have distinct := chained.distinct_range 0 chains.buckets.size
    rw [← List.range_eq_range'] at distinct
    exact ⟨chained.buckets_pos, chained.size_next,
      fun bucket head there => ⟨_, chained.leads bucket head there⟩, chained.slotHome_eq, distinct⟩

theorem Chained.wellFormed (chained : Chained hash chains order) : WellFormed hash chains := by
  refine wellFormed_iff.mpr ?_
  rw [chained.chain_eq]
  exact chained

/-! ### One change -/

/-- A search through a chain without the slot comes to its end and changes nothing. -/
theorem unlinkWithin_absent {bucket fuel : Nat} {previous : Option Nat} {current : Link}
    {slots : List Nat} (leads : Link.Leads chains.next current slots) (absent : slot ∉ slots)
    (enough : slots.length ≤ fuel) :
    unlinkWithin slot bucket fuel previous current chains = .ok false chains := by
  induction slots generalizing previous current fuel with
  | nil =>
    rw [Link.leads_nil] at leads
    subst leads
    cases fuel <;> rfl
  | cons head rest inductionHypothesis =>
    obtain ⟨rfl, successor, there, leadsRest⟩ := leads
    rw [List.mem_cons, not_or] at absent
    cases fuel with
    | zero => simp at enough
    | succ fuel =>
      have onward : unlinkWithin slot bucket fuel (some head) successor chains = .ok false chains :=
        inductionHypothesis leadsRest absent.2 (Nat.le_of_succ_le_succ enough)
      simp only [unlinkWithin, Edit.run_bind, Edit.run_get, fetch_of there, Edit.run_lift_ok,
        if_neg (Ne.symm absent.1), onward]

theorem Chained.unlink_absent (chained : Chained hash chains order)
    (inside : slot < chains.keys.size) (absent : ∀ bucket, slot ∉ order bucket) :
    unlink hash slot chains = .ok false chains := by
  have thereKey := Array.getElem?_eq_getElem inside
  obtain ⟨head, -, thereHead⟩ := chainHead_of hash chained.buckets_pos chains.keys[slot]
  have leads := chained.leads _ head thereHead
  rw [home] at thereHead
  simp only [unlink, bucket, Edit.run_bind, Edit.run_get, fetch_of thereKey, Edit.run_lift_ok,
    require_of chained.buckets_pos, Checked.bind_ok, pure, Except.pure, fetch_of thereHead]
  exact unlinkWithin_absent leads (absent _) leads.length_le

/-- Unlinking a linked slot keeps its link and all keys. -/
theorem Chained.unlink_present (chained : Chained hash chains order) {bucket : Nat}
    (member : slot ∈ order bucket) :
    ∃ later, unlink hash slot chains = .ok true later ∧
      Chained hash later (leave order bucket slot) ∧ later.keys = chains.keys ∧
      later.buckets.size = chains.buckets.size ∧ later.next[slot]? = chains.next[slot]? := by
  obtain ⟨passed, after, split⟩ := List.append_of_mem member
  have there := Array.getElem?_eq_getElem (chained.mem_lt member)
  refine ⟨_, chained.run_unlink split there, chained.bypass split there, bypass_keys _ _ _,
    size_bypass_buckets _ _ _, bypass_next_of_ne fun previous last same => ?_⟩
  -- the slot does not stand before itself
  have distinct := chained.nodup bucket
  rw [split, List.nodup_append] at distinct
  exact distinct.2.2 previous (List.mem_of_getLast? last) slot List.mem_cons_self same

theorem Chained.insert_unlinked (chained : Chained hash chains order)
    (linkable : chains.Linkable slot) (unlinked : ∀ bucket, slot ∉ order bucket) (key : Key) :
    ∃ later, HashChains.insert hash slot key chains = .ok () later ∧
      Chained hash later (enter order (home hash chains key) slot) ∧
      later.keys = chains.keys.setIfInBounds slot key ∧
      later.buckets.size = chains.buckets.size :=
  have inside : slot < chains.next.size := Nat.lt_of_lt_of_le linkable.1 chained.size_next
  ⟨_, run_insert chained.buckets_pos linkable.1 inside linkable.2 key,
    chained.insert linkable.1 unlinked key, front_keys _ _, size_front_buckets _ _⟩

/-- A slot that leaves its bucket is left out everywhere. -/
theorem Chained.leave_eq (chained : Chained hash chains order) {bucket : Nat}
    (member : slot ∈ order bucket) :
    leave order bucket slot = fun position => (order position).filter (· ≠ slot) := by
  funext position
  by_cases same : position = bucket
  · subst same
    rw [leave, Function.update_self, (chained.nodup position).erase_eq_filter]
    exact List.filter_congr fun other _ => by rw [bne, decide_not]; rfl
  · rw [leave, Function.update_of_ne same, eq_comm, List.filter_eq_self]
    intro other inPosition
    have different : other ≠ slot := fun equal =>
      same (chained.bucket_unique inPosition (equal ▸ member))
    simpa using different

theorem not_mem_chain (absent : ¬ chains.Linked slot) (bucket : Nat) :
    slot ∉ chains.chain bucket := fun member => absent ⟨bucket, member⟩

namespace WellFormed

/-- Inserting a slot that is not linked gives it the key and puts it in front of the key's
bucket. -/
theorem insert (wellFormed : WellFormed hash chains) (linkable : chains.Linkable slot)
    (absent : ¬ chains.Linked slot) (key : Key) :
    ∃ later, HashChains.insert hash slot key chains = .ok () later ∧ WellFormed hash later ∧
      later.chain = enter chains.chain (home hash chains key) slot ∧
      later.keys = chains.keys.setIfInBounds slot key := by
  obtain ⟨later, run, chained, keys, -⟩ :=
    (wellFormed_iff.mp wellFormed).insert_unlinked linkable (not_mem_chain absent) key
  exact ⟨later, run, chained.wellFormed, chained.chain_eq, keys⟩

/-- Unlinking takes out the slot and nothing else, and changes nothing when it is not linked. -/
theorem unlink (wellFormed : WellFormed hash chains) (inside : slot < chains.keys.size) :
    ∃ found later, HashChains.unlink hash slot chains = .ok found later ∧
      (found = true ↔ chains.Linked slot) ∧ WellFormed hash later ∧
      later.chain = (fun bucket => (chains.chain bucket).filter (· ≠ slot)) ∧
      later.keys = chains.keys ∧ later.next[slot]? = chains.next[slot]? ∧
      (found = false → later = chains) := by
  have chained := wellFormed_iff.mp wellFormed
  by_cases present : chains.Linked slot
  · obtain ⟨bucket, member⟩ := present
    obtain ⟨later, run, chainedLater, keys, -, next⟩ := chained.unlink_present member
    refine ⟨true, later, run, by simpa using ⟨bucket, member⟩, chainedLater.wellFormed, ?_, keys,
      next, by simp⟩
    rw [chainedLater.chain_eq, chained.leave_eq member]
  · refine ⟨false, chains, chained.unlink_absent inside (not_mem_chain present), by simpa using present,
      wellFormed, ?_, rfl, rfl, fun _ => rfl⟩
    funext bucket
    rw [eq_comm, List.filter_eq_self]
    intro other member
    have different : other ≠ slot := fun same => not_mem_chain present bucket (same ▸ member)
    simpa using different

/-- Going through the buckets lists each linked slot once. -/
theorem linkedSlots (wellFormed : WellFormed hash chains) :
    ∃ slots, chains.linkedSlots = .ok slots ∧ slots.Nodup ∧
      ∀ slot, slot ∈ slots ↔ chains.Linked slot := by
  have chained := wellFormed_iff.mp wellFormed
  refine ⟨_, chained.linkedSlots_eq, wellFormed.distinct, fun slot => ?_⟩
  simp only [List.mem_flatMap, List.mem_range]
  exact ⟨fun ⟨bucket, _, member⟩ => ⟨bucket, member⟩,
    fun ⟨bucket, member⟩ => ⟨bucket, chained.bucket_lt member, member⟩⟩

end WellFormed

/-! ### Standing links -/

/-- A change of a table: an unlinked slot gets a key and is linked, or a slot is taken out. -/
inductive Change (Key : Type) where
  | insert (slot : Nat) (key : Key)
  | unlink (slot : Nat)

namespace Change

/-- Makes the change in a table. -/
def run (hash : Key → UInt64) : Change Key → Edit (HashChains Key) Unit
  | .insert slot key => HashChains.insert hash slot key
  | .unlink slot => discard (HashChains.unlink hash slot)

/-- The slots and keys of the links that stand after a change, the one made last in front. -/
def standing : Change Key → List (Nat × Key) → List (Nat × Key)
  | .insert slot key, links => (slot, key) :: links
  | .unlink slot, links => links.filter fun link => link.1 ≠ slot

/-- A change is about a slot of the table, and only a slot that links can name and that is not
linked is linked. -/
def Allowed (capacity : Nat) : Change Key → List (Nat × Key) → Prop
  | .insert slot _, links =>
    slot < capacity ∧ slot < Link.slotLimit ∧ slot ∉ links.map Prod.fst
  | .unlink slot, _ => slot < capacity

/-- The links that stand after changes one after another. -/
def standingAfter (changes : List (Change Key)) (links : List (Nat × Key)) : List (Nat × Key) :=
  changes.foldl (fun links change => change.standing links) links

/-- Each change is allowed when it comes. -/
def AllAllowed (capacity : Nat) : List (Change Key) → List (Nat × Key) → Prop
  | [], _ => True
  | change :: rest, links =>
    change.Allowed capacity links ∧ AllAllowed capacity rest (change.standing links)

end Change

/-- The slots of the links whose keys fall into a bucket. -/
def shelf (hash : Key → UInt64) (chains : HashChains Key) (links : List (Nat × Key))
    (bucket : Nat) : List Nat :=
  (links.filter fun link => home hash chains link.2 = bucket).map Prod.fst

/-- The chains of a table are its standing links, and each linked slot has the key that it was
linked with. -/
structure Standing (hash : Key → UInt64) (chains : HashChains Key) (links : List (Nat × Key)) :
    Prop where
  chained : Chained hash chains (shelf hash chains links)
  keys : ∀ link ∈ links, chains.keys[link.1]? = some link.2
  distinct : (links.map Prod.fst).Nodup

theorem mem_shelf {links : List (Nat × Key)} :
    (∃ bucket, slot ∈ shelf hash chains links bucket) ↔ slot ∈ links.map Prod.fst := by
  simp [shelf]

theorem not_mem_shelf {links : List (Nat × Key)} (absent : slot ∉ links.map Prod.fst)
    (bucket : Nat) : slot ∉ shelf hash chains links bucket := fun member =>
  absent (mem_shelf.mp ⟨bucket, member⟩)

theorem shelf_congr {later : HashChains Key} (sizes : later.buckets.size = chains.buckets.size)
    (links : List (Nat × Key)) : shelf hash later links = shelf hash chains links := by
  funext bucket
  rw [shelf, shelf, home_congr sizes]

theorem shelf_insert (links : List (Nat × Key)) (key : Key) :
    shelf hash chains ((slot, key) :: links) =
      enter (shelf hash chains links) (home hash chains key) slot := by
  funext bucket
  by_cases here : bucket = home hash chains key
  · subst here
    simp [shelf, enter]
  · have elsewhere : home hash chains key ≠ bucket := fun same => here same.symm
    simp [shelf, enter, here, elsewhere]

theorem shelf_unlink (links : List (Nat × Key)) :
    shelf hash chains (links.filter fun link => link.1 ≠ slot) =
      fun bucket => (shelf hash chains links bucket).filter (· ≠ slot) := by
  funext bucket
  rw [shelf, shelf, List.filter_map, List.filter_filter, List.filter_filter]
  simp only [Function.comp_def, Bool.and_comm]

/-- An empty table stands for no links, whatever its slots hold. -/
theorem standing_empty {keys : Array Key} {next : Array Link} {count : Nat} (positive : 0 < count)
    (size_next : keys.size ≤ next.size) :
    Standing hash { keys, next, buckets := Array.replicate count none } [] :=
  ⟨chained_empty positive size_next, by simp, List.nodup_nil⟩

namespace Standing

variable {links : List (Nat × Key)}

theorem insert (standing : Standing hash chains links) (linkable : chains.Linkable slot)
    (absent : slot ∉ links.map Prod.fst) (key : Key) :
    ∃ later, HashChains.insert hash slot key chains = .ok () later ∧
      Standing hash later ((slot, key) :: links) ∧ later.keys.size = chains.keys.size := by
  obtain ⟨later, run, chained, keys, sizes⟩ :=
    standing.chained.insert_unlinked linkable (not_mem_shelf absent) key
  refine ⟨later, run, ⟨?_, ?_, ?_⟩, by simp [keys]⟩
  · rw [shelf_congr sizes, shelf_insert]
    exact chained
  · intro link member
    rw [keys]
    rcases List.mem_cons.mp member with rfl | old
    · exact Array.getElem?_setIfInBounds_self_of_lt linkable.1
    · have different : slot ≠ link.1 := fun same => absent (same ▸ List.mem_map_of_mem old)
      rw [Array.getElem?_setIfInBounds_ne different]
      exact standing.keys link old
  · exact List.nodup_cons.mpr ⟨absent, standing.distinct⟩

theorem unlink (standing : Standing hash chains links) (inside : slot < chains.keys.size) :
    ∃ later, HashChains.unlink hash slot chains = .ok (decide (slot ∈ links.map Prod.fst)) later ∧
      Standing hash later (links.filter fun link => link.1 ≠ slot) ∧
      later.keys.size = chains.keys.size := by
  by_cases present : slot ∈ links.map Prod.fst
  · obtain ⟨bucket, member⟩ := mem_shelf.mpr present
    obtain ⟨later, run, chained, keys, sizes, -⟩ := standing.chained.unlink_present member
    refine ⟨later, by rw [run, decide_eq_true present], ⟨?_, ?_, ?_⟩, by rw [keys]⟩
    · rw [shelf_congr sizes, shelf_unlink, ← standing.chained.leave_eq member]
      exact chained
    · intro link member
      rw [keys]
      exact standing.keys link (List.mem_filter.mp member).1
    · exact standing.distinct.sublist (List.filter_sublist.map Prod.fst)
  · have same : (links.filter fun link => link.1 ≠ slot) = links := by
      rw [List.filter_eq_self]
      intro link member
      have different : link.1 ≠ slot := fun equal => present (equal ▸ List.mem_map_of_mem member)
      simpa using different
    rw [decide_eq_false present, same]
    exact ⟨chains, standing.chained.unlink_absent inside (not_mem_shelf present), standing, rfl⟩

/-- One allowed change succeeds and leaves the chains of the links that stand then. -/
theorem step (standing : Standing hash chains links) {change : Change Key}
    (allowed : change.Allowed chains.keys.size links) :
    ∃ later, change.run hash chains = .ok () later ∧
      Standing hash later (change.standing links) ∧ later.keys.size = chains.keys.size := by
  cases change with
  | insert slot key => exact standing.insert ⟨allowed.1, allowed.2.1⟩ allowed.2.2 key
  | unlink slot =>
    obtain ⟨later, run, standsLater, sizes⟩ := standing.unlink allowed
    exact ⟨later, by rw [Change.run, Edit.run_discard, run], standsLater, sizes⟩

/-- The standing links account for a table after any number of changes. -/
theorem run (standing : Standing hash chains links) {changes : List (Change Key)}
    (allowed : Change.AllAllowed chains.keys.size changes links) :
    ∃ later, changes.forM (Change.run hash) chains = .ok () later ∧
      Standing hash later (Change.standingAfter changes links) := by
  induction changes generalizing chains links with
  | nil => exact ⟨chains, rfl, standing⟩
  | cons change rest inductionHypothesis =>
    obtain ⟨between, runFirst, standsBetween, sizes⟩ := standing.step allowed.1
    obtain ⟨later, runRest, standsLater⟩ :=
      inductionHypothesis standsBetween (sizes ▸ allowed.2)
    exact ⟨later, by rw [Edit.run_forM_cons, runFirst]; exact runRest, standsLater⟩

section

variable [DecidableEq Key]

/-- In the bucket of a key, the slots with the key are those that were linked with it. -/
theorem sought_iff (standing : Standing hash chains links) (key : Key) :
    ∀ link ∈ links,
      (decide (home hash chains link.2 = home hash chains key) && chains.hasKey key link.1) =
        decide (link.2 = key) := by
  intro link member
  rw [hasKey, standing.keys link member, ← Bool.decide_and, decide_eq_decide, Option.some_inj]
  exact ⟨And.right, fun same => ⟨congrArg (home hash chains) same, same⟩⟩

/-- A search finds the slot that was linked last among those with the key. -/
theorem find_eq (standing : Standing hash chains links) (key : Key) :
    chains.find hash key = .ok ((links.find? fun link => link.2 = key).map Prod.fst) := by
  rw [standing.chained.find_eq, shelf, List.find?_map, List.find?_filter]
  have same := List.find?_congr (standing.sought_iff key)
  rw [← same]
  simp only [Function.comp_def, Bool.decide_and, Bool.decide_eq_true]

/-- All matches of a key are the slots that were linked with it, the last one in front. -/
theorem allMatches_eq (standing : Standing hash chains links) (key : Key) :
    chains.allMatches hash key = .ok ((links.filter fun link => link.2 = key).map Prod.fst) := by
  rw [standing.chained.allMatches_eq, shelf, List.filter_map, List.filter_filter]
  have same := List.filter_congr (standing.sought_iff key)
  rw [← same]
  simp only [Function.comp_def, Bool.and_comm]

/-- Behind a match, the next search finds the match that was linked before it. -/
theorem findAfter_eq (standing : Standing hash chains links) {key : Key} {before after : List Nat}
    (split : (links.filter fun link => link.2 = key).map Prod.fst = before ++ slot :: after) :
    chains.findAfter slot key = .ok after.head? := by
  have found := (standing.chained.allMatches_eq key).symm.trans (standing.allMatches_eq key)
  rw [Except.ok.injEq, split, List.filter_eq_append_iff] at found
  obtain ⟨front, back, whole, -, matchesBack⟩ := found
  obtain ⟨passed, rest, splitBack, -, -, matchesRest⟩ := List.filter_eq_cons_iff.mp matchesBack
  rw [splitBack, ← List.append_assoc] at whole
  rw [standing.chained.findAfter_eq whole, ← matchesRest, List.head?_filter]

end

end Standing

/-! ### What the chains mean -/

/-- Whatever the hash and the number of buckets: linking puts a slot that links can name in front of
one chain, unlinking takes it out of the chain that holds it, the buckets list each linked slot once,
and after any changes to an empty table a search by key goes through the slots that were linked with
the key and still are, the one linked last in front. -/
theorem chains_are_lists [DecidableEq Key] (hash : Key → UInt64) :
    (∀ (chains : HashChains Key) slot key, WellFormed hash chains → slot < chains.keys.size →
      slot < Link.slotLimit → ¬ chains.Linked slot →
      ∃ later, HashChains.insert hash slot key chains = .ok () later ∧ WellFormed hash later ∧
        later.chain = enter chains.chain (home hash chains key) slot ∧
        later.keys = chains.keys.setIfInBounds slot key) ∧
    (∀ (chains : HashChains Key) slot, WellFormed hash chains → slot < chains.keys.size →
      ∃ found later, HashChains.unlink hash slot chains = .ok found later ∧
        (found = true ↔ chains.Linked slot) ∧ WellFormed hash later ∧
        later.chain = (fun bucket => (chains.chain bucket).filter (· ≠ slot)) ∧
        later.keys = chains.keys ∧ later.next[slot]? = chains.next[slot]? ∧
        (found = false → later = chains)) ∧
    (∀ chains : HashChains Key, WellFormed hash chains →
      ∃ slots, chains.linkedSlots = .ok slots ∧ slots.Nodup ∧
        ∀ slot, slot ∈ slots ↔ chains.Linked slot) ∧
    ∀ (keys : Array Key) (next : Array Link) count changes, 0 < count → keys.size ≤ next.size →
      Change.AllAllowed keys.size changes [] →
      ∃ later, changes.forM (Change.run hash)
          { keys, next, buckets := Array.replicate count none } = .ok () later ∧
        WellFormed hash later ∧
        (∀ slot, later.Linked slot ↔ slot ∈ (Change.standingAfter changes []).map Prod.fst) ∧
        (∀ link ∈ Change.standingAfter changes [], later.keys[link.1]? = some link.2) ∧
        ∀ key,
          later.find hash key = .ok
            (((Change.standingAfter changes []).find? fun link => link.2 = key).map Prod.fst) ∧
          later.allMatches hash key = .ok
            (((Change.standingAfter changes []).filter fun link => link.2 = key).map Prod.fst) ∧
          ∀ before slot after,
            ((Change.standingAfter changes []).filter fun link => link.2 = key).map Prod.fst =
              before ++ slot :: after →
            later.findAfter slot key = .ok after.head? := by
  refine ⟨fun chains slot key wellFormed inside named absent =>
      wellFormed.insert ⟨inside, named⟩ absent key,
    fun chains slot wellFormed inside => wellFormed.unlink inside,
    fun chains wellFormed => wellFormed.linkedSlots, ?_⟩
  intro keys next count changes positive size_next allowed
  obtain ⟨later, run, standing⟩ := (standing_empty positive size_next).run allowed
  refine ⟨later, run, standing.chained.wellFormed, fun slot => ?_, standing.keys, fun key =>
    ⟨standing.find_eq key, standing.allMatches_eq key, fun before slot after split =>
      standing.findAfter_eq split⟩⟩
  rw [Linked, standing.chained.chain_eq]
  exact mem_shelf

/-- In two buckets, three of four slots are linked under the key seven. One of them is taken out,
and not taken out again. -/
theorem sevens_are_lists :
    (∃ later, HashChains.insert Nat.toUInt64 1 7 (blank 0 4 2) = .ok () later ∧
      later.chain 1 = [1]) ∧
    (∃ later, HashChains.unlink Nat.toUInt64 1 (blank 0 4 2) = .ok false later ∧
      later = blank 0 4 2) ∧
    ∃ later, [Change.insert 0 7, .insert 1 8, .insert 2 7, .insert 3 7, .unlink 2, .unlink 2].forM
        (Change.run Nat.toUInt64) (blank 0 4 2) = .ok () later ∧
      (∃ slots, later.linkedSlots = .ok slots ∧ slots.Nodup ∧
        ∀ slot, slot ∈ slots ↔ slot ∈ [3, 1, 0]) ∧
      later.find Nat.toUInt64 7 = .ok (some 3) ∧ later.allMatches Nat.toUInt64 7 = .ok [3, 0] ∧
      later.findAfter 3 7 = .ok (some 0) := by
  obtain ⟨inserts, unlinks, listed, runs⟩ := chains_are_lists Nat.toUInt64
  have standing : Standing Nat.toUInt64 (blank 0 4 2) [] := standing_empty (by decide) (Nat.le_refl 4)
  have empty : WellFormed Nat.toUInt64 (blank 0 4 2) := standing.chained.wellFormed
  have vacant : ¬ (blank 0 4 2).Linked 1 := by
    rintro ⟨bucket, member⟩
    rw [standing.chained.chain_eq] at member
    exact absurd member (by simp [shelf])
  refine ⟨?_, ?_, ?_⟩
  · obtain ⟨later, run, -, chain, -⟩ := inserts (blank 0 4 2) 1 7 empty (by decide) (by decide) vacant
    exact ⟨later, run, by rw [chain]; decide⟩
  · obtain ⟨found, later, run, present, -, -, -, -, same⟩ :=
      unlinks (blank 0 4 2) 1 empty (by decide)
    obtain rfl : found = false := Bool.eq_false_iff.mpr fun yes => vacant (present.mp yes)
    exact ⟨later, run, same rfl⟩
  · obtain ⟨later, run, wellFormed, linked, -, searches⟩ := runs (Array.replicate 4 0)
      (Array.replicate 4 none) 2
      [.insert 0 7, .insert 1 8, .insert 2 7, .insert 3 7, .unlink 2, .unlink 2] (by decide)
      (Nat.le_refl 4)
      (by simp [Change.AllAllowed, Change.Allowed, Change.standing, Link.slotLimit])
    obtain ⟨found, sevens, behind⟩ := searches 7
    obtain ⟨slots, isList, distinct, members⟩ := listed later wellFormed
    exact ⟨later, run,
      ⟨slots, isList, distinct, fun slot => (members slot).trans (linked slot)⟩, found, sevens,
      behind [] 3 [0] (by decide)⟩

/-! ### Slots without a name -/

/-- A search that starts with the word of the first slot without a name leaves the table. -/
theorem find_unnamed [DecidableEq Key] {key : Key}
    (head : chains.buckets[home hash chains key]? = some (some (2 ^ 64 - 2 ^ 31)))
    (nonempty : 0 < chains.next.size) (small : chains.keys.size ≤ 2 ^ 64 - 2 ^ 31) :
    chains.find hash key = .error (.fault .outOfRange) := by
  have positive : 0 < chains.buckets.size :=
    Nat.lt_of_le_of_lt (Nat.zero_le _) (Array.getElem?_eq_some_iff.mp head).1
  obtain ⟨first, isHead, there⟩ := chainHead_of hash positive key
  obtain rfl : first = some (2 ^ 64 - 2 ^ 31) := Option.some.inj (there.symm.trans head)
  obtain ⟨fuel, enough⟩ := Nat.exists_eq_add_one_of_ne_zero (Nat.ne_of_gt nonempty)
  have missing : fetch chains.keys (2 ^ 64 - 2 ^ 31) = .error (.fault .outOfRange) := by
    rw [fetch, Array.getElem?_eq_none small]
    rfl
  rw [find, isHead, Checked.bind_ok, seek, enough, seekWithin, missing]
  rfl

/-- A table in which the word of that slot starts the chain of a key cannot be searched for it. -/
theorem find_set_unnamed [DecidableEq Key] {keys : Array Key} {next : Array Link} {key : Key}
    (positive : 0 < chains.buckets.size) (nonempty : 0 < next.size)
    (small : keys.size ≤ 2 ^ 64 - 2 ^ 31) :
    find hash ⟨keys, next, chains.buckets.setIfInBounds (home hash chains key)
      (Link.ofSlot Link.slotLimit)⟩ key = .error (.fault .outOfRange) := by
  refine find_unnamed ?_ nonempty small
  refine Eq.trans (congrArg _ (congrFun (home_congr ?_) key))
    ((Array.getElem?_setIfInBounds_self_of_lt (home_lt positive key)).trans
      (congrArg some Link.ofSlot_slotLimit))
  exact Array.size_setIfInBounds

/-- Linking the slot makes the bucket of its key unsearchable. -/
theorem link_unnamed [DecidableEq Key] {key : Key} (positive : 0 < chains.buckets.size)
    (there : chains.keys[Link.slotLimit]? = some key) (inside : Link.slotLimit < chains.next.size)
    (small : chains.keys.size ≤ 2 ^ 64 - 2 ^ 31) :
    ∃ later, link hash Link.slotLimit chains = .ok () later ∧
      later.find hash key = .error (.fault .outOfRange) := by
  refine ⟨_, run_link_word positive there inside, find_set_unnamed positive ?_ small⟩
  rw [Array.size_setIfInBounds]
  exact Nat.lt_of_le_of_lt (Nat.zero_le _) inside

theorem insert_unnamed [DecidableEq Key] (positive : 0 < chains.buckets.size)
    (inside : Link.slotLimit < chains.keys.size) (insideNext : Link.slotLimit < chains.next.size)
    (small : chains.keys.size ≤ 2 ^ 64 - 2 ^ 31) (key : Key) :
    ∃ later, insert hash Link.slotLimit key chains = .ok () later ∧
      later.find hash key = .error (.fault .outOfRange) := by
  refine ⟨_, run_insert_word positive inside insideNext key, find_set_unnamed positive ?_ ?_⟩
  · rw [Array.size_setIfInBounds]
    exact Nat.lt_of_le_of_lt (Nat.zero_le _) insideNext
  · rw [Array.size_setIfInBounds]
    exact small

/-- A table that cannot be searched is not well formed. -/
theorem not_wellFormed_of_find [DecidableEq Key] {key : Key} {failure : Failure}
    (failed : chains.find hash key = .error failure) : ¬ WellFormed hash chains := by
  intro wellFormed
  rw [(wellFormed_iff.mp wellFormed).find_eq] at failed
  cases failed

/-- A table with one slot more than links can name, none of which is linked. -/
def overfull : HashChains Nat :=
  blank 0 (Link.slotLimit + 1) 1

theorem size_overfull : overfull.keys.size = Link.slotLimit + 1 ∧
    overfull.next.size = Link.slotLimit + 1 :=
  ⟨Array.size_replicate, Array.size_replicate⟩

theorem small_overfull : overfull.keys.size ≤ 2 ^ 64 - 2 ^ 31 := by
  rw [size_overfull.1]
  decide

theorem chained_overfull (hash : Nat → UInt64) : Chained hash overfull fun _ => [] :=
  chained_empty Nat.one_pos (Nat.le_of_eq (size_overfull.1.trans size_overfull.2.symm))

/-- The last slot is put where no search finds it. -/
theorem overfull_slot_unfindable :
    WellFormed Nat.toUInt64 overfull ∧ Link.slotLimit < overfull.keys.size ∧
      ¬ overfull.Linked Link.slotLimit ∧
      ∃ later, insert Nat.toUInt64 Link.slotLimit 7 overfull = .ok () later ∧
        ¬ WellFormed Nat.toUInt64 later ∧
        later.find Nat.toUInt64 7 = .error (.fault .outOfRange) := by
  have chained := chained_overfull Nat.toUInt64
  have inside : Link.slotLimit < overfull.keys.size := size_overfull.1 ▸ Nat.lt_succ_self _
  have insideNext : Link.slotLimit < overfull.next.size := size_overfull.2 ▸ Nat.lt_succ_self _
  have vacant : ¬ overfull.Linked Link.slotLimit := by
    rintro ⟨bucket, member⟩
    rw [chained.chain_eq] at member
    exact absurd member List.not_mem_nil
  obtain ⟨later, run, failed⟩ :=
    @insert_unnamed _ Nat.toUInt64 _ _ chained.buckets_pos inside insideNext small_overfull 7
  exact ⟨chained.wellFormed, inside, vacant, later, run, not_wellFormed_of_find failed, failed⟩

end PackedStore.HashChains
