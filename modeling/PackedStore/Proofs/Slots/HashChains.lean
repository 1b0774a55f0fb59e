/-
This file gives hash tables over slots their meaning as lists of slots, one per
bucket, and says what each operation does to the lists. A table is chained in an
order when each bucket leads through its list and holds only slots whose keys
fall into it. Linking puts a slot in front of the list of its key, unlinking takes
it out and keeps the others in order, and building anew sorts a list of slots
into the buckets, the last one in front.
-/

import Mathlib.Logic.Function.Basic
import PackedStore.Proofs.Slots.Chain
import PackedStore.Slots.HashChains

namespace PackedStore

theorem bucketOf_lt {Key : Type} (hash : Key → UInt64) (key : Key) {count : Nat}
    (positive : 0 < count) : bucketOf hash key (count - 1) < count := by
  have bound : bucketOf hash key (count - 1) ≤ count - 1 := Nat.and_le_right
  omega

namespace HashChains

variable {Key : Type} {hash : Key → UInt64} {chains : HashChains Key} {order : Nat → List Nat}

/-- The bucket that a key falls into. -/
def home (hash : Key → UInt64) (chains : HashChains Key) (key : Key) : Nat :=
  bucketOf hash key (chains.buckets.size - 1)

/-- The bucket that the key of a slot falls into. -/
def slotHome (hash : Key → UInt64) (chains : HashChains Key) (slot : Nat) : Option Nat :=
  chains.keys[slot]?.map (home hash chains)

/-- Each bucket leads through its list of slots, whose keys all fall into the bucket. -/
structure Chained (hash : Key → UInt64) (chains : HashChains Key) (order : Nat → List Nat) :
    Prop where
  buckets_pos : 0 < chains.buckets.size
  size_next : chains.keys.size ≤ chains.next.size
  leads : ∀ bucket head, chains.buckets[bucket]? = some head →
    Link.Leads chains.next head (order bucket)
  slotHome_eq : ∀ bucket, ∀ slot ∈ order bucket, slotHome hash chains slot = some bucket

/-- All links name slots below a bound. -/
structure Bounded (bound : Nat) (chains : HashChains Key) : Prop where
  next : ∀ slot, some slot ∈ chains.next → slot < bound
  buckets : ∀ slot, some slot ∈ chains.buckets → slot < bound

theorem home_lt (positive : 0 < chains.buckets.size) (key : Key) :
    home hash chains key < chains.buckets.size :=
  bucketOf_lt hash key positive

theorem home_congr {changed : HashChains Key}
    (sizes : changed.buckets.size = chains.buckets.size) :
    home hash changed = home hash chains := by
  funext key
  rw [home, home, sizes]

theorem slotHome_congr {changed : HashChains Key} {slot : Nat}
    (sizes : changed.buckets.size = chains.buckets.size)
    (same : changed.keys[slot]? = chains.keys[slot]?) :
    slotHome hash changed slot = slotHome hash chains slot := by
  rw [slotHome, slotHome, same, home_congr sizes]

theorem slotHome_of {slot : Nat} {key : Key} (there : chains.keys[slot]? = some key) :
    slotHome hash chains slot = some (home hash chains key) := by
  rw [slotHome, there, Option.map_some]

namespace Chained

theorem mem_lt_keys (chained : Chained hash chains order) {bucket slot : Nat}
    (member : slot ∈ order bucket) : slot < chains.keys.size := by
  have placed := chained.slotHome_eq bucket slot member
  rw [slotHome, Option.map_eq_some_iff] at placed
  obtain ⟨key, there, -⟩ := placed
  exact (Array.getElem?_eq_some_iff.mp there).1

theorem mem_lt (chained : Chained hash chains order) {bucket slot : Nat}
    (member : slot ∈ order bucket) : slot < chains.next.size :=
  Nat.lt_of_lt_of_le (chained.mem_lt_keys member) chained.size_next

/-- A slot stands in the list of one bucket only. -/
theorem bucket_unique (chained : Chained hash chains order) {bucket other slot : Nat}
    (here : slot ∈ order bucket) (there : slot ∈ order other) : bucket = other := by
  have first := chained.slotHome_eq bucket slot here
  have second := chained.slotHome_eq other slot there
  exact Option.some.inj (first.symm.trans second)

theorem home_eq (chained : Chained hash chains order) {bucket slot : Nat} {key : Key}
    (member : slot ∈ order bucket) (there : chains.keys[slot]? = some key) :
    home hash chains key = bucket :=
  Option.some.inj ((slotHome_of there).symm.trans (chained.slotHome_eq bucket slot member))

theorem bucket_lt (chained : Chained hash chains order) {bucket slot : Nat}
    (member : slot ∈ order bucket) : bucket < chains.buckets.size := by
  have placed := chained.slotHome_eq bucket slot member
  rw [slotHome, Option.map_eq_some_iff] at placed
  obtain ⟨key, -, rfl⟩ := placed
  exact home_lt chained.buckets_pos key

theorem nodup (chained : Chained hash chains order) (bucket : Nat) : (order bucket).Nodup := by
  by_cases inside : bucket < chains.buckets.size
  · exact (chained.leads bucket _ (Array.getElem?_eq_getElem inside)).nodup
  · have empty : order bucket = [] :=
      List.eq_nil_iff_forall_not_mem.mpr fun slot member => inside (chained.bucket_lt member)
    rw [empty]
    exact List.nodup_nil

/-- The order depends on the keys, the links of the listed slots and the buckets only. -/
theorem congr {changed : HashChains Key} (chained : Chained hash chains order)
    (size_next : changed.keys.size ≤ changed.next.size)
    (sameBuckets : changed.buckets = chains.buckets)
    (sameKeys : ∀ bucket, ∀ slot ∈ order bucket, changed.keys[slot]? = chains.keys[slot]?)
    (sameNext : ∀ bucket, ∀ slot ∈ order bucket, changed.next[slot]? = chains.next[slot]?) :
    Chained hash changed order where
  buckets_pos := by rw [sameBuckets]; exact chained.buckets_pos
  size_next := size_next
  leads bucket head there := by
    rw [sameBuckets] at there
    exact (chained.leads bucket head there).congr (sameNext bucket)
  slotHome_eq bucket slot member := by
    rw [← chained.slotHome_eq bucket slot member]
    exact slotHome_congr (by rw [sameBuckets]) (sameKeys bucket slot member)

/-- The key of a slot that is not linked does not matter. -/
theorem set_key (chained : Chained hash chains order) {slot : Nat} (key : Key)
    (unlinked : ∀ bucket, slot ∉ order bucket) :
    Chained hash { chains with keys := chains.keys.setIfInBounds slot key } order := by
  refine chained.congr (by simp [chained.size_next]) rfl ?_ fun _ _ _ => rfl
  intro bucket other member
  have different : slot ≠ other := fun same => unlinked bucket (by rw [same]; exact member)
  exact Array.getElem?_setIfInBounds_ne different

end Chained

/-- A table with empty buckets is chained in the empty order. -/
theorem chained_empty {keys : Array Key} {next : Array Link} {count : Nat} (positive : 0 < count)
    (size_next : keys.size ≤ next.size) :
    Chained hash { keys, next, buckets := Array.replicate count none } fun _ => [] where
  buckets_pos := by simpa using positive
  size_next := size_next
  leads bucket head there := by
    rw [Array.getElem?_replicate] at there
    split at there
    · exact (Option.some.inj there).symm
    · exact absurd there (by simp)
  slotHome_eq bucket slot member := absurd member (by simp)

/-! ### Searching -/

theorem chainHead_of (hash : Key → UInt64) (positive : 0 < chains.buckets.size) (key : Key) :
    ∃ head, chains.chainHead hash key = .ok head ∧
      chains.buckets[home hash chains key]? = some head := by
  refine ⟨_, ?_, Array.getElem?_eq_getElem (home_lt positive key)⟩
  simp only [chainHead, bucket, require_of positive, Checked.bind_ok]
  exact fetch_of (Array.getElem?_eq_getElem (home_lt positive key))

section

variable [DecidableEq Key]

/-- Whether a slot has a key. -/
def hasKey (chains : HashChains Key) (key : Key) (slot : Nat) : Bool :=
  chains.keys[slot]? = some key

theorem seekWithin_of_leads {first : Link} {slots : List Nat} {fuel : Nat}
    (leads : Link.Leads chains.next first slots) (keyed : ∀ slot ∈ slots, slot < chains.keys.size)
    (enough : slots.length ≤ fuel) (key : Key) :
    chains.seekWithin key fuel first = .ok (slots.find? (chains.hasKey key)) := by
  induction slots generalizing first fuel with
  | nil =>
    rw [Link.leads_nil] at leads
    subst leads
    cases fuel <;> rfl
  | cons slot rest inductionHypothesis =>
    have inside := keyed slot List.mem_cons_self
    have keyedRest : ∀ slot ∈ rest, slot < chains.keys.size := fun other member =>
      keyed other (List.mem_cons_of_mem _ member)
    obtain ⟨rfl, successor, there, leadsRest⟩ := leads
    cases fuel with
    | zero => simp at enough
    | succ fuel =>
      have keyThere : chains.keys[slot]? = some chains.keys[slot] :=
        Array.getElem?_eq_getElem inside
      simp only [seekWithin, fetch_of keyThere, Checked.bind_ok, fetch_of there,
        inductionHypothesis leadsRest keyedRest (by simpa using enough : rest.length ≤ fuel)]
      by_cases same : chains.keys[slot] = key
      · rw [if_pos same, List.find?_cons_of_pos (by simp [hasKey, keyThere, same])]
        rfl
      · rw [if_neg same, List.find?_cons_of_neg (by simp [hasKey, keyThere, same])]

/-- A search finds the first slot with the key in the list of the key's bucket. -/
theorem Chained.find_eq (chained : Chained hash chains order) (key : Key) :
    chains.find hash key = .ok ((order (home hash chains key)).find? (chains.hasKey key)) := by
  obtain ⟨head, run, there⟩ := chainHead_of hash chained.buckets_pos key
  have leads := chained.leads _ _ there
  rw [find, run, Checked.bind_ok, seek]
  exact seekWithin_of_leads leads (fun slot => chained.mem_lt_keys) leads.length_le key

/-- Behind a slot of a chain, a search finds the next slot with the key. -/
theorem Chained.findAfter_eq (chained : Chained hash chains order) {bucket slot : Nat}
    {before after : List Nat} (split : order bucket = before ++ slot :: after) (key : Key) :
    chains.findAfter slot key = .ok (after.find? (chains.hasKey key)) := by
  have inside : bucket < chains.buckets.size :=
    chained.bucket_lt (split ▸ List.mem_append_right before List.mem_cons_self)
  have leads := chained.leads bucket _ (Array.getElem?_eq_getElem inside)
  rw [split] at leads
  obtain ⟨-, successor, there, leadsAfter⟩ := leads.drop
  have keyed : ∀ other ∈ after, other < chains.keys.size := fun other member =>
    chained.mem_lt_keys (split ▸ List.mem_append_right before (List.mem_cons_of_mem _ member))
  rw [findAfter, fetch_of there, Checked.bind_ok, seek]
  exact seekWithin_of_leads leadsAfter keyed leadsAfter.length_le key

theorem Chained.matchesWithin_eq (chained : Chained hash chains order) {bucket fuel : Nat}
    {before slots : List Nat} (split : order bucket = before ++ slots)
    (enough : slots.length ≤ fuel) (key : Key) :
    chains.matchesWithin key fuel (slots.find? (chains.hasKey key)) =
      .ok (slots.filter (chains.hasKey key)) := by
  induction slots generalizing before fuel with
  | nil => cases fuel <;> rfl
  | cons slot rest inductionHypothesis =>
    have splitRest : order bucket = (before ++ [slot]) ++ rest := by
      rw [split, List.append_assoc, List.singleton_append]
    by_cases same : chains.hasKey key slot = true
    · cases fuel with
      | zero => simp at enough
      | succ fuel =>
        rw [List.find?_cons_of_pos same, List.filter_cons_of_pos same, matchesWithin,
          chained.findAfter_eq split, Checked.bind_ok,
          inductionHypothesis splitRest (Nat.le_of_succ_le_succ enough)]
        rfl
    · rw [List.find?_cons_of_neg same, List.filter_cons_of_neg same]
      exact inductionHypothesis splitRest (Nat.le_of_succ_le enough)

/-- All slots with a key are those in the list of its bucket, in that order. -/
theorem Chained.allMatches_eq (chained : Chained hash chains order) (key : Key) :
    chains.allMatches hash key =
      .ok ((order (home hash chains key)).filter (chains.hasKey key)) := by
  obtain ⟨head, -, there⟩ := chainHead_of hash chained.buckets_pos key
  rw [allMatches, chained.find_eq, Checked.bind_ok]
  exact chained.matchesWithin_eq (List.nil_append _).symm
    (chained.leads _ _ there).length_le key

/-- A key that only one linked slot has is found there. -/
theorem Chained.find_unique (chained : Chained hash chains order) {key : Key} {bucket slot : Nat}
    (member : slot ∈ order bucket) (there : chains.keys[slot]? = some key)
    (unique : ∀ bucket, ∀ other ∈ order bucket, chains.keys[other]? = some key → other = slot) :
    chains.find hash key = .ok (some slot) := by
  rw [chained.find_eq, chained.home_eq member there]
  have found : ((order bucket).find? (chains.hasKey key)).isSome := by
    rw [List.find?_isSome]
    exact ⟨slot, member, by simp [hasKey, there]⟩
  obtain ⟨other, foundOther⟩ := Option.isSome_iff_exists.mp found
  have hasKey := List.find?_some foundOther
  rw [foundOther, unique bucket other (List.mem_of_find?_eq_some foundOther)
    (of_decide_eq_true hasKey)]

/-- A key that no linked slot has is not found. -/
theorem Chained.find_none (chained : Chained hash chains order) {key : Key}
    (absent : ∀ bucket, ∀ slot ∈ order bucket, chains.keys[slot]? ≠ some key) :
    chains.find hash key = .ok none := by
  rw [chained.find_eq, List.find?_eq_none.mpr]
  intro slot member
  simpa [hasKey] using absent _ slot member

end

/-- Going through the buckets lists the slots that they lead through. -/
theorem linkedSlots_of_leads (leads : ∀ (bucket : Nat) (head : Link),
      chains.buckets[bucket]? = some head → Link.Leads chains.next head (order bucket)) :
    chains.linkedSlots = .ok ((List.range chains.buckets.size).flatMap order) := by
  have walks (start : Nat) (heads : List Link)
      (there : ∀ position head, heads[position]? = some head →
        chains.buckets[start + position]? = some head) :
      heads.mapM (Link.walk chains.next) =
        .ok ((List.range' start heads.length).map order) := by
    induction heads generalizing start with
    | nil => rfl
    | cons head rest inductionHypothesis =>
      have walkHead := Link.walk_of_leads (leads start head (there 0 head rfl))
      have walkRest := inductionHypothesis (start + 1) fun position link thereRest => by
        have := there (position + 1) link (by simpa using thereRest)
        rwa [show start + (position + 1) = start + 1 + position by omega] at this
      rw [List.mapM_cons, walkHead, Checked.bind_ok, walkRest]
      rfl
  have all := walks 0 chains.buckets.toList fun position head thereHead => by
    simpa [Array.getElem?_toList] using thereHead
  rw [linkedSlots, all, Checked.bind_ok, List.flatMap_def, List.range_eq_range']
  simp only [Array.length_toList]
  rfl

/-- Bucket after bucket, the linked slots are those of the lists. -/
theorem Chained.linkedSlots_eq (chained : Chained hash chains order) :
    chains.linkedSlots = .ok ((List.range chains.buckets.size).flatMap order) :=
  linkedSlots_of_leads chained.leads

end HashChains

end PackedStore
