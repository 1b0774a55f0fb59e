/-
This file says what linking and unlinking do to the order of a hash table. Each
operation is run to an explicit table first, and that table is then shown to be
chained in the expected order. Building anew goes through a list of slots and
links each one; what all its steps have in common is `Relinked`: the keys stay,
and no link changes but those of the listed slots and the buckets.
-/

import PackedStore.Proofs.Slots.HashChains

namespace PackedStore.HashChains

variable {Key : Type} {hash : Key → UInt64} {chains : HashChains Key} {order : Nat → List Nat}

/-- The order in which a slot has come to the front of a bucket. -/
def enter (order : Nat → List Nat) (bucket slot : Nat) : Nat → List Nat :=
  Function.update order bucket (slot :: order bucket)

/-- The order in which a slot has left a bucket. -/
def leave (order : Nat → List Nat) (bucket slot : Nat) : Nat → List Nat :=
  Function.update order bucket ((order bucket).erase slot)

theorem mem_enter {bucket slot other position : Nat} :
    other ∈ enter order bucket slot position ↔
      (position = bucket ∧ other = slot) ∨ other ∈ order position := by
  by_cases same : position = bucket
  · subst same
    simp [enter]
  · simp [enter, same]

theorem mem_leave {bucket slot other position : Nat} (distinct : (order bucket).Nodup) :
    other ∈ leave order bucket slot position ↔
      other ∈ order position ∧ ¬ (position = bucket ∧ other = slot) := by
  by_cases same : position = bucket
  · subst same
    rw [leave, Function.update_self, distinct.mem_erase_iff]
    exact ⟨fun both => ⟨both.2, fun equal => both.1 equal.2⟩,
      fun both => ⟨fun equal => both.2 ⟨rfl, equal⟩, both.1⟩⟩
  · rw [leave, Function.update_of_ne same]
    exact ⟨fun member => ⟨member, fun equal => same equal.1⟩, And.left⟩

/-! ### Linking one slot -/

/-- The slot has a key, and links can name it. -/
def Linkable (chains : HashChains Key) (slot : Nat) : Prop :=
  slot < chains.keys.size ∧ slot < Link.slotLimit

/-- The table with a slot in front of a bucket. -/
def front (chains : HashChains Key) (bucket slot : Nat) : HashChains Key :=
  { chains with
    next := chains.next.setIfInBounds slot (chains.buckets.getD bucket none)
    buckets := chains.buckets.setIfInBounds bucket (some slot) }

@[simp] theorem front_keys (bucket slot : Nat) : (chains.front bucket slot).keys = chains.keys :=
  rfl

@[simp] theorem size_front_next (bucket slot : Nat) :
    (chains.front bucket slot).next.size = chains.next.size :=
  Array.size_setIfInBounds

@[simp] theorem size_front_buckets (bucket slot : Nat) :
    (chains.front bucket slot).buckets.size = chains.buckets.size :=
  Array.size_setIfInBounds

/-- The slot goes to the front of its bucket under the name that its word stands for. -/
theorem run_link_word (positive : 0 < chains.buckets.size) {slot : Nat} {key : Key}
    (there : chains.keys[slot]? = some key) (inside : slot < chains.next.size) :
    link hash slot chains = .ok ()
      { chains with
        next := chains.next.setIfInBounds slot
          (chains.buckets.getD (home hash chains key) none)
        buckets := chains.buckets.setIfInBounds (home hash chains key) (Link.ofSlot slot) } := by
  have head : chains.buckets[home hash chains key]? =
      some (chains.buckets.getD (home hash chains key) none) := by
    simp [Array.getD, home_lt positive]
  rw [home] at head
  simp only [link, bucket, Edit.run_bind, Edit.run_get, fetch_of there, Edit.run_lift_ok,
    require_of positive, Checked.bind_ok, pure, Except.pure, fetch_of head, require_of inside,
    Edit.run_set]
  rfl

theorem run_link (positive : 0 < chains.buckets.size) {slot : Nat} {key : Key}
    (there : chains.keys[slot]? = some key) (inside : slot < chains.next.size)
    (named : slot < Link.slotLimit) :
    link hash slot chains = .ok () (chains.front (home hash chains key) slot) := by
  rw [run_link_word positive there inside, Link.ofSlot_of_lt named]
  rfl

/-- Linking puts a slot in front of its bucket. -/
theorem Chained.front (chained : Chained hash chains order) {slot : Nat} {key : Key}
    (there : chains.keys[slot]? = some key) (unlinked : ∀ bucket, slot ∉ order bucket) :
    Chained hash (chains.front (home hash chains key) slot)
      (enter order (home hash chains key) slot) where
  buckets_pos := by simpa using chained.buckets_pos
  size_next := by simpa using chained.size_next
  leads bucket head thereHead := by
    have inside : slot < chains.next.size :=
      Nat.lt_of_lt_of_le (Array.getElem?_eq_some_iff.mp there).1 chained.size_next
    by_cases same : bucket = home hash chains key
    · subst same
      have bound : home hash chains key < chains.buckets.size := home_lt chained.buckets_pos key
      have oldHead := chained.leads _ _ (Array.getElem?_eq_getElem bound)
      have newHead : head = some slot := by
        have : some head = some (some slot) :=
          thereHead.symm.trans (Array.getElem?_setIfInBounds_self_of_lt bound)
        exact Option.some.inj this
      rw [newHead, enter, Function.update_self]
      have front := oldHead.set_front inside (unlinked _)
      simpa [HashChains.front, Array.getD, bound] using front
    · have oldThere : chains.buckets[bucket]? = some head := by
        have different : home hash chains key ≠ bucket := fun equal => same equal.symm
        rw [← thereHead]
        exact (Array.getElem?_setIfInBounds_ne different).symm
      rw [enter, Function.update_of_ne same]
      exact (chained.leads bucket head oldThere).set_other (unlinked bucket)
  slotHome_eq bucket other member := by
    rw [slotHome_congr (size_front_buckets _ _) rfl]
    rcases mem_enter.mp member with ⟨rfl, rfl⟩ | old
    · exact slotHome_of there
    · exact chained.slotHome_eq bucket other old

/-- The slot gets its key and goes to the front of the key's bucket, under the name that its word
stands for. -/
theorem run_insert_word (positive : 0 < chains.buckets.size) {slot : Nat}
    (inside : slot < chains.keys.size) (insideNext : slot < chains.next.size) (key : Key) :
    insert hash slot key chains = .ok ()
      { keys := chains.keys.setIfInBounds slot key
        next := chains.next.setIfInBounds slot (chains.buckets.getD (home hash chains key) none)
        buckets := chains.buckets.setIfInBounds (home hash chains key) (Link.ofSlot slot) } := by
  have there : ({ chains with keys := chains.keys.setIfInBounds slot key } : HashChains Key).keys[
      slot]? = some key := Array.getElem?_setIfInBounds_self_of_lt inside
  simp only [insert, Edit.run_bind, Edit.run_get, require_of inside, Edit.run_lift_ok,
    Edit.run_set]
  refine run_link_word ?_ there insideNext
  exact positive

theorem run_insert (positive : 0 < chains.buckets.size) {slot : Nat}
    (inside : slot < chains.keys.size) (insideNext : slot < chains.next.size)
    (named : slot < Link.slotLimit) (key : Key) :
    insert hash slot key chains =
      .ok () ({ chains with keys := chains.keys.setIfInBounds slot key }.front
        (home hash chains key) slot) := by
  rw [run_insert_word positive inside insideNext, Link.ofSlot_of_lt named]
  rfl

/-- A slot without a place for its key is not linked. -/
theorem run_insert_outside {slot : Nat} (outside : ¬ slot < chains.keys.size) (key : Key) :
    insert hash slot key chains = .error (.fault .outOfRange) chains := by
  simp only [insert, Edit.run_bind, Edit.run_get, require_of_not outside, Edit.run_lift_error]

/-- Inserting gives a slot that is not linked its key and puts it in front of its bucket. -/
theorem Chained.insert (chained : Chained hash chains order) {slot : Nat}
    (inside : slot < chains.keys.size) (unlinked : ∀ bucket, slot ∉ order bucket) (key : Key) :
    Chained hash
      ({ chains with keys := chains.keys.setIfInBounds slot key }.front (home hash chains key) slot)
      (enter order (home hash chains key) slot) :=
  (chained.set_key key unlinked).front (Array.getElem?_setIfInBounds_self_of_lt inside) unlinked

theorem Bounded.front {bound slot : Nat} (bounded : Bounded bound chains) (below : slot < bound)
    (bucket : Nat) : Bounded bound (chains.front bucket slot) where
  next other member := by
    rcases Array.mem_or_eq_of_mem_setIfInBounds member with old | head
    · exact bounded.next other old
    · by_cases inside : bucket < chains.buckets.size
      · refine bounded.buckets other ?_
        rw [head, Array.getD, dif_pos inside]
        exact Array.getElem_mem inside
      · rw [Array.getD, dif_neg inside] at head
        exact absurd head (by simp)
  buckets other member := by
    rcases Array.mem_or_eq_of_mem_setIfInBounds member with old | new
    · exact bounded.buckets other old
    · obtain rfl := Option.some.inj new
      exact below

/-! ### Unlinking -/

/-- The table in which a predecessor, or the bucket when there is none, has another link. -/
def bypass (chains : HashChains Key) (bucket : Nat) (previous : Option Nat) (successor : Link) :
    HashChains Key :=
  match previous with
  | none => { chains with buckets := chains.buckets.setIfInBounds bucket successor }
  | some before => { chains with next := chains.next.setIfInBounds before successor }

@[simp] theorem bypass_keys (bucket : Nat) (previous : Option Nat) (successor : Link) :
    (chains.bypass bucket previous successor).keys = chains.keys := by
  cases previous <;> rfl

@[simp] theorem size_bypass_next (bucket : Nat) (previous : Option Nat) (successor : Link) :
    (chains.bypass bucket previous successor).next.size = chains.next.size := by
  cases previous <;> simp [bypass]

@[simp] theorem size_bypass_buckets (bucket : Nat) (previous : Option Nat) (successor : Link) :
    (chains.bypass bucket previous successor).buckets.size = chains.buckets.size := by
  cases previous <;> simp [bypass]

theorem bypass_next_of_ne {bucket other : Nat} {previous : Option Nat} {successor : Link}
    (different : ∀ before, previous = some before → before ≠ other) :
    (chains.bypass bucket previous successor).next[other]? = chains.next[other]? := by
  cases previous with
  | none => rfl
  | some before => exact Array.getElem?_setIfInBounds_ne (different before rfl)

theorem run_unlinkWithin {slot bucket fuel : Nat} {previous : Option Nat} {current : Link}
    {passed after : List Nat} {successor : Link}
    (leads : Link.Leads chains.next current (passed ++ slot :: after))
    (there : chains.next[slot]? = some successor)
    (enough : (passed ++ slot :: after).length ≤ fuel) :
    unlinkWithin slot bucket fuel previous current chains =
      .ok true (chains.bypass bucket (passed.getLast?.or previous) successor) := by
  induction passed generalizing previous current fuel with
  | nil =>
    obtain ⟨rfl, -⟩ := leads
    cases fuel with
    | zero => simp at enough
    | succ fuel =>
      cases previous <;>
        simp [unlinkWithin, fetch_of there, bypass]
  | cons head passed inductionHypothesis =>
    have distinct := leads.nodup
    obtain ⟨rfl, link, thereHead, leadsRest⟩ := leads
    cases fuel with
    | zero => simp at enough
    | succ fuel =>
      have different : head ≠ slot := by
        rw [List.cons_append, List.nodup_cons] at distinct
        exact fun same => distinct.1 (by simp [same])
      have rest : unlinkWithin slot bucket fuel (some head) link chains =
          .ok true (chains.bypass bucket (passed.getLast?.or (some head)) successor) :=
        inductionHypothesis leadsRest (by simpa using enough)
      have last : (head :: passed).getLast?.or previous = passed.getLast?.or (some head) := by
        rw [List.getLast?_cons]
        cases passed.getLast? <;> rfl
      simp only [unlinkWithin, Edit.run_bind, Edit.run_get, fetch_of thereHead, Edit.run_lift_ok,
        if_neg different, rest, last]

/-- Unlinking a linked slot sets the link before it to the link behind it. -/
theorem Chained.run_unlink (chained : Chained hash chains order) {bucket slot : Nat}
    {passed after : List Nat} {successor : Link} (split : order bucket = passed ++ slot :: after)
    (there : chains.next[slot]? = some successor) :
    unlink hash slot chains = .ok true (chains.bypass bucket passed.getLast? successor) := by
  have member : slot ∈ order bucket := by simp [split]
  obtain ⟨key, thereKey, homeKey⟩ := Option.map_eq_some_iff.mp
    (chained.slotHome_eq bucket slot member)
  have thereHead := Array.getElem?_eq_getElem (chained.bucket_lt member)
  have leads := chained.leads bucket _ thereHead
  rw [split] at leads
  have run := @run_unlinkWithin _ _ _ bucket _ none _ _ _ _ leads there leads.length_le
  rw [Option.or_none] at run
  rw [home] at homeKey
  simp only [unlink, HashChains.bucket, Edit.run_bind, Edit.run_get, fetch_of thereKey,
    Edit.run_lift_ok, require_of chained.buckets_pos, Checked.bind_ok, pure, Except.pure, homeKey,
    fetch_of thereHead, run]

theorem Chained.bypass (chained : Chained hash chains order) {bucket slot : Nat}
    {passed after : List Nat} {successor : Link} (split : order bucket = passed ++ slot :: after)
    (there : chains.next[slot]? = some successor) :
    Chained hash (chains.bypass bucket passed.getLast? successor) (leave order bucket slot) := by
  have distinct := chained.nodup bucket
  rw [split] at distinct
  have notPassed : slot ∉ passed := fun member =>
    (List.nodup_append.mp distinct).2.2 slot member slot List.mem_cons_self rfl
  have erased : (order bucket).erase slot = passed ++ after := by
    rw [split, List.erase_append_right _ notPassed, List.erase_cons_head]
  have homes (position other : Nat) (member : other ∈ leave order bucket slot position) :
      slotHome hash (chains.bypass bucket passed.getLast? successor) other = some position := by
    have old : other ∈ order position := by
      by_cases same : position = bucket
      · subst same
        rw [leave, Function.update_self] at member
        exact List.mem_of_mem_erase member
      · rwa [leave, Function.update_of_ne same] at member
    rw [← chained.slotHome_eq position other old]
    exact slotHome_congr (size_bypass_buckets _ _ _) (by rw [bypass_keys])
  refine ⟨by simpa using chained.buckets_pos, by simpa using chained.size_next, ?_, homes⟩
  intro position head thereHead
  rcases List.eq_nil_or_concat passed with rfl | ⟨before, previous, rfl⟩
  · -- the slot is the first of its bucket, whose head changes
    have same : chains.bypass bucket ([] : List Nat).getLast? successor =
        { chains with buckets := chains.buckets.setIfInBounds bucket successor } := rfl
    rw [same] at thereHead ⊢
    by_cases here : position = bucket
    · subst here
      have inside := (Array.getElem?_eq_some_iff.mp thereHead).1
      rw [Array.size_setIfInBounds] at inside
      have newHead : head = successor := by
        rw [Array.getElem?_setIfInBounds_self_of_lt inside] at thereHead
        exact (Option.some.inj thereHead).symm
      have leads := chained.leads position _ (Array.getElem?_eq_getElem inside)
      rw [split] at leads
      obtain ⟨-, link, thereLink, leadsAfter⟩ := leads
      obtain rfl : successor = link := by simpa [there] using thereLink
      rw [leave, Function.update_self, erased, newHead]
      exact leadsAfter
    · rw [Array.getElem?_setIfInBounds_ne fun equal => here equal.symm] at thereHead
      rw [leave, Function.update_of_ne here]
      exact chained.leads position head thereHead
  · -- the predecessor's link changes
    have last : (before.concat previous).getLast? = some previous := by simp
    rw [last] at thereHead ⊢
    rw [List.concat_eq_append] at split erased
    have memberPrevious : previous ∈ order bucket := by simp [split]
    have leads := chained.leads position head thereHead
    by_cases here : position = bucket
    · subst here
      rw [split, List.append_assoc] at leads
      rw [leave, Function.update_self, erased, List.append_assoc]
      exact leads.set_before there
    · rw [leave, Function.update_of_ne here]
      exact leads.set_other fun member =>
        here (chained.bucket_unique member memberPrevious)

theorem Bounded.bypass {bound slot : Nat} (bounded : Bounded bound chains) {successor : Link}
    (there : chains.next[slot]? = some successor) (bucket : Nat) (previous : Option Nat) :
    Bounded bound (chains.bypass bucket previous successor) := by
  have member : successor ∈ chains.next := Array.mem_of_getElem? there
  cases previous with
  | none =>
    refine ⟨bounded.next, fun other inBuckets => ?_⟩
    rcases Array.mem_or_eq_of_mem_setIfInBounds inBuckets with old | new
    · exact bounded.buckets other old
    · exact bounded.next other (new ▸ member)
  | some before =>
    refine ⟨fun other inNext => ?_, bounded.buckets⟩
    rcases Array.mem_or_eq_of_mem_setIfInBounds inNext with old | new
    · exact bounded.next other old
    · exact bounded.next other (new ▸ member)

end PackedStore.HashChains
