/-
This file says which parts of a hash table can make a difference. All links are
written before they are followed, but the keys of slots that were never handed out
are whatever the block held there. Two tables resemble each other up to a limit when
they have the same links, none of which leads to a slot beyond the limit, and the
same keys below it. Searches find the same in both, free slots with old keys
included, and all changes lead from tables that resemble each other to such tables.
-/

import Mathlib.Data.List.Forall2
import PackedStore.Proofs.Slots.Rebuilding
import PackedStore.Slots.FreeSlots

namespace PackedStore

variable {σ τ α β : Type}

theorem Checked.mem_mapM {action : α → Checked β} {members : List α} {results : List β}
    (ran : members.mapM action = .ok results) {result : β} (member : result ∈ results) :
    ∃ cause ∈ members, action cause = .ok result := by
  induction members generalizing results with
  | nil =>
    obtain rfl := Except.ok.inj ran
    exact absurd member List.not_mem_nil
  | cons first rest inductionHypothesis =>
    rw [List.mapM_cons] at ran
    obtain ⟨head, ranFirst, ran⟩ := Checked.bind_eq_ok.mp ran
    obtain ⟨tail, ranRest, returned⟩ := Checked.bind_eq_ok.mp ran
    obtain rfl := Except.ok.inj returned
    rcases List.mem_cons.mp member with rfl | inTail
    · exact ⟨first, List.mem_cons_self, ranFirst⟩
    · obtain ⟨cause, inRest, ranCause⟩ := inductionHypothesis ranRest inTail
      exact ⟨cause, List.mem_cons_of_mem _ inRest, ranCause⟩

/-! ### Edits of related states -/

/-- Where the edit succeeds on a state, it succeeds on all related ones with the same answer, and
the states are related afterwards. -/
def Edit.Transfers (Before After : σ → σ → Prop) (edit : Edit σ α) : Prop :=
  ∀ one other answer changed, Before one other → edit one = .ok answer changed →
    ∃ twin, edit other = .ok answer twin ∧ After changed twin

namespace Edit.Transfers

variable {Before Between After : σ → σ → Prop}

theorem bind {first : Edit σ α} {next : α → Edit σ β} (transfers : Transfers Before Between first)
    (rest : ∀ answer, Transfers Between After (next answer)) :
    Transfers Before After (first >>= next) := by
  intro one other answer changed related run
  obtain ⟨middle, between, ran, run⟩ := Edit.bind_eq_ok.mp run
  obtain ⟨twin, ranTwin, relatedTwin⟩ := transfers _ _ _ _ related ran
  obtain ⟨last, runTwin, relatedLast⟩ := rest middle _ _ _ _ relatedTwin run
  exact ⟨last, Edit.bind_eq_ok.mpr ⟨middle, twin, ranTwin, runTwin⟩, relatedLast⟩

theorem pure (answer : α) : Transfers Before Before (pure answer : Edit σ α) := by
  intro one other _ _ related run
  obtain ⟨rfl, rfl⟩ := EStateM.Result.ok.inj run
  exact ⟨other, rfl, related⟩

theorem lift (checked : Checked α) : Transfers Before Before (liftM checked : Edit σ α) := by
  intro one other _ _ related run
  obtain ⟨isAnswer, rfl⟩ := Edit.lift_eq_ok.mp run
  exact ⟨other, Edit.lift_eq_ok.mpr ⟨isAnswer, rfl⟩, related⟩

theorem modify {change : σ → σ}
    (stays : ∀ one other, Before one other → After (change one) (change other)) :
    Transfers Before After (modify change : Edit σ PUnit) := by
  intro one other _ _ related run
  obtain ⟨rfl, rfl⟩ := EStateM.Result.ok.inj run
  exact ⟨change other, rfl, stays one other related⟩

theorem weaken {Strong Weak : σ → σ → Prop} {edit : Edit σ α}
    (transfers : Transfers Before After edit)
    (before : ∀ one other, Strong one other → Before one other)
    (after : ∀ one other, After one other → Weak one other) : Transfers Strong Weak edit := by
  intro one other answer changed related run
  obtain ⟨twin, ran, relatedTwin⟩ := transfers _ _ _ _ (before one other related) run
  exact ⟨twin, ran, after changed twin relatedTwin⟩

/-- What is read from related states is the same, so the edit goes on alike. -/
theorem read {look : σ → Checked α} {next : α → Edit σ β}
    (same : ∀ one other, Before one other → look other = look one)
    (rest : ∀ answer, Transfers (fun one other => Before one other ∧ look one = .ok answer) After
      (next answer)) :
    Transfers Before After (do
      let state ← get
      let answer ← (liftM (look state) : Edit σ α)
      next answer) := by
  intro one other answer changed related run
  obtain ⟨middle, looked, run⟩ := Edit.lift_bind_eq_ok.mp run
  obtain ⟨twin, ran, relatedTwin⟩ := rest middle _ _ _ _ ⟨related, looked⟩ run
  refine ⟨twin, ?_, relatedTwin⟩
  exact Edit.lift_bind_eq_ok.mpr ⟨middle, (same one other related).trans looked, ran⟩

/-- An edit of related parts is one of related states. -/
theorem onPart {part : σ → τ} {put : τ → σ → σ} {edit : Edit τ α} {Piece Changed : τ → τ → Prop}
    (transfers : Transfers Piece Changed edit)
    (looks : ∀ one other, Before one other → Piece (part one) (part other))
    (puts : ∀ one other piece twin, Before one other → Changed piece twin →
      After (put piece one) (put twin other)) :
    Transfers Before After (edit.onPart part put) := by
  intro one other answer changed related run
  cases ran : edit (part one) with
  | error failure piece => simp [Edit.onPart, ran] at run
  | ok result piece =>
    obtain ⟨twin, ranTwin, relatedTwin⟩ := transfers _ _ _ _ (looks one other related) ran
    obtain ⟨rfl, rfl⟩ := EStateM.Result.ok.inj ((Edit.run_onPart_ok ran).symm.trans run)
    exact ⟨_, Edit.run_onPart_ok ranTwin, puts one other piece twin related relatedTwin⟩

/-- Edits of all members of related lists. -/
theorem onEach {Piece Changed : τ → τ → Prop} {edits : List (Edit τ Unit)}
    (each : ∀ edit ∈ edits, Transfers Piece Changed edit) :
    Transfers (fun one other => one.length = edits.length ∧ List.Forall₂ Piece one other)
      (fun one other => one.length = edits.length ∧ List.Forall₂ Changed one other)
      (Edit.onEach edits) := by
  induction edits with
  | nil =>
    rintro one other answer changed ⟨length, related⟩ run
    obtain rfl := List.length_eq_zero_iff.mp length
    obtain rfl := List.forall₂_nil_left_iff.mp related
    obtain ⟨rfl, rfl⟩ := EStateM.Result.ok.inj run
    exact ⟨[], rfl, length, .nil⟩
  | cons edit rest inductionHypothesis =>
    rintro one other answer changed ⟨length, related⟩ run
    cases related with
    | nil => simp at length
    | @cons first second others twins relatedFirst relatedRest =>
      cases ranFirst : edit first with
      | error failure piece => simp [Edit.onEach, ranFirst] at run
      | ok result piece =>
        cases ranRest : Edit.onEach rest others with
        | error failure pieces => simp [Edit.onEach, ranFirst, ranRest] at run
        | ok done pieces =>
          obtain ⟨twin, ranTwin, changedTwin⟩ :=
            each edit List.mem_cons_self _ _ _ _ relatedFirst ranFirst
          obtain ⟨lasts, ranLasts, lengthRest, changedLasts⟩ :=
            inductionHypothesis (fun other member => each other (List.mem_cons_of_mem _ member))
              _ _ _ _ ⟨Nat.succ.inj length, relatedRest⟩ ranRest
          simp only [Edit.onEach, ranFirst, ranRest] at run
          obtain ⟨rfl, rfl⟩ := EStateM.Result.ok.inj run
          refine ⟨twin :: lasts, by simp only [Edit.onEach, ranTwin, ranLasts],
            congrArg (· + 1) lengthRest, .cons changedTwin changedLasts⟩

end Edit.Transfers

/-! ### Arrays that are the same below a limit -/

/-- The arrays have the same length and the same members below the limit. -/
structure SameBelow (limit : Nat) (one other : Array α) : Prop where
  size : other.size = one.size
  member : ∀ position, position < limit → other[position]? = one[position]?

namespace SameBelow

variable {limit : Nat} {one other : Array α}

theorem fetch_eq (same : SameBelow limit one other) {position : Nat} (below : position < limit) :
    fetch other position = fetch one position := by
  rw [fetch, same.member position below, fetch]

/-- A member that is stored below the limit, or in the first place beyond it, is known from then
on. -/
theorem set (same : SameBelow limit one other) {position : Nat} (next : position ≤ limit)
    (member : α) : SameBelow (max limit (position + 1)) (one.setIfInBounds position member)
      (other.setIfInBounds position member) := by
  refine ⟨by simp [same.size], fun place below => ?_⟩
  rw [Array.getElem?_setIfInBounds, Array.getElem?_setIfInBounds, same.size]
  by_cases here : position = place
  · rw [if_pos here, if_pos here]
  · rw [if_neg here, if_neg here]
    exact same.member place (by omega)

theorem moveDown {start count stop : Nat} (same : SameBelow stop one other)
    (range : start + count ≤ stop) (inside : stop ≤ one.size) :
    SameBelow (stop - count) (moveDown one start count stop) (moveDown other start count stop) := by
  have insideOther : stop ≤ other.size := by rw [same.size]; exact inside
  refine ⟨by rw [size_moveDown range inside, size_moveDown range insideOther, same.size],
    fun position below => ?_⟩
  rw [getElem?_moveDown range inside below, getElem?_moveDown range insideOther below]
  exact same.member _ (by split <;> omega)

/-- What lies beyond the limit plays no part when it is overwritten. -/
theorem fillRange_eq (same : SameBelow limit one other) (inside : limit ≤ one.size) (value : α) :
    fillRange other limit other.size value = fillRange one limit one.size value := by
  have insideOther : limit ≤ other.size := by rw [same.size]; exact inside
  refine Array.ext_getElem? fun position => ?_
  by_cases before : position < limit
  · rw [getElem?_fillRange_before insideOther before, getElem?_fillRange_before inside before,
      same.member position before]
  · have behind := Nat.le_of_not_lt before
    rw [same.size]
    by_cases below : position < one.size
    · rw [getElem?_fillRange_inside insideOther behind below,
        getElem?_fillRange_inside inside behind below]
    · have beyond := Nat.le_of_not_lt below
      rw [getElem?_fillRange_behind inside (Nat.le_refl _) beyond,
        getElem?_fillRange_behind inside (Nat.le_of_eq same.size.symm) beyond,
        Array.getElem?_eq_none beyond, Array.getElem?_eq_none (same.size ▸ beyond)]

end SameBelow

namespace Link

variable {next : Array Link} {limit : Nat}

/-- Walks over links that lead below a limit stay below it. -/
theorem mem_walkWithin_lt
    (inside : ∀ slot target : Nat, next[slot]? = some (some target) → target < limit) {fuel : Nat}
    {first : Link} (below : ∀ slot, first = some slot → slot < limit) {slots : List Nat}
    (walked : walkWithin next fuel first = .ok slots) : ∀ slot ∈ slots, slot < limit := by
  induction fuel generalizing first slots with
  | zero =>
    cases first with
    | none =>
      obtain rfl := Except.ok.inj walked
      simp
    | some slot => exact absurd walked (by simp [walkWithin])
  | succ fuel inductionHypothesis =>
    cases first with
    | none =>
      obtain rfl := Except.ok.inj walked
      simp
    | some slot =>
      obtain ⟨successor, isNext, walked⟩ := Checked.bind_eq_ok.mp walked
      obtain ⟨rest, walkedRest, returned⟩ := Checked.bind_eq_ok.mp walked
      obtain rfl := Except.ok.inj returned
      intro other member
      rcases List.mem_cons.mp member with rfl | member
      · exact below _ rfl
      · refine inductionHypothesis (fun target isTarget => ?_) walkedRest other member
        exact inside slot target (by rw [← isTarget]; exact orFail_eq_ok.mp isNext)

end Link

namespace HashChains

variable {Key : Type} {hash : Key → UInt64} {limit : Nat} {pending : List Nat}
  {one other : HashChains Key}

/-! ### Resemblance -/

/-- The tables have the same links and the same keys up to a limit. The links lead from slots below
the limit to slots below it, except for slots that are about to be linked, and they can name all
slots. -/
structure Resembles (limit : Nat) (pending : List Nat) (one other : HashChains Key) : Prop where
  named : one.next.size ≤ Link.slotLimit
  next : other.next = one.next
  buckets : other.buckets = one.buckets
  keys : SameBelow limit one.keys other.keys
  inside : ∀ slot target, slot ∉ pending → one.next[slot]? = some (some target) →
    slot < limit ∧ target < limit
  heads : ∀ target, some target ∈ one.buckets → target < limit

namespace Resembles

/-! ### Searching -/

section

variable (resembles : Resembles limit [] one other)

include resembles

theorem below_of_next {slot : Nat} {link : Link} (isNext : fetch one.next slot = .ok link) :
    ∀ target, link = some target → target < limit := by
  rintro target rfl
  exact (resembles.inside slot target (by simp) (orFail_eq_ok.mp isNext)).2

theorem seekWithin_eq [DecidableEq Key] {fuel : Nat} {first : Link}
    (below : ∀ slot, first = some slot → slot < limit) (key : Key) :
    other.seekWithin key fuel first = one.seekWithin key fuel first := by
  induction fuel generalizing first with
  | zero => cases first <;> rfl
  | succ fuel inductionHypothesis =>
    cases first with
    | none => rfl
    | some slot =>
      simp only [seekWithin, resembles.keys.fetch_eq (below slot rfl), resembles.next]
      refine congrArg (fetch one.keys slot >>= ·) (funext fun found => ?_)
      split
      · rfl
      · cases isNext : fetch one.next slot with
        | error failure => rfl
        | ok successor => exact inductionHypothesis (resembles.below_of_next isNext)

theorem seekWithin_lt [DecidableEq Key] {fuel : Nat} {first : Link}
    (below : ∀ slot, first = some slot → slot < limit) {key : Key} {found : Nat}
    (sought : one.seekWithin key fuel first = .ok (some found)) : found < limit := by
  induction fuel generalizing first with
  | zero => cases first <;> simp [seekWithin] at sought
  | succ fuel inductionHypothesis =>
    cases first with
    | none => simp [seekWithin] at sought
    | some slot =>
      obtain ⟨candidate, -, sought⟩ := Checked.bind_eq_ok.mp sought
      split at sought
      · obtain rfl := Option.some.inj (Except.ok.inj sought)
        exact below _ rfl
      · obtain ⟨successor, isNext, sought⟩ := Checked.bind_eq_ok.mp sought
        exact inductionHypothesis (resembles.below_of_next isNext) sought

theorem chainHead_eq (key : Key) : other.chainHead hash key = one.chainHead hash key := by
  simp only [chainHead, bucket, resembles.buckets]

theorem below_of_chainHead {key : Key} {head : Link}
    (isHead : one.chainHead hash key = .ok head) : ∀ slot, head = some slot → slot < limit := by
  rintro slot rfl
  obtain ⟨bucket, -, isHead⟩ := Checked.bind_eq_ok.mp isHead
  exact resembles.heads slot (Array.mem_of_getElem? (orFail_eq_ok.mp isHead))

variable [DecidableEq Key]

theorem find_eq (hash : Key → UInt64) (key : Key) : other.find hash key = one.find hash key := by
  simp only [find, resembles.chainHead_eq, seek, resembles.next]
  cases isHead : one.chainHead hash key with
  | error failure => rfl
  | ok head => exact resembles.seekWithin_eq (resembles.below_of_chainHead isHead) key

theorem find_lt {key : Key} {slot : Nat} (found : one.find hash key = .ok (some slot)) :
    slot < limit := by
  obtain ⟨head, isHead, found⟩ := Checked.bind_eq_ok.mp found
  exact resembles.seekWithin_lt (resembles.below_of_chainHead isHead) found

theorem findAfter_eq (slot : Nat) (key : Key) : other.findAfter slot key = one.findAfter slot key := by
  simp only [findAfter, seek, resembles.next]
  cases isNext : fetch one.next slot with
  | error failure => rfl
  | ok link => exact resembles.seekWithin_eq (resembles.below_of_next isNext) key

theorem findAfter_lt {slot found : Nat} {key : Key}
    (isAfter : one.findAfter slot key = .ok (some found)) : found < limit := by
  obtain ⟨link, isNext, isAfter⟩ := Checked.bind_eq_ok.mp isAfter
  exact resembles.seekWithin_lt (resembles.below_of_next isNext) isAfter

theorem matchesWithin_eq (key : Key) (fuel : Nat) (first : Option Nat) :
    other.matchesWithin key fuel first = one.matchesWithin key fuel first := by
  induction fuel generalizing first with
  | zero => cases first <;> rfl
  | succ fuel inductionHypothesis =>
    cases first with
    | none => rfl
    | some slot => simp only [matchesWithin, resembles.findAfter_eq, inductionHypothesis]

theorem allMatches_eq (hash : Key → UInt64) (key : Key) :
    other.allMatches hash key = one.allMatches hash key := by
  simp only [allMatches, resembles.find_eq, resembles.next, resembles.matchesWithin_eq]

theorem mem_matchesWithin_lt {key : Key} {fuel : Nat} {first : Option Nat}
    (below : ∀ slot, first = some slot → slot < limit) {slots : List Nat}
    (found : one.matchesWithin key fuel first = .ok slots) : ∀ slot ∈ slots, slot < limit := by
  induction fuel generalizing first slots with
  | zero =>
    cases first with
    | none =>
      obtain rfl := Except.ok.inj found
      simp
    | some slot => exact absurd found (by simp [matchesWithin])
  | succ fuel inductionHypothesis =>
    cases first with
    | none =>
      obtain rfl := Except.ok.inj found
      simp
    | some slot =>
      obtain ⟨behind, isAfter, found⟩ := Checked.bind_eq_ok.mp found
      obtain ⟨rest, foundRest, returned⟩ := Checked.bind_eq_ok.mp found
      obtain rfl := Except.ok.inj returned
      intro other member
      rcases List.mem_cons.mp member with rfl | member
      · exact below _ rfl
      · refine inductionHypothesis (fun target isTarget => ?_) foundRest other member
        exact resembles.findAfter_lt (by rw [isAfter, isTarget])

theorem mem_allMatches_lt {key : Key} {slots : List Nat}
    (found : one.allMatches hash key = .ok slots) : ∀ slot ∈ slots, slot < limit := by
  obtain ⟨first, isFirst, found⟩ := Checked.bind_eq_ok.mp found
  refine resembles.mem_matchesWithin_lt (fun slot isSlot => ?_) found
  exact resembles.find_lt (by rw [isFirst, isSlot])

omit [DecidableEq Key]

theorem linkedSlots_eq : other.linkedSlots = one.linkedSlots := by
  simp only [linkedSlots, resembles.next, resembles.buckets]

theorem mem_linkedSlots_lt {slots : List Nat} (linked : one.linkedSlots = .ok slots) :
    ∀ slot ∈ slots, slot < limit := by
  obtain ⟨chains, walked, returned⟩ := Checked.bind_eq_ok.mp linked
  obtain rfl := Except.ok.inj returned
  intro slot member
  obtain ⟨chain, inChains, inChain⟩ := List.mem_flatten.mp member
  obtain ⟨head, inBuckets, isChain⟩ := Checked.mem_mapM walked inChains
  refine Link.mem_walkWithin_lt (fun slot target there =>
    (resembles.inside slot target (by simp) there).2) (fun slot isHead => ?_) isChain slot inChain
  exact resembles.heads slot (by rw [← isHead]; simpa using inBuckets)

end

/-! ### Linking -/

theorem weaken (resembles : Resembles limit pending one other) {more : List Nat}
    (includes : ∀ slot ∈ pending, slot ∈ more) : Resembles limit more one other :=
  ⟨resembles.named, resembles.next, resembles.buckets, resembles.keys,
    fun slot target notPending =>
      resembles.inside slot target fun member => notPending (includes slot member),
    resembles.heads⟩

/-- A slot that is linked has the link that was the head of its bucket. -/
theorem front {slot : Nat} (resembles : Resembles limit (slot :: pending) one other)
    (below : slot < limit) (bucket : Nat) :
    Resembles limit pending (one.front bucket slot) (other.front bucket slot) := by
  have headBelow (target : Nat) (isHead : one.buckets.getD bucket none = some target) :
      target < limit := by
    rw [Array.getD_eq_getD_getElem?] at isHead
    cases there : one.buckets[bucket]? with
    | none => simp [there] at isHead
    | some head =>
      rw [there, Option.getD_some] at isHead
      exact resembles.heads target (isHead ▸ Array.mem_of_getElem? there)
  refine ⟨?_, ?_, ?_, resembles.keys, fun position target notPending there => ?_,
    fun target member => ?_⟩
  · rw [size_front_next]
    exact resembles.named
  · simp only [HashChains.front, resembles.next, resembles.buckets]
  · simp only [HashChains.front, resembles.buckets]
  · by_cases same : slot = position
    · subst same
      have inside := (Array.getElem?_eq_some_iff.mp there).1
      rw [size_front_next] at inside
      rw [HashChains.front, Array.getElem?_setIfInBounds_self_of_lt inside] at there
      exact ⟨below, headBelow target (Option.some.inj there)⟩
    · rw [HashChains.front, Array.getElem?_setIfInBounds_ne same] at there
      refine resembles.inside position target (fun member => ?_) there
      rcases List.mem_cons.mp member with equal | later
      · exact same equal.symm
      · exact notPending later
  · rcases Array.mem_or_eq_of_mem_setIfInBounds member with old | new
    · exact resembles.heads target old
    · rw [Option.some.inj new]
      exact below

end Resembles

theorem front_of_link {chains changed : HashChains Key} {slot : Nat} {answer : Unit}
    (named : chains.next.size ≤ Link.slotLimit)
    (run : link hash slot chains = .ok answer changed) : ∃ key, 0 < chains.buckets.size ∧
      chains.keys[slot]? = some key ∧ slot < chains.next.size ∧
      changed = chains.front (home hash chains key) slot := by
  obtain ⟨key, isKey, bucketed⟩ := Edit.lift_bind_eq_ok.mp run
  obtain ⟨bucket, isBucket, headed⟩ := Edit.lift_bind_eq_ok.mp bucketed
  obtain ⟨_, positive, -⟩ := Checked.bind_eq_ok.mp isBucket
  obtain ⟨head, -, required⟩ := Edit.lift_bind_eq_ok.mp headed
  obtain ⟨_, inside, -⟩ := Edit.lift_bind_eq_ok.mp required
  have buckets := require_eq_ok.mp positive
  have there := orFail_eq_ok.mp isKey
  have below := require_eq_ok.mp inside
  have explicit :=
    @run_link _ hash chains buckets slot key there below (Nat.lt_of_lt_of_le below named)
  exact ⟨key, buckets, there, below, (EStateM.Result.ok.inj (run.symm.trans explicit)).2⟩

theorem transfers_link {slot : Nat} (below : slot < limit) :
    Edit.Transfers (Resembles limit (slot :: pending)) (Resembles limit pending)
      (link hash slot : Edit (HashChains Key) Unit) := by
  intro one other answer changed resembles run
  obtain ⟨key, positive, there, inside, rfl⟩ := front_of_link resembles.named run
  have same : home hash other key = home hash one key :=
    congrFun (home_congr (congrArg Array.size resembles.buckets)) key
  refine ⟨_, run_link (by rw [resembles.buckets]; exact positive)
    ((resembles.keys.member slot below).trans there) (by rw [resembles.next]; exact inside)
    (Nat.lt_of_lt_of_le inside resembles.named), ?_⟩
  rw [same]
  exact resembles.front below _

/-- A slot that gets a key is about to be linked. -/
theorem Resembles.set_key (resembles : Resembles limit [] one other) {slot : Nat}
    (next : slot ≤ limit) (key : Key) : Resembles (max limit (slot + 1)) [slot]
      { one with keys := one.keys.setIfInBounds slot key }
      { other with keys := other.keys.setIfInBounds slot key } := by
  refine ⟨resembles.named, resembles.next, resembles.buckets, resembles.keys.set next key,
    fun position target _ there => ?_, fun target member => ?_⟩
  · have inside := resembles.inside position target (by simp) there
    omega
  · have inside := resembles.heads target member
    omega

theorem transfers_insert {slot : Nat} (next : slot ≤ limit) (key : Key) :
    Edit.Transfers (Resembles limit []) (Resembles (max limit (slot + 1)) [])
      (insert hash slot key) := by
  intro one other answer changed resembles run
  obtain ⟨_, inside, linked⟩ := Edit.lift_bind_eq_ok.mp run
  have below := require_eq_ok.mp inside
  obtain ⟨twin, ran, resemblesTwin⟩ := transfers_link (by omega) _ _ _ _
    (resembles.set_key next key) linked
  refine ⟨twin, ?_, resemblesTwin⟩
  exact Edit.lift_bind_eq_ok.mpr ⟨(), require_of (by rw [resembles.keys.size]; exact below) _, ran⟩

/-! ### Unlinking -/

/-- A link may be led past a slot. -/
theorem Resembles.bypass (resembles : Resembles limit [] one other) {slot : Nat} {successor : Link}
    (isNext : one.next[slot]? = some successor) (bucket : Nat) {previous : Option Nat}
    (below : ∀ before, previous = some before → before < limit) :
    Resembles limit [] (one.bypass bucket previous successor)
      (other.bypass bucket previous successor) := by
  have leads (target : Nat) (isTarget : successor = some target) : target < limit :=
    (resembles.inside slot target (by simp) (by rw [isNext, isTarget])).2
  cases previous with
  | none =>
    refine ⟨resembles.named, resembles.next, by simp only [HashChains.bypass, resembles.buckets],
      resembles.keys, resembles.inside, fun target member => ?_⟩
    rcases Array.mem_or_eq_of_mem_setIfInBounds member with old | new
    · exact resembles.heads target old
    · exact leads target new.symm
  | some before =>
    refine ⟨by rw [size_bypass_next]; exact resembles.named,
      by simp only [HashChains.bypass, resembles.next], resembles.buckets,
      resembles.keys, fun position target _ there => ?_, resembles.heads⟩
    by_cases same : before = position
    · subst same
      have inside := (Array.getElem?_eq_some_iff.mp there).1
      rw [size_bypass_next] at inside
      rw [HashChains.bypass, Array.getElem?_setIfInBounds_self_of_lt inside] at there
      exact ⟨below before rfl, leads target (Option.some.inj there)⟩
    · rw [HashChains.bypass, Array.getElem?_setIfInBounds_ne same] at there
      exact resembles.inside position target (by simp) there

theorem transfers_unlinkWithin {slot bucket fuel : Nat} {previous : Option Nat} {current : Link}
    (before : ∀ other, previous = some other → other < limit)
    (here : ∀ other, current = some other → other < limit) :
    Edit.Transfers (Resembles limit []) (Resembles limit [])
      (unlinkWithin slot bucket fuel previous current : Edit (HashChains Key) Bool) := by
  induction fuel generalizing previous current with
  | zero =>
    cases current with
    | none => exact .pure false
    | some place => exact fun _ _ _ _ _ run => by simp [unlinkWithin] at run
  | succ fuel inductionHypothesis =>
    cases current with
    | none => exact .pure false
    | some place =>
      intro one other answer changed resembles run
      obtain ⟨successor, isNext, run⟩ := Edit.lift_bind_eq_ok.mp run
      have there := orFail_eq_ok.mp isNext
      have isNextTwin : fetch other.next place = .ok successor := by rw [resembles.next, isNext]
      by_cases found : place = slot
      · refine ⟨other.bypass bucket previous successor, ?_, ?_⟩
        · simp only [unlinkWithin, Edit.run_bind, Edit.run_get, isNextTwin, Edit.run_lift_ok,
            if_pos found]
          rw [if_pos found] at run
          cases previous <;> obtain ⟨rfl, -⟩ := EStateM.Result.ok.inj run <;> rfl
        · rw [if_pos found] at run
          have same : changed = one.bypass bucket previous successor := by
            cases previous <;> exact (EStateM.Result.ok.inj run).2.symm
          rw [same]
          exact resembles.bypass there bucket before
      · rw [if_neg found] at run
        obtain ⟨twin, ran, resemblesTwin⟩ :=
          inductionHypothesis here (resembles.below_of_next isNext) _ _ _ _ resembles run
        refine ⟨twin, ?_, resemblesTwin⟩
        simp only [unlinkWithin, Edit.run_bind, Edit.run_get, isNextTwin, Edit.run_lift_ok,
          if_neg found, ran]

theorem transfers_unlink {slot : Nat} (below : slot < limit) :
    Edit.Transfers (Resembles limit []) (Resembles limit [])
      (unlink hash slot : Edit (HashChains Key) Bool) := by
  intro one other answer changed resembles run
  obtain ⟨key, isKey, bucketed⟩ := Edit.lift_bind_eq_ok.mp run
  obtain ⟨bucket, isBucket, headed⟩ := Edit.lift_bind_eq_ok.mp bucketed
  obtain ⟨head, isHead, within⟩ := Edit.lift_bind_eq_ok.mp headed
  obtain ⟨twin, ran, resemblesTwin⟩ := transfers_unlinkWithin (fun _ none => by cases none)
    (fun target isTarget => resembles.heads target
      (isTarget ▸ Array.mem_of_getElem? (orFail_eq_ok.mp isHead))) _ _ _ _ resembles within
  refine ⟨twin, ?_, resemblesTwin⟩
  have isKeyTwin : fetch other.keys slot = .ok key := by
    rw [resembles.keys.fetch_eq below]
    exact isKey
  have isBucketTwin : other.bucket hash key = .ok bucket := by
    rw [← isBucket, HashChains.bucket, resembles.buckets, HashChains.bucket]
  have isHeadTwin : fetch other.buckets bucket = .ok head := by rw [resembles.buckets, isHead]
  simp only [unlink, Edit.run_bind, Edit.run_get, isKeyTwin, isBucketTwin, isHeadTwin,
    Edit.run_lift_ok, resembles.next, ran]

/-! ### Rebuilding -/

/-- The tables have the same sizes, and the same keys up to a limit. -/
structure SameSized (limit : Nat) (one other : HashChains Key) : Prop where
  named : one.next.size ≤ Link.slotLimit
  next : other.next.size = one.next.size
  buckets : other.buckets.size = one.buckets.size
  keys : SameBelow limit one.keys other.keys

/-- Cleared tables resemble each other as far as their keys are the same. -/
theorem transfers_clear :
    Edit.Transfers (SameSized limit) (Resembles limit []) (clear : Edit (HashChains Key) Unit) := by
  refine .modify fun one other sized => ⟨?_, ?_, ?_, sized.keys, fun slot target _ there => ?_,
    fun target member => ?_⟩
  · rw [Array.size_replicate]
    exact sized.named
  · simp only [sized.next]
  · simp only [sized.buckets]
  · rw [Array.getElem?_replicate] at there
    split at there <;> simp at there
  · simp at member

/-- Slots that are linked one after another end all links that do not matter. -/
theorem transfers_links {slots : List Nat} (below : ∀ slot ∈ slots, slot < limit) :
    Edit.Transfers (Resembles limit slots) (Resembles limit [])
      (slots.forM (link hash) : Edit (HashChains Key) Unit) := by
  induction slots with
  | nil => exact .pure ()
  | cons slot rest inductionHypothesis =>
    rw [List.forM_eq_forM, List.forM_cons]
    exact (transfers_link (below slot List.mem_cons_self)).bind fun _ =>
      inductionHypothesis fun other member => below other (List.mem_cons_of_mem _ member)

/-- The link of a slot is read before the slot is linked anew. -/
theorem transfers_relinkWithin {fuel : Nat} {first : Link}
    (below : ∀ slot, first = some slot → slot < limit) :
    Edit.Transfers (Resembles limit []) (Resembles limit [])
      (relinkWithin hash fuel first : Edit (HashChains Key) Unit) := by
  induction fuel generalizing first with
  | zero =>
    cases first with
    | none => exact .pure ()
    | some slot => exact fun _ _ _ _ _ run => by simp [relinkWithin] at run
  | succ fuel inductionHypothesis =>
    cases first with
    | none => exact .pure ()
    | some slot =>
      refine .read (fun one other resembles => by rw [resembles.next]) fun successor => ?_
      intro one other answer changed resembles run
      have rest := inductionHypothesis (resembles.1.below_of_next resembles.2)
      exact ((transfers_link (below slot rfl)).weaken (fun _ _ related =>
        related.weaken fun _ member => absurd member List.not_mem_nil) fun _ _ => id).bind
          (fun _ => rest) _ _ _ _ resembles.1 run

/-- The chains that start in a list of old heads are linked anew. -/
theorem transfers_relinkAll {fuel : Nat} {heads : List Link}
    (below : ∀ slot, some slot ∈ heads → slot < limit) :
    Edit.Transfers (Resembles limit []) (Resembles limit [])
      (heads.forM (relinkWithin hash fuel) : Edit (HashChains Key) Unit) := by
  induction heads with
  | nil => exact .pure ()
  | cons head rest inductionHypothesis =>
    rw [List.forM_eq_forM, List.forM_cons]
    refine (transfers_relinkWithin fun slot isHead => below slot ?_).bind fun _ =>
      inductionHypothesis fun slot member => below slot (List.mem_cons_of_mem _ member)
    rw [isHead]
    exact List.mem_cons_self

/-- The buckets that a rehash empties first play no part. -/
theorem transfers_rehash {oldBuckets : Array Link}
    (below : ∀ slot, some slot ∈ oldBuckets → slot < limit) :
    Edit.Transfers (fun one other : HashChains Key => Resembles limit [] one.cleared other.cleared)
      (Resembles limit []) (rehash hash oldBuckets) := by
  intro one other answer changed resembles run
  have size : other.next.size = one.next.size := congrArg Array.size resembles.next
  simp only [rehash, clearBuckets, Edit.run_bind, Edit.run_modify, Edit.run_get] at run ⊢
  rw [size]
  exact transfers_relinkAll (fun slot member => below slot (by simpa using member)) _ _ _ _
    resembles run

theorem transfers_rebuild {slots : List Nat} (below : ∀ slot ∈ slots, slot < limit) :
    Edit.Transfers
      (fun one other : HashChains Key => Resembles limit slots one.cleared other.cleared)
      (Resembles limit []) (rebuild hash slots) := by
  intro one other answer changed resembles run
  simp only [rebuild, clearBuckets, Edit.run_bind, Edit.run_modify] at run ⊢
  exact transfers_links below _ _ _ _ resembles run

/-- When a range is taken out of the slots below the limit, the slots that are left are those below
a lower one. -/
theorem transfers_removeRange {start count rows : Nat} :
    Edit.Transfers (Resembles rows []) (Resembles (rows - count) [])
      (removeRange hash start count rows : Edit (HashChains Key) Unit) := by
  intro one other answer changed resembles run
  obtain ⟨moved, isMoved, run⟩ := Edit.lift_bind_eq_ok.mp run
  obtain ⟨filled, isFilled, run⟩ := Edit.lift_bind_eq_ok.mp run
  obtain ⟨⟨range, fitsKeys⟩, rfl⟩ := moveDown?_eq_ok.mp isMoved
  obtain ⟨⟨fits, fitsNext⟩, rfl⟩ := fillRange?_eq_ok.mp isFilled
  have below (slot : Nat) (member : slot ∈ List.range (rows - count)) : slot < rows - count :=
    List.mem_range.mp member
  let moved (table : HashChains Key) : HashChains Key :=
    { table with
      keys := moveDown table.keys start count rows
      next := fillRange table.next (rows - count) rows none }
  have emptied : Resembles (rows - count) (List.range (rows - count)) (moved one).cleared
      (moved other).cleared := by
    refine ⟨?_, ?_, ?_, resembles.keys.moveDown range fitsKeys,
      fun slot target notLeft there => ?_, fun target member => ?_⟩
    · exact Nat.le_trans (Nat.le_of_eq (size_fillRange fits fitsNext)) resembles.named
    · simp only [moved, cleared, resembles.next]
    · simp only [moved, cleared, resembles.buckets]
    · rw [List.mem_range, Nat.not_lt] at notLeft
      change (fillRange one.next (rows - count) rows none)[slot]? = some (some target) at there
      by_cases dropped : slot < rows
      · rw [getElem?_fillRange_inside (Nat.le_trans fits fitsNext) notLeft dropped] at there
        cases there
      · rw [getElem?_fillRange_behind fits fitsNext (Nat.le_of_not_lt dropped)] at there
        exact absurd (resembles.inside slot target (by simp) there).1 dropped
    · simp [moved, cleared] at member
  obtain ⟨twin, ran, resemblesTwin⟩ := transfers_rebuild below _ _ _ _ emptied run
  refine ⟨twin, Edit.lift_bind_eq_ok.mpr ⟨_, moveDown?_of range ?_, ?_⟩, resemblesTwin⟩
  · rw [resembles.keys.size]
    exact fitsKeys
  · refine Edit.lift_bind_eq_ok.mpr ⟨_, fillRange?_of fits ?_, ran⟩
    show rows ≤ other.next.size
    rw [resembles.next]
    exact fitsNext

/-- Two tables that start like one with fewer slots: beyond these slots, nothing is known but the
lengths. -/
structure Enlarged (limit capacity : Nat) (one other : HashChains Key) : Prop where
  named : one.next.size ≤ Link.slotLimit
  size_buckets : other.buckets.size = one.buckets.size
  keys : SameBelow limit one.keys other.keys
  next : SameBelow capacity one.next other.next
  inside : ∀ slot target, slot < capacity → one.next[slot]? = some (some target) →
    slot < limit ∧ target < limit

/-- The links beyond the old slots are ended before any link is followed. -/
theorem transfers_endLinksFrom {capacity : Nat} :
    Edit.Transfers (Enlarged limit capacity)
      (fun one other : HashChains Key => Resembles limit [] one.cleared other.cleared)
      (endLinksFrom capacity) := by
  intro one other answer changed enlarged run
  obtain ⟨filled, isFilled, run⟩ := Edit.lift_bind_eq_ok.mp run
  obtain ⟨⟨fits, -⟩, rfl⟩ := fillRange?_eq_ok.mp isFilled
  obtain ⟨-, rfl⟩ := EStateM.Result.ok.inj run
  have fitsOther : capacity ≤ other.next.size := by rw [enlarged.next.size]; exact fits
  refine ⟨{ other with next := fillRange other.next capacity other.next.size none },
    Edit.lift_bind_eq_ok.mpr ⟨_, fillRange?_of fitsOther (Nat.le_refl _), rfl⟩, ?_, ?_, ?_,
    enlarged.keys, fun slot target _ there => ?_, fun target member => ?_⟩
  · exact Nat.le_trans (Nat.le_of_eq (size_fillRange fits (Nat.le_refl _))) enlarged.named
  · exact enlarged.next.fillRange_eq fits none
  · simp only [cleared, enlarged.size_buckets]
  · change (fillRange one.next capacity one.next.size none)[slot]? = some (some target) at there
    by_cases before : slot < capacity
    · rw [getElem?_fillRange_before fits before] at there
      exact enlarged.inside slot target before there
    · have size := @size_fillRange _ one.next capacity one.next.size none fits (Nat.le_refl _)
      have inside := (Array.getElem?_eq_some_iff.mp there).1
      rw [getElem?_fillRange_inside fits (Nat.le_of_not_lt before) (by omega)] at there
      cases there
  · simp [cleared] at member

end HashChains

/-! ### Free slots -/

/-- All links lead from slots below the limit to slots below it, and they can name all slots. -/
structure FreeSlots.Within (limit : Nat) (free : FreeSlots) : Prop where
  named : free.next.size ≤ Link.slotLimit
  head : ∀ slot, free.head = some slot → slot < limit
  next : ∀ slot target, free.next[slot]? = some (some target) → slot < limit ∧ target < limit

namespace FreeSlots.Within

variable {limit : Nat} {free changed : FreeSlots}

theorem set (within : Within limit free) {slot : Nat} (below : slot < limit) {link : Link}
    (leads : ∀ target, link = some target → target < limit) {head : Link}
    (isHead : ∀ target, head = some target → target < limit) :
    Within limit { head, next := free.next.setIfInBounds slot link } := by
  refine ⟨by rw [Array.size_setIfInBounds]; exact within.named, isHead,
    fun position target there => ?_⟩
  by_cases same : slot = position
  · subst same
    have inside := (Array.getElem?_eq_some_iff.mp there).1
    rw [Array.size_setIfInBounds] at inside
    rw [Array.getElem?_setIfInBounds_self_of_lt inside] at there
    exact ⟨below, leads target (Option.some.inj there)⟩
  · rw [Array.getElem?_setIfInBounds_ne same] at there
    exact within.next position target there

/-- A slot that is popped was below the limit. -/
theorem pop (within : Within limit free) {found : Option Nat}
    (run : FreeSlots.pop free = .ok found changed) :
    Within limit changed ∧ ∀ slot, found = some slot → slot < limit := by
  cases isHead : free.head with
  | none =>
    simp only [FreeSlots.pop, Edit.run_bind, Edit.run_get, isHead, Edit.run_pure] at run
    obtain ⟨rfl, rfl⟩ := EStateM.Result.ok.inj run
    exact ⟨within, fun _ absurdity => absurd absurdity (by simp)⟩
  | some slot =>
    rw [FreeSlots.pop, Edit.run_bind, Edit.run_get] at run
    simp only [isHead] at run
    obtain ⟨successor, isNext, run⟩ := Edit.lift_bind_eq_ok.mp run
    obtain ⟨rfl, rfl⟩ := EStateM.Result.ok.inj run
    have below := within.head slot isHead
    refine ⟨within.set below (fun _ absurdity => absurd absurdity (by simp)) fun target same => ?_,
      fun _ same => Option.some.inj same ▸ below⟩
    exact (within.next slot target (same ▸ orFail_eq_ok.mp isNext)).2

theorem push (within : Within limit free) {slot : Nat} (below : slot < limit) {answer : Unit}
    (run : FreeSlots.push slot free = .ok answer changed) : Within limit changed := by
  obtain ⟨_, inside, run⟩ := Edit.lift_bind_eq_ok.mp run
  obtain ⟨-, rfl⟩ := EStateM.Result.ok.inj run
  have named := Nat.lt_of_lt_of_le (require_eq_ok.mp inside) within.named
  rw [Link.ofSlot_of_lt named]
  exact within.set below within.head fun target same => Option.some.inj same ▸ below

end FreeSlots.Within

end PackedStore
