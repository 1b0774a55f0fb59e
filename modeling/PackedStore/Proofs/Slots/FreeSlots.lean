/-
This file gives a list of free slots its meaning as a stack. The links that the
list shares with a chain change at the slot that comes or goes only. Whatever is
asked of the list, one request after another, its answers are those of the stack,
and the chains of other slots stand throughout. A slot that links cannot name is lost
when it is put on the list.
-/

import PackedStore.Proofs.Slots.Chain
import PackedStore.Slots.FreeSlots

namespace PackedStore.FreeSlots

variable {free : FreeSlots} {stack : List Nat} {slot : Nat}

/-- The list leads through a stack of slots, the one freed last on top. -/
def Stacked (free : FreeSlots) (stack : List Nat) : Prop :=
  Link.Leads free.next free.head stack

/-- The list with a slot in front. -/
def pushed (free : FreeSlots) (slot : Nat) : FreeSlots where
  head := some slot
  next := free.next.setIfInBounds slot free.head

theorem run_push (inside : slot < free.next.size) (named : slot < Link.slotLimit) :
    push slot free = .ok () (free.pushed slot) := by
  simp only [push, Edit.run_bind, Edit.run_get, require_of inside, Edit.run_lift_ok, Edit.run_set,
    Link.ofSlot_of_lt named]
  rfl

theorem Stacked.pushed (stacked : Stacked free stack) (inside : slot < free.next.size)
    (other : slot ∉ stack) : Stacked (free.pushed slot) (slot :: stack) :=
  Link.Leads.set_front stacked inside other

theorem Stacked.run_pop_nil (stacked : Stacked free []) : pop free = .ok none free := by
  have empty : free.head = none := stacked
  simp only [pop, Edit.run_bind, Edit.run_get, empty, Edit.run_pure]

/-- Taking a slot leaves the rest of the stack, and ends the link of the slot. -/
theorem Stacked.run_pop_cons (stacked : Stacked free (slot :: stack)) :
    ∃ head, pop free =
        .ok (some slot) { head, next := free.next.setIfInBounds slot none } ∧
      Stacked { head, next := free.next.setIfInBounds slot none } stack := by
  have distinct := stacked.nodup
  obtain ⟨here, successor, there, leadsRest⟩ := stacked
  refine ⟨successor, ?_, leadsRest.set_other (List.nodup_cons.mp distinct).1⟩
  simp only [pop, Edit.run_bind, Edit.run_get, here, fetch_of there, Edit.run_lift_ok,
    Edit.run_set, Edit.run_pure]

theorem Stacked.isEmpty_iff (stacked : Stacked free stack) : free.isEmpty = stack.isEmpty := by
  cases stack with
  | nil =>
    have empty : free.head = none := stacked
    simp [isEmpty, empty]
  | cons slot stack => simp [isEmpty, stacked.1]

theorem Stacked.count_eq (stacked : Stacked free stack) : free.count = .ok stack.length := by
  rw [count, Link.walk_of_leads stacked]
  rfl

/-! ### Requests -/

/-- What can be asked of a list of free slots. -/
inductive Request
  | push (slot : Nat)
  | pop
  | count
  | isEmpty
deriving DecidableEq, Repr

/-- What a list of free slots says to a request. -/
inductive Answer
  | done
  | taken (slot : Option Nat)
  | number (count : Nat)
  | truth (holds : Bool)
deriving DecidableEq, Repr

namespace Request

/-- Serves a request from the list. -/
def serve : Request → Edit FreeSlots Answer
  | .push slot => do
    FreeSlots.push slot
    return .done
  | .pop => return .taken (← FreeSlots.pop)
  | .count => do
    let free ← get
    return .number (← free.count)
  | .isEmpty => do
    let free ← get
    return .truth free.isEmpty

/-- The answer of a stack. -/
def answer (stack : List Nat) : Request → Answer
  | .push _ => .done
  | .pop => .taken stack.head?
  | .count => .number stack.length
  | .isEmpty => .truth stack.isEmpty

/-- What a request makes of a stack. -/
def stackAfter (stack : List Nat) : Request → List Nat
  | .push slot => slot :: stack
  | .pop => stack.tail
  | .count => stack
  | .isEmpty => stack

/-- The slot that a request puts on a stack or takes from it. -/
def moved (stack : List Nat) : Request → Option Nat
  | .push slot => some slot
  | .pop => stack.head?
  | .count => none
  | .isEmpty => none

/-- Only a slot of the array that links can name and that is not on the stack may be put there. -/
def Allowed (size : Nat) (stack : List Nat) (request : Request) : Prop :=
  ∀ slot, request = .push slot → slot < size ∧ slot < Link.slotLimit ∧ slot ∉ stack

end Request

/-- What serving a request from a list with a given stack comes to. -/
structure Served (free : FreeSlots) (stack : List Nat) (request : Request) (later : FreeSlots) :
    Prop where
  serve : request.serve free = .ok (request.answer stack) later
  stacked : Stacked later (request.stackAfter stack)
  size : later.next.size = free.next.size
  /-- A request that moves no slot changes nothing, such as taking one from the empty stack. -/
  idle : request.moved stack = none → later = free
  /-- No other link than that of the moved slot changes. -/
  others : ∀ slot, request.moved stack ≠ some slot → later.next[slot]? = free.next[slot]?
  /-- The link of a slot that was taken is an end. -/
  ended : request = .pop → ∀ slot ∈ stack.head?, later.next[slot]? = some none

theorem Served.of_read {request : Request} (stacked : Stacked free stack)
    (serve : request.serve free = .ok (request.answer stack) free)
    (same : request.stackAfter stack = stack) (other : request = .pop → stack = []) :
    Served free stack request free where
  serve
  stacked := by rwa [same]
  size := rfl
  idle _ := rfl
  others _ _ := rfl
  ended isPop := by simp [other isPop]

theorem Stacked.served_push (stacked : Stacked free stack) (inside : slot < free.next.size)
    (named : slot < Link.slotLimit) (other : slot ∉ stack) :
    Served free stack (.push slot) (free.pushed slot) where
  serve := by
    simp only [Request.serve, Edit.run_bind, run_push inside named, Edit.run_pure]
    rfl
  stacked := stacked.pushed inside other
  size := Array.size_setIfInBounds
  idle moved := by simp [Request.moved] at moved
  others another different :=
    Array.getElem?_setIfInBounds_ne fun same => different (congrArg some same)
  ended isPop := by simp at isPop

theorem Stacked.served_pop (stacked : Stacked free stack) : ∃ later, Served free stack .pop later := by
  cases stack with
  | nil =>
    refine ⟨free, Served.of_read stacked ?_ rfl fun _ => rfl⟩
    simp only [Request.serve, Edit.run_bind, stacked.run_pop_nil, Edit.run_pure]
    rfl
  | cons slot stack =>
    have inside : slot < free.next.size := stacked.lt_size slot List.mem_cons_self
    obtain ⟨head, run, leadsRest⟩ := stacked.run_pop_cons
    refine ⟨_, ⟨?_, leadsRest, Array.size_setIfInBounds, ?_, ?_, ?_⟩⟩
    · simp only [Request.serve, Edit.run_bind, run, Edit.run_pure]
      rfl
    · intro moved
      simp [Request.moved] at moved
    · intro another different
      exact Array.getElem?_setIfInBounds_ne fun same => different (congrArg some same)
    · intro _ taken isTop
      obtain rfl : slot = taken := by simpa using isTop
      exact Array.getElem?_setIfInBounds_self_of_lt inside

/-- The list serves a request as its stack does, and keeps every other link. -/
theorem Stacked.served {request : Request} (stacked : Stacked free stack)
    (allowed : request.Allowed free.next.size stack) :
    ∃ later, Served free stack request later := by
  cases request with
  | push slot =>
    obtain ⟨inside, named, other⟩ := allowed slot rfl
    exact ⟨_, stacked.served_push inside named other⟩
  | pop => exact stacked.served_pop
  | count =>
    refine ⟨free, Served.of_read stacked ?_ rfl (by simp)⟩
    simp only [Request.serve, Edit.run_bind, Edit.run_get, stacked.count_eq, Edit.run_lift_ok,
      Edit.run_pure]
    rfl
  | isEmpty =>
    refine ⟨free, Served.of_read stacked ?_ rfl (by simp)⟩
    simp only [Request.serve, Edit.run_bind, Edit.run_get, stacked.isEmpty_iff, Edit.run_pure]
    rfl

/-! ### One request after another -/

/-- The answers of a stack to requests, in order. -/
def answers : List Nat → List Request → List Answer
  | _, [] => []
  | stack, request :: rest => request.answer stack :: answers (request.stackAfter stack) rest

/-- What requests make of a stack. -/
def stackBehind (stack : List Nat) (requests : List Request) : List Nat :=
  requests.foldl Request.stackAfter stack

/-- The slots that requests put on a stack or take from it. -/
def movedSlots : List Nat → List Request → List Nat
  | _, [] => []
  | stack, request :: rest =>
    (request.moved stack).toList ++ movedSlots (request.stackAfter stack) rest

/-- Each request is allowed at the stack that those before it leave. -/
def AllAllowed (size : Nat) : List Nat → List Request → Prop
  | _, [] => True
  | stack, request :: rest =>
    request.Allowed size stack ∧ AllAllowed size (request.stackAfter stack) rest

variable {before after requests : List Request}

theorem allAllowed_append {size : Nat} :
    AllAllowed size stack (before ++ after) ↔
      AllAllowed size stack before ∧ AllAllowed size (stackBehind stack before) after := by
  induction before generalizing stack with
  | nil => simp [AllAllowed, stackBehind]
  | cons request before inductionHypothesis =>
    simp only [List.cons_append, AllAllowed, inductionHypothesis, and_assoc, stackBehind,
      List.foldl_cons]

/-- The list serves requests one after another as its stack does, and keeps the links of all slots
that none of them moves. -/
theorem Stacked.run (stacked : Stacked free stack)
    (allowed : AllAllowed free.next.size stack requests) :
    ∃ later, requests.mapM Request.serve free = .ok (answers stack requests) later ∧
      Stacked later (stackBehind stack requests) ∧ later.next.size = free.next.size ∧
      ∀ slot ∉ movedSlots stack requests, later.next[slot]? = free.next[slot]? := by
  induction requests generalizing free stack with
  | nil => exact ⟨free, rfl, stacked, rfl, fun _ _ => rfl⟩
  | cons request rest inductionHypothesis =>
    obtain ⟨between, served⟩ := stacked.served allowed.1
    obtain ⟨later, run, stackedLater, size, others⟩ :=
      inductionHypothesis served.stacked (by rw [served.size]; exact allowed.2)
    refine ⟨later, ?_, stackedLater, size.trans served.size, ?_⟩
    · simp only [List.mapM_cons, Edit.run_bind, served.serve, run, Edit.run_pure, answers]
    · intro slot unmoved
      simp only [movedSlots, List.mem_append, Option.mem_toList, not_or] at unmoved
      rw [others slot unmoved.2, served.others slot unmoved.1]

/-- A list of free slots is a stack. Starting from any stack, requests are answered as the stack
answers them, and at each of them only the link of the slot that it moves changes; so the chains
of slots that no request moves stand in the end. -/
theorem Stacked.serves_as_stack (stacked : Stacked free stack)
    (allowed : AllAllowed free.next.size stack requests) :
    (∃ later, requests.mapM Request.serve free = .ok (answers stack requests) later ∧
      Stacked later (stackBehind stack requests) ∧
      ∀ first chain, Link.Leads free.next first chain →
        (∀ slot ∈ chain, slot ∉ movedSlots stack requests) →
        Link.Leads later.next first chain) ∧
    ∀ before request after, requests = before ++ request :: after →
      ∃ earlier later,
        before.mapM Request.serve free = .ok (answers stack before) earlier ∧
        Served earlier (stackBehind stack before) request later := by
  constructor
  · obtain ⟨later, run, stackedLater, -, others⟩ := stacked.run allowed
    exact ⟨later, run, stackedLater, fun first chain leads unmoved =>
      leads.congr fun slot member => others slot (unmoved slot member)⟩
  · rintro before request after rfl
    obtain ⟨allowedBefore, allowedHere, -⟩ := allAllowed_append.mp allowed
    obtain ⟨earlier, run, stackedEarlier, size, -⟩ := stacked.run allowedBefore
    obtain ⟨later, served⟩ := stackedEarlier.served (by rw [size]; exact allowedHere)
    exact ⟨earlier, later, run, served⟩

/-- Of four slots one is free, and another one is the only slot of a chain. -/
def oneOfFour : FreeSlots where
  head := some 2
  next := #[none, none, none, none]

/-- Everything asked of a list of free slots, down to the empty list. -/
def downToEmpty : List Request :=
  [.push 1, .push 3, .count, .pop, .pop, .isEmpty, .pop, .pop, .isEmpty]

theorem serves_as_stack_oneOfFour :
    Stacked oneOfFour [2] ∧ AllAllowed oneOfFour.next.size [2] downToEmpty ∧
      ∃ later, downToEmpty.mapM Request.serve oneOfFour =
          .ok [.done, .done, .number 3, .taken (some 3), .taken (some 1), .truth false,
            .taken (some 2), .taken none, .truth true] later ∧
        Stacked later [] ∧ Link.Leads later.next (some 0) [0] := by
  have stacked : Stacked oneOfFour [2] := ⟨rfl, none, rfl, rfl⟩
  have allowed : AllAllowed oneOfFour.next.size [2] downToEmpty := by
    simp [AllAllowed, downToEmpty, Request.Allowed, Request.stackAfter, oneOfFour, Link.slotLimit]
  obtain ⟨later, run, stackedLater, chains⟩ := (stacked.serves_as_stack allowed).1
  exact ⟨stacked, allowed, later, run, stackedLater,
    chains (some 0) [0] ⟨rfl, none, rfl, rfl⟩ (by decide)⟩

/-! ### Slots without a name -/

/-- The first slot without a name is put on a list and does not come off it again. -/
theorem run_push_pop_unnamed (inside : Link.slotLimit < free.next.size)
    (small : free.next.size ≤ 2 ^ 64 - 2 ^ 31) :
    ∃ later, [Request.push Link.slotLimit, .pop].mapM Request.serve free =
      .error (.fault .outOfRange) later := by
  have pushed : FreeSlots.push Link.slotLimit free =
      .ok () ⟨some (2 ^ 64 - 2 ^ 31), free.next.setIfInBounds Link.slotLimit free.head⟩ := by
    simp only [push, Edit.run_bind, Edit.run_get, require_of inside, Edit.run_lift_ok,
      Edit.run_set, Link.ofSlot_slotLimit]
  have outside : (free.next.setIfInBounds Link.slotLimit free.head)[2 ^ 64 - 2 ^ 31]? = none :=
    Array.getElem?_eq_none (by rw [Array.size_setIfInBounds]; exact small)
  have missing : fetch (free.next.setIfInBounds Link.slotLimit free.head) (2 ^ 64 - 2 ^ 31) =
      .error (.fault .outOfRange) := by
    rw [fetch, outside]
    rfl
  refine ⟨⟨some (2 ^ 64 - 2 ^ 31), free.next.setIfInBounds Link.slotLimit free.head⟩, ?_⟩
  simp only [List.mapM_cons, Request.serve, Edit.run_bind, pushed, Edit.run_pure, pop,
    Edit.run_get, missing, Edit.run_lift_error]

/-- No slot is free, and there is one slot more than links can name. -/
def overfull : FreeSlots where
  head := none
  next := Array.replicate (Link.slotLimit + 1) none

/-- A stack would give the slot back. -/
theorem overfull_slot_lost :
    Stacked overfull [] ∧ Link.slotLimit < overfull.next.size ∧
      answers [] [.push Link.slotLimit, .pop] = [.done, .taken (some Link.slotLimit)] ∧
      ∃ later, [Request.push Link.slotLimit, .pop].mapM Request.serve overfull =
        .error (.fault .outOfRange) later := by
  have size : overfull.next.size = Link.slotLimit + 1 := by
    rw [overfull, Array.size_replicate]
  have inside : Link.slotLimit < overfull.next.size := by
    rw [size]
    exact Nat.lt_succ_self _
  have small : overfull.next.size ≤ 2 ^ 64 - 2 ^ 31 := by
    rw [size]
    decide
  exact ⟨Link.leads_nil.mpr rfl, inside, rfl, run_push_pop_unnamed inside small⟩

end PackedStore.FreeSlots
