/-
This file gives chains of links their meaning as lists of slots. A first link and
an array of links lead through a list when each slot of the list is the link
before it and the last link is an end. Such a list is unique and repeats nothing,
so a walk through all slots finds it, and a change of other links keeps it.
-/

import PackedStore.Slots.FreeSlots

namespace PackedStore.Link

/-- The links lead from a first one through the listed slots, in order, to an end. -/
def Leads (next : Array Link) : Link → List Nat → Prop
  | first, [] => first = none
  | first, slot :: rest =>
    first = some slot ∧ ∃ successor, next[slot]? = some successor ∧ Leads next successor rest

variable {next : Array Link} {first : Link} {slots : List Nat}

@[simp] theorem leads_nil : Leads next first [] ↔ first = none := Iff.rfl

/-! ### The list of a chain -/

/-- A first link leads through one list only. -/
theorem Leads.unique {others : List Nat} (left : Leads next first slots)
    (right : Leads next first others) : slots = others := by
  induction slots generalizing first others with
  | nil =>
    cases others with
    | nil => rfl
    | cons slot rest =>
      rw [leads_nil] at left
      rw [left] at right
      exact absurd right.1 (by simp)
  | cons slot rest inductionHypothesis =>
    obtain ⟨here, successor, there, leadsRest⟩ := left
    cases others with
    | nil =>
      rw [leads_nil, here] at right
      exact absurd right (by simp)
    | cons other others =>
      obtain ⟨here', successor', there', leadsOthers⟩ := right
      obtain rfl : slot = other := by simpa [here] using here'
      obtain rfl : successor = successor' := by simpa [there] using there'
      rw [inductionHypothesis leadsRest leadsOthers]

theorem Leads.lt_size (leads : Leads next first slots) : ∀ slot ∈ slots, slot < next.size := by
  induction slots generalizing first with
  | nil => simp
  | cons head rest inductionHypothesis =>
    obtain ⟨-, successor, there, leadsRest⟩ := leads
    intro slot member
    rcases List.mem_cons.mp member with rfl | inRest
    · exact (Array.getElem?_eq_some_iff.mp there).1
    · exact inductionHypothesis leadsRest slot inRest

/-- Behind the slots of a first part, the links lead through the second part. -/
theorem Leads.drop {before : List Nat} {slot : Nat} {after : List Nat}
    (leads : Leads next first (before ++ slot :: after)) :
    Leads next (some slot) (slot :: after) := by
  induction before generalizing first with
  | nil =>
    obtain ⟨rfl, rest⟩ := leads
    exact ⟨rfl, rest⟩
  | cons head before inductionHypothesis =>
    obtain ⟨-, successor, -, leadsRest⟩ := leads
    exact inductionHypothesis leadsRest

/-- A chain that ends visits no slot twice: from the second visit on it would go on as long as
from the first. -/
theorem Leads.nodup (leads : Leads next first slots) : slots.Nodup := by
  induction slots generalizing first with
  | nil => exact List.nodup_nil
  | cons slot rest inductionHypothesis =>
    obtain ⟨rfl, successor, there, leadsRest⟩ := leads
    refine List.nodup_cons.mpr ⟨fun member => ?_, inductionHypothesis leadsRest⟩
    obtain ⟨before, after, rfl⟩ := List.append_of_mem member
    have again : slot :: after = slot :: (before ++ slot :: after) :=
      leadsRest.drop.unique ⟨rfl, successor, there, leadsRest⟩
    have lengths := congrArg List.length again
    simp only [List.length_cons, List.length_append] at lengths
    omega

theorem Leads.length_le (leads : Leads next first slots) : slots.length ≤ next.size := by
  have bound : slots.length ≤ (List.range next.size).length :=
    leads.nodup.length_le_of_subset fun slot member =>
      List.mem_range.mpr (leads.lt_size slot member)
  simpa using bound

/-! ### Changes of other links -/

/-- Where the links of its slots are the same, a chain is the same. -/
theorem Leads.congr {changed : Array Link} (leads : Leads next first slots)
    (same : ∀ slot ∈ slots, changed[slot]? = next[slot]?) : Leads changed first slots := by
  induction slots generalizing first with
  | nil => exact leads
  | cons slot rest inductionHypothesis =>
    obtain ⟨here, successor, there, leadsRest⟩ := leads
    refine ⟨here, successor, ?_, inductionHypothesis leadsRest fun other member =>
      same other (List.mem_cons_of_mem _ member)⟩
    rw [same slot List.mem_cons_self, there]

theorem Leads.set_other {slot : Nat} {link : Link} (leads : Leads next first slots)
    (other : slot ∉ slots) : Leads (next.setIfInBounds slot link) first slots := by
  refine leads.congr fun member inSlots => ?_
  have different : slot ≠ member := fun same => other (by rw [same]; exact inSlots)
  exact Array.getElem?_setIfInBounds_ne different

/-- A slot whose link is set to the first one stands in front of the chain. -/
theorem Leads.set_front {slot : Nat} (leads : Leads next first slots) (inside : slot < next.size)
    (other : slot ∉ slots) :
    Leads (next.setIfInBounds slot first) (some slot) (slot :: slots) :=
  ⟨rfl, first, Array.getElem?_setIfInBounds_self_of_lt inside, leads.set_other other⟩

/-- A slot leaves a chain when the link before it is set to the link behind it. -/
theorem Leads.set_before {before after : List Nat} {previous slot : Nat} {successor : Link}
    (leads : Leads next first (before ++ previous :: slot :: after))
    (there : next[slot]? = some successor) :
    Leads (next.setIfInBounds previous successor) first (before ++ previous :: after) := by
  have distinct := leads.nodup
  induction before generalizing first with
  | nil =>
    obtain ⟨here, link, inside, -, successor', there', leadsAfter⟩ := leads
    obtain rfl : successor = successor' := by simpa [there] using there'
    refine ⟨here, successor, ?_, leadsAfter.set_other ?_⟩
    · exact Array.getElem?_setIfInBounds_self_of_lt (Array.getElem?_eq_some_iff.mp inside).1
    · simp only [List.nil_append, List.nodup_cons, List.mem_cons, not_or] at distinct
      exact distinct.1.2
  | cons head before inductionHypothesis =>
    obtain ⟨here, link, inside, leadsRest⟩ := leads
    rw [List.cons_append, List.nodup_cons] at distinct
    refine ⟨here, link, ?_, inductionHypothesis leadsRest distinct.2⟩
    rw [Array.getElem?_setIfInBounds_ne, inside]
    intro same
    exact distinct.1 (by simp [same])

/-! ### Walking -/

/-- A walk with enough steps finds the slots that the links lead through. -/
theorem walkWithin_of_leads {fuel : Nat} (leads : Leads next first slots)
    (enough : slots.length ≤ fuel) : walkWithin next fuel first = .ok slots := by
  induction slots generalizing first fuel with
  | nil =>
    rw [leads_nil] at leads
    subst leads
    cases fuel <;> rfl
  | cons slot rest inductionHypothesis =>
    obtain ⟨rfl, successor, there, leadsRest⟩ := leads
    cases fuel with
    | zero => simp at enough
    | succ fuel =>
      have walkRest : walkWithin next fuel successor = .ok rest :=
        inductionHypothesis leadsRest (by simpa using enough)
      simp only [walkWithin, fetch_of there, Checked.bind_ok, walkRest]
      rfl

theorem walk_of_leads (leads : Leads next first slots) : walk next first = .ok slots :=
  walkWithin_of_leads leads leads.length_le

end PackedStore.Link
