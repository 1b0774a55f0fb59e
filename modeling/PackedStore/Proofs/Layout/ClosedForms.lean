/-
This file gives the growth policy in closed form, for numbers of any size. Every
capacity that is computed is the least power of two that is at least what is needed
and the growth step, or it is refused because that power is too large. The growth of
an arena is a loop, taken here as it runs, step after step: from a power of two no
step passes the least power of two that is large enough.
-/

import Mathlib.Order.Bounds.Basic
import PackedStore.Proofs.Layout.Peaks

namespace PackedStore

variable {value other power count capacity required log2MinGrowth grown : Nat} {what : Quantity}

/-! ### The least power of two -/

/-- A power of two that is at least a value, and the least such. -/
def IsNextPower (value power : Nat) : Prop :=
  IsLeast {large | (∃ exponent, large = 2 ^ exponent) ∧ value ≤ large} power

theorem isNextPower_nextPower (value : Nat) : IsNextPower value (nextPower value) := by
  obtain ⟨isPower, enough, least⟩ := isLeast_nextPower value
  refine ⟨⟨isPower, enough⟩, ?_⟩
  rintro large ⟨⟨exponent, rfl⟩, fits⟩
  exact least exponent fits

theorem isNextPower_iff : IsNextPower value power ↔ power = nextPower value :=
  ⟨fun least => least.unique (isNextPower_nextPower value),
    fun same => same ▸ isNextPower_nextPower value⟩

theorem nextPower_mono (le : value ≤ other) : nextPower value ≤ nextPower other :=
  nextPower_le_two_pow.mpr (Nat.le_trans le (le_nextPower other))

/-! ### Capped powers -/

/-- The least power of two that is at least a value, as a capacity. It is refused if it is too large,
in the name of the growth step if that is no size at all. -/
def cappedPower (log2MinGrowth value : Nat) (what : Quantity) : Checked Nat :=
  if nextPower value ≤ maxCapacity then .ok (nextPower value)
  else .error (.overflow (if log2MinGrowth < 64 then what else .minimalGrowth))

theorem cappedPower_of_le (small : nextPower value ≤ maxCapacity) :
    cappedPower log2MinGrowth value what = .ok (nextPower value) := if_pos small

theorem cappedPower_of_lt (large : maxCapacity < nextPower value) :
    cappedPower log2MinGrowth value what =
      .error (.overflow (if log2MinGrowth < 64 then what else .minimalGrowth)) :=
  if_neg (Nat.not_le_of_lt large)

theorem cappedPower_eq_ok :
    cappedPower log2MinGrowth value what = .ok power ↔
      IsNextPower value power ∧ power ≤ maxCapacity := by
  rw [isNextPower_iff, cappedPower]
  by_cases small : nextPower value ≤ maxCapacity
  · rw [if_pos small, Except.ok.injEq]
    exact ⟨fun same => ⟨same.symm, same ▸ small⟩, fun both => both.1.symm⟩
  · rw [if_neg small]
    exact ⟨nofun, fun both => absurd (both.1 ▸ both.2) small⟩

theorem cappedPower_eq_error {failure : Failure}
    (refused : cappedPower log2MinGrowth value what = .error failure) :
    maxCapacity < nextPower value ∧
      failure = .overflow (if log2MinGrowth < 64 then what else .minimalGrowth) := by
  by_cases small : nextPower value ≤ maxCapacity
  · rw [cappedPower_of_le small] at refused
    exact absurd refused nofun
  · have large := Nat.lt_of_not_le small
    rw [cappedPower_of_lt large, Except.error.injEq] at refused
    exact ⟨large, refused.symm⟩

/-- A growth step that is too large for a shift is too large for a capacity. -/
theorem cappedPower_of_step (huge : ¬ log2MinGrowth < 64) (step : 2 ^ log2MinGrowth ≤ value) :
    cappedPower log2MinGrowth value what = .error (.overflow .minimalGrowth) := by
  have above : maxCapacity < 2 ^ log2MinGrowth := Nat.pow_lt_pow_right (by decide) (by omega)
  rw [cappedPower_of_lt (Nat.lt_of_lt_of_le above (Nat.le_trans step (le_nextPower value))),
    if_neg huge]

theorem growthStep_of (small : log2MinGrowth < 64) :
    growthStep log2MinGrowth = .ok (2 ^ log2MinGrowth) := if_pos small

theorem growthStep_of_not (huge : ¬ log2MinGrowth < 64) :
    growthStep log2MinGrowth = .error (.overflow .minimalGrowth) := if_neg huge

/-! ### Slots -/

theorem grownCapacity_eq (count capacity log2MinGrowth : Nat) :
    grownCapacity count capacity log2MinGrowth =
      cappedPower log2MinGrowth (max (max count capacity) (2 ^ log2MinGrowth)) .slotCapacity := by
  generalize isNeeded : max (max count capacity) (2 ^ log2MinGrowth) = needed
  have step : 2 ^ log2MinGrowth ≤ needed := isNeeded ▸ Nat.le_max_right _ _
  by_cases small : log2MinGrowth < 64
  · simp only [grownCapacity, growthStep_of small, Checked.bind_ok, isNeeded, ceilPow2?, size?]
    by_cases sized : 2 ^ ceilLog2 needed < sizeLimit
    · rw [if_pos sized, cappedPower, if_pos small]
      rfl
    · have large : maxCapacity < nextPower needed :=
        Nat.lt_of_lt_of_le (by decide) (Nat.le_of_not_lt sized)
      rw [if_neg sized, cappedPower_of_lt large, if_pos small]
      rfl
  · rw [cappedPower_of_step small step, grownCapacity, growthStep_of_not small]
    rfl

/-- A sum that is no size is too large for a capacity. -/
theorem cappedPower_of_sum (sum : ¬ capacity + 2 ^ log2MinGrowth < sizeLimit)
    (le : capacity + 2 ^ log2MinGrowth ≤ value) (small : log2MinGrowth < 64) :
    cappedPower log2MinGrowth value what = .error (.overflow what) := by
  have large : maxCapacity < nextPower value :=
    calc maxCapacity < sizeLimit := by decide
      _ ≤ capacity + 2 ^ log2MinGrowth := Nat.le_of_not_lt sum
      _ ≤ nextPower value := Nat.le_trans le (le_nextPower value)
  rw [cappedPower_of_lt large, if_pos small]

theorem nextCapacity_eq_capped (count capacity log2MinGrowth : Nat) :
    nextCapacity count capacity log2MinGrowth =
      cappedPower log2MinGrowth (max count (capacity + 2 ^ log2MinGrowth)) .slotCapacity := by
  have le : capacity + 2 ^ log2MinGrowth ≤ max count (capacity + 2 ^ log2MinGrowth) :=
    Nat.le_max_right _ _
  have step := Nat.le_trans (Nat.le_add_left _ capacity) le
  by_cases small : log2MinGrowth < 64
  · simp only [nextCapacity, growthStep_of small, Checked.bind_ok, size?]
    by_cases sized : capacity + 2 ^ log2MinGrowth < sizeLimit
    · rw [if_pos sized]
      simp only [orFail, Checked.bind_ok]
      rw [grownCapacity_eq, Nat.max_eq_left step]
    · rw [if_neg sized, cappedPower_of_sum sized le small]
      rfl
  · rw [cappedPower_of_step small step, nextCapacity, growthStep_of_not small]
    rfl

/-! ### One step of an arena -/

theorem grownArena_eq_capped (capacity log2MinGrowth : Nat) :
    grownArena capacity log2MinGrowth =
      cappedPower log2MinGrowth (capacity + 2 ^ log2MinGrowth) .arenaCapacity := by
  have step := Nat.le_add_left (2 ^ log2MinGrowth) capacity
  by_cases small : log2MinGrowth < 64
  · simp only [grownArena, growthStep_of small, Checked.bind_ok, size?]
    by_cases sized : capacity + 2 ^ log2MinGrowth < sizeLimit
    · rw [if_pos sized]
      simp only [orFail, Checked.bind_ok]
      rw [grownCapacity_eq, Nat.max_eq_right (Nat.zero_le _), Nat.max_eq_left step]
      by_cases fits : nextPower (capacity + 2 ^ log2MinGrowth) ≤ maxCapacity
      · rw [cappedPower_of_le fits, cappedPower_of_le fits]
        rfl
      · have large := Nat.lt_of_not_le fits
        rw [cappedPower_of_lt large, cappedPower_of_lt large, if_pos small, if_pos small]
        rfl
    · rw [if_neg sized, cappedPower_of_sum sized (Nat.le_refl _) small]
      rfl
  · rw [cappedPower_of_step small step, grownArena, growthStep_of_not small]
    rfl

/-- A power of two that is at least the growth step, however large. -/
def IsStepPower (log2MinGrowth capacity : Nat) : Prop :=
  (∃ exponent, capacity = 2 ^ exponent) ∧ 2 ^ log2MinGrowth ≤ capacity

theorem isStepPower_nextPower (step : 2 ^ log2MinGrowth ≤ value) :
    IsStepPower log2MinGrowth (nextPower value) :=
  ⟨⟨_, rfl⟩, Nat.le_trans step (le_nextPower value)⟩

/-- Adding the growth step to a power of two and rounding up doubles it. -/
theorem IsStepPower.nextPower_add (stepPower : IsStepPower log2MinGrowth capacity) :
    nextPower (capacity + 2 ^ log2MinGrowth) = 2 * capacity := by
  obtain ⟨⟨exponent, rfl⟩, step⟩ := stepPower
  have positive := Nat.two_pow_pos log2MinGrowth
  have double : 2 ^ (exponent + 1) = 2 * 2 ^ exponent := Nat.pow_succ'
  have above : 2 ^ exponent < 2 ^ exponent + 2 ^ log2MinGrowth := by omega
  rw [nextPower, ceilLog2_of_between above (by omega), double]

theorem IsStepPower.nextPower_le (stepPower : IsStepPower log2MinGrowth capacity) :
    nextPower value ≤ capacity ↔ value ≤ capacity := by
  obtain ⟨⟨exponent, rfl⟩, -⟩ := stepPower
  exact nextPower_le_two_pow

/-- A step from nothing or from a power of two does not pass what is required. -/
theorem nextPower_step_le (current : capacity = 0 ∨ IsStepPower log2MinGrowth capacity)
    (short : capacity < required) :
    nextPower (capacity + 2 ^ log2MinGrowth) ≤ nextPower (max required (2 ^ log2MinGrowth)) := by
  rcases current with rfl | stepPower
  · rw [Nat.zero_add]
    exact nextPower_mono (Nat.le_max_right _ _)
  · rw [stepPower.nextPower_add]
    -- what is required is above one power of two, so it takes at least the next one
    have beyond : ¬ nextPower required ≤ capacity :=
      fun le => Nat.not_le_of_lt short (stepPower.nextPower_le.mp le)
    obtain ⟨⟨exponent, rfl⟩, -⟩ := stepPower
    have larger : exponent < ceilLog2 required :=
      (Nat.pow_lt_pow_iff_right (by decide)).mp (Nat.lt_of_not_le beyond)
    calc 2 * 2 ^ exponent = 2 ^ (exponent + 1) := Nat.pow_succ'.symm
      _ ≤ nextPower required := Nat.pow_le_pow_right (by decide) larger
      _ ≤ nextPower (max required (2 ^ log2MinGrowth)) := nextPower_mono (Nat.le_max_left _ _)

/-! ### The loop of an arena -/

/-- The loop that grows an arena until what is required fits: what comes of it from a capacity on. -/
inductive ArenaGrows (required log2MinGrowth : Nat) : Nat → Checked Nat → Prop
  | enough {capacity : Nat} (fits : required ≤ capacity) :
    ArenaGrows required log2MinGrowth capacity (.ok capacity)
  | refused {capacity : Nat} {failure : Failure} (short : capacity < required)
    (refuses : grownArena capacity log2MinGrowth = .error failure) :
    ArenaGrows required log2MinGrowth capacity (.error failure)
  | step {capacity grown : Nat} {answer : Checked Nat} (short : capacity < required)
    (grows : grownArena capacity log2MinGrowth = .ok grown)
    (rest : ArenaGrows required log2MinGrowth grown answer) :
    ArenaGrows required log2MinGrowth capacity answer

theorem grownDataCapacityWithin_of_le {fuel : Nat} (fits : required ≤ capacity) :
    grownDataCapacityWithin required log2MinGrowth fuel capacity = .ok capacity := by
  cases fuel with
  | zero => exact if_pos fits
  | succ fuel => exact if_pos fits

theorem grownDataCapacityWithin_succ {fuel : Nat} (short : capacity < required) :
    grownDataCapacityWithin required log2MinGrowth (fuel + 1) capacity =
      grownArena capacity log2MinGrowth >>=
        grownDataCapacityWithin required log2MinGrowth fuel :=
  if_neg (Nat.not_le_of_lt short)

namespace ArenaGrows

/-- From a capacity on, the loop ends after as many steps as there are larger capacities. -/
theorem of_within {exponent fuel : Nat} (lower : log2MinGrowth ≤ exponent) (upper : exponent ≤ 29)
    (enough : 29 ≤ exponent + fuel) :
    ArenaGrows required log2MinGrowth (2 ^ exponent)
      (grownDataCapacityWithin required log2MinGrowth fuel (2 ^ exponent)) := by
  induction fuel generalizing exponent with
  | zero =>
    obtain rfl : exponent = 29 := by omega
    by_cases fits : required ≤ 2 ^ 29
    · rw [grownDataCapacityWithin_of_le fits]
      exact .enough fits
    · rw [grownDataCapacityWithin, if_neg fits]
      refine .refused (Nat.lt_of_not_le fits) ?_
      rw [grownArena_eq ⟨29, rfl, lower, upper⟩]
      rfl
  | succ fuel inductionHypothesis =>
    by_cases fits : required ≤ 2 ^ exponent
    · rw [grownDataCapacityWithin_of_le fits]
      exact .enough fits
    · have short := Nat.lt_of_not_le fits
      rw [grownDataCapacityWithin_succ short]
      have reached : IsCapacity log2MinGrowth (2 ^ exponent) := ⟨exponent, rfl, lower, upper⟩
      have run := grownArena_eq reached
      by_cases largest : 2 ^ exponent = maxCapacity
      · rw [if_pos largest] at run
        rw [run]
        exact .refused short run
      · have smaller : exponent < 29 := by
          rcases Nat.lt_or_eq_of_le upper with smaller | rfl
          · exact smaller
          · exact absurd rfl largest
        rw [if_neg largest, ← Nat.pow_succ'] at run
        rw [run, Checked.bind_ok]
        exact .step short run (inductionHypothesis (by omega) smaller (by omega))

/-- The loop ends from everywhere, because the first step leads to a capacity. -/
theorem ends (capacity required log2MinGrowth : Nat) :
    ArenaGrows required log2MinGrowth capacity
      (grownDataCapacity capacity required log2MinGrowth) := by
  rw [grownDataCapacity]
  by_cases fits : required ≤ capacity
  · rw [grownDataCapacityWithin_of_le fits]
    exact .enough fits
  · have short := Nat.lt_of_not_le fits
    rw [grownDataCapacityWithin_succ short]
    cases run : grownArena capacity log2MinGrowth with
    | error failure => exact .refused short run
    | ok grown =>
      refine .step short run ?_
      rw [grownArena_eq_capped, cappedPower_eq_ok, isNextPower_iff] at run
      obtain ⟨rfl, bound⟩ := run
      obtain ⟨⟨exponent, isPower⟩, step⟩ :=
        isStepPower_nextPower (Nat.le_add_left (2 ^ log2MinGrowth) capacity)
      rw [isPower] at bound step
      rw [Checked.bind_ok, isPower]
      exact of_within ((Nat.pow_le_pow_iff_right (by decide)).mp step)
        ((Nat.pow_le_pow_iff_right (by decide)).mp bound) (by omega)

theorem unique {answer same : Checked Nat} (grows : ArenaGrows required log2MinGrowth capacity answer)
    (again : ArenaGrows required log2MinGrowth capacity same) : answer = same := by
  induction grows with
  | enough fits =>
    cases again with
    | enough _ => rfl
    | refused short _ => exact absurd fits (Nat.not_le_of_lt short)
    | step short _ _ => exact absurd fits (Nat.not_le_of_lt short)
  | refused short refuses =>
    cases again with
    | enough fits => exact absurd fits (Nat.not_le_of_lt short)
    | refused _ also =>
      rw [refuses] at also
      exact congrArg Except.error (Except.error.inj also)
    | step _ grows _ =>
      rw [refuses] at grows
      exact absurd grows nofun
  | step short grows _ inductionHypothesis =>
    cases again with
    | enough fits => exact absurd fits (Nat.not_le_of_lt short)
    | refused _ refuses =>
      rw [grows] at refuses
      exact absurd refuses nofun
    | step _ also rest =>
      rw [grows] at also
      obtain rfl := Except.ok.inj also
      exact inductionHypothesis rest

theorem iff_eq {answer : Checked Nat} :
    ArenaGrows required log2MinGrowth capacity answer ↔
      grownDataCapacity capacity required log2MinGrowth = answer :=
  ⟨fun grows => (ends capacity required log2MinGrowth).unique grows,
    fun same => same ▸ ends capacity required log2MinGrowth⟩

/-- From nothing or from a power of two the loop arrives at the least power of two that is large
enough, or is refused because that is too large. -/
theorem eq_capped {answer : Checked Nat} (grows : ArenaGrows required log2MinGrowth capacity answer)
    (current : capacity = 0 ∨ IsStepPower log2MinGrowth capacity) :
    answer = if required ≤ capacity then .ok capacity
      else cappedPower log2MinGrowth (max required (2 ^ log2MinGrowth)) .arenaCapacity := by
  induction grows with
  | enough fits => rw [if_pos fits]
  | refused short refuses =>
    rw [grownArena_eq_capped] at refuses
    obtain ⟨large, rfl⟩ := cappedPower_eq_error refuses
    rw [if_neg (Nat.not_le_of_lt short),
      cappedPower_of_lt (Nat.lt_of_lt_of_le large (nextPower_step_le current short))]
  | @step capacity grown answer short grows rest inductionHypothesis =>
    rw [grownArena_eq_capped, cappedPower_eq_ok, isNextPower_iff] at grows
    obtain ⟨rfl, bound⟩ := grows
    have stepPower := isStepPower_nextPower (Nat.le_add_left (2 ^ log2MinGrowth) capacity)
    have within := nextPower_step_le current short
    rw [inductionHypothesis (Or.inr stepPower), if_neg (Nat.not_le_of_lt short)]
    by_cases arrived : required ≤ nextPower (capacity + 2 ^ log2MinGrowth)
    · have step : 2 ^ log2MinGrowth ≤ nextPower (capacity + 2 ^ log2MinGrowth) :=
        Nat.le_trans (Nat.le_add_left _ _) (le_nextPower _)
      have least := stepPower.nextPower_le.mpr (Nat.max_le.mpr ⟨arrived, step⟩)
      have same := Nat.le_antisymm within least
      rw [if_pos arrived, same, cappedPower_of_le (same ▸ bound)]
    · rw [if_neg arrived]

/-- From any capacity the loop is refused or makes enough room, and where it has moved it stands at
a power of two. -/
theorem sound {answer : Checked Nat} (grows : ArenaGrows required log2MinGrowth capacity answer) :
    (∃ what, answer = .error (.overflow what)) ∨
      ∃ grown, answer = .ok grown ∧ max capacity required ≤ grown ∧
        (grown ≠ capacity → (∃ exponent, grown = 2 ^ exponent) ∧ grown ≤ maxCapacity) := by
  induction grows with
  | enough fits =>
    exact Or.inr ⟨_, rfl, Nat.max_le.mpr ⟨Nat.le_refl _, fits⟩, fun moved => absurd rfl moved⟩
  | refused _ refuses =>
    rw [grownArena_eq_capped] at refuses
    exact Or.inl ⟨_, congrArg Except.error (cappedPower_eq_error refuses).2⟩
  | @step capacity next answer _ grows _ inductionHypothesis =>
    rw [grownArena_eq_capped, cappedPower_eq_ok] at grows
    obtain ⟨⟨⟨isPower, above⟩, -⟩, bound⟩ := grows
    rcases inductionHypothesis with refused | ⟨grown, rfl, enough, moved⟩
    · exact Or.inl refused
    · refine Or.inr ⟨grown, rfl, by omega, fun _ => ?_⟩
      by_cases same : grown = next
      · exact same ▸ ⟨isPower, bound⟩
      · exact moved same

end ArenaGrows

/-! ### Growth in closed form -/

/-- Equal demands give equal capacities, and more of anything gives no less. -/
theorem grownCapacity_mono {fewer slots steps : Nat} (rows : fewer ≤ count)
    (capacities : slots ≤ capacity) (growth : steps ≤ log2MinGrowth)
    (run : grownCapacity count capacity log2MinGrowth = .ok grown) :
    ∃ smaller, grownCapacity fewer slots steps = .ok smaller ∧ smaller ≤ grown := by
  rw [grownCapacity_eq, cappedPower_eq_ok, isNextPower_iff] at run
  obtain ⟨rfl, bound⟩ := run
  have step : 2 ^ steps ≤ 2 ^ log2MinGrowth := Nat.pow_le_pow_right (by decide) growth
  have le : nextPower (max (max fewer slots) (2 ^ steps)) ≤
      nextPower (max (max count capacity) (2 ^ log2MinGrowth)) := nextPower_mono (by omega)
  exact ⟨_, (grownCapacity_eq ..).trans (cappedPower_of_le (Nat.le_trans le bound)), le⟩

/-- A grown capacity stays the same when it is grown again for no more rows. -/
theorem grownCapacity_again {rows : Nat}
    (run : grownCapacity count capacity log2MinGrowth = .ok grown) (fits : rows ≤ grown) :
    grownCapacity rows grown log2MinGrowth = .ok grown := by
  obtain ⟨reached, -, -⟩ := IsCapacity.of_grown run
  rw [grownCapacity_eq, Nat.max_eq_right fits, Nat.max_eq_left reached.step_le, cappedPower_eq_ok,
    isNextPower_iff]
  refine ⟨?_, reached.le_max⟩
  exact Nat.le_antisymm (le_nextPower grown) (reached.nextPower_le.mpr (Nat.le_refl _))

/-- For all numbers, whatever their size. An arena that is empty or has a power of two grows to the
least power of two that is at least what is required and the growth step, or is refused because that
is too large. From any capacity at all the loop ends, with one answer: it is refused or makes enough
room, and where it moves it stands at a power of two. A table with a power of two of slots grows to
twice its slots. A capacity that is asked for is the least power of two at least as large, so asking
for more gives no less and asking again gives the same. -/
theorem growth_in_closed_form :
    (∀ current required log2MinGrowth power,
      (current = 0 ∨ IsStepPower log2MinGrowth current) →
      IsNextPower (max required (2 ^ log2MinGrowth)) power →
      (required ≤ current →
        grownDataCapacity current required log2MinGrowth = .ok current) ∧
      (current < required → power ≤ maxCapacity →
        grownDataCapacity current required log2MinGrowth = .ok power) ∧
      (current < required → maxCapacity < power ∨ 64 ≤ log2MinGrowth →
        ∃ what, grownDataCapacity current required log2MinGrowth = .error (.overflow what))) ∧
    (∀ current required log2MinGrowth,
      (∀ answer, ArenaGrows required log2MinGrowth current answer ↔
        grownDataCapacity current required log2MinGrowth = answer) ∧
      ((∃ what, grownDataCapacity current required log2MinGrowth = .error (.overflow what)) ∨
        ∃ grown, grownDataCapacity current required log2MinGrowth = .ok grown ∧
          max current required ≤ grown ∧
          (grown ≠ current → (∃ exponent, grown = 2 ^ exponent) ∧ grown ≤ maxCapacity))) ∧
    (∀ count capacity log2MinGrowth, IsStepPower log2MinGrowth capacity → count ≤ capacity →
      (2 * capacity ≤ maxCapacity →
        nextCapacity count capacity log2MinGrowth = .ok (2 * capacity)) ∧
      (maxCapacity < 2 * capacity →
        ∃ what, nextCapacity count capacity log2MinGrowth = .error (.overflow what))) ∧
    (∀ count capacity log2MinGrowth grown,
      grownCapacity count capacity log2MinGrowth = .ok grown ↔
        IsNextPower (max (max count capacity) (2 ^ log2MinGrowth)) grown ∧ grown ≤ maxCapacity) ∧
    (∀ count capacity log2MinGrowth grown,
      grownCapacity count capacity log2MinGrowth = .ok grown →
      (∀ rows, rows ≤ grown → grownCapacity rows grown log2MinGrowth = .ok grown) ∧
      ∀ fewer slots steps, fewer ≤ count → slots ≤ capacity → steps ≤ log2MinGrowth →
        ∃ smaller, grownCapacity fewer slots steps = .ok smaller ∧ smaller ≤ grown) := by
  refine ⟨?_, ?_, ?_, ?_, ?_⟩
  · intro current required log2MinGrowth power regular least
    rw [isNextPower_iff] at least
    subst least
    have closed := (ArenaGrows.ends current required log2MinGrowth).eq_capped regular
    refine ⟨fun fits => ?_, fun short small => ?_, fun short large => ?_⟩
    · rw [closed, if_pos fits]
    · rw [closed, if_neg (Nat.not_le_of_lt short), cappedPower_of_le small]
    · rw [closed, if_neg (Nat.not_le_of_lt short)]
      rcases large with large | huge
      · exact ⟨_, cappedPower_of_lt large⟩
      · exact ⟨_, cappedPower_of_step (Nat.not_lt_of_le huge) (Nat.le_max_right _ _)⟩
  · intro current required log2MinGrowth
    exact ⟨fun answer => ArenaGrows.iff_eq,
      (ArenaGrows.ends current required log2MinGrowth).sound⟩
  · intro count capacity log2MinGrowth stepPower rows
    have doubled := nextCapacity_eq_capped count capacity log2MinGrowth
    rw [Nat.max_eq_right (Nat.le_trans rows (Nat.le_add_right _ _))] at doubled
    refine ⟨fun small => ?_, fun large => ?_⟩
    · rw [doubled, cappedPower_of_le (by rwa [stepPower.nextPower_add]), stepPower.nextPower_add]
    · exact ⟨_, doubled.trans (cappedPower_of_lt (by rwa [stepPower.nextPower_add]))⟩
  · intro count capacity log2MinGrowth grown
    rw [grownCapacity_eq, cappedPower_eq_ok]
  · intro count capacity log2MinGrowth grown run
    exact ⟨fun rows fits => grownCapacity_again run fits,
      fun fewer slots steps rows capacities growth =>
        grownCapacity_mono rows capacities growth run⟩

/-- An empty arena with a growth step of eight takes 64 units for 33, one with 100 units takes 128
for 101, and one with all it can have takes no more. A table with eight slots grows to sixteen. -/
theorem small_arenas_grow :
    grownDataCapacity 0 33 3 = .ok 64 ∧
    (∃ what, grownDataCapacity maxCapacity (maxCapacity + 1) 3 = .error (.overflow what)) ∧
    (∃ what, grownDataCapacity 0 1 64 = .error (.overflow what)) ∧
    ArenaGrows 101 3 100 (.ok 128) ∧
    nextCapacity 5 8 3 = .ok 16 ∧ grownCapacity 5 9 3 = .ok 16 ∧
    grownCapacity 16 16 3 = .ok 16 := by
  obtain ⟨arenas, loops, tables, capacities, again⟩ := growth_in_closed_form
  have asked : grownCapacity 5 9 3 = .ok 16 :=
    (capacities 5 9 3 16).mpr ⟨isNextPower_nextPower 9, by decide⟩
  obtain ⟨-, most, -⟩ := arenas 0 33 3 64 (Or.inl rfl) (isNextPower_nextPower 33)
  obtain ⟨-, -, beyond⟩ := arenas maxCapacity (maxCapacity + 1) 3 (2 ^ 30)
    (Or.inr ⟨⟨29, rfl⟩, by decide⟩) (isNextPower_nextPower (maxCapacity + 1))
  obtain ⟨-, -, huge⟩ := arenas 0 1 64 (2 ^ 64) (Or.inl rfl) (isNextPower_nextPower (2 ^ 64))
  obtain ⟨doubled, -⟩ := tables 5 8 3 ⟨⟨3, rfl⟩, by decide⟩ (by decide)
  exact ⟨most (by decide) (by decide), beyond (by decide) (Or.inl (by decide)),
    huge (by decide) (Or.inr (by decide)), ((loops 100 101 3).1 (.ok 128)).mpr (by rfl),
    doubled (by decide), asked, (again 5 9 3 16 asked).1 16 (by decide)⟩

end PackedStore
