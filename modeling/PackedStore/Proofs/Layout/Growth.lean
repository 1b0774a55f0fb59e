/-
This file computes the growth policy. Rounding up to a power of two has a closed
form, so every capacity is a power of two between the growth step and the largest
capacity, and a table that is full grows to exactly twice its slots.
-/

import PackedStore.Sizing

namespace PackedStore

/-! ### Rounding up to a power of two -/

theorem ceilLog2_le_iff {value exponent : Nat} : ceilLog2 value ≤ exponent ↔ value ≤ 2 ^ exponent :=
  ⟨fun bound => Nat.le_trans (le_two_pow_ceilLog2 value) (Nat.pow_le_pow_right (by decide) bound),
    ceilLog2_le_of_le_two_pow⟩

theorem ceilLog2_two_pow (exponent : Nat) : ceilLog2 (2 ^ exponent) = exponent := by
  apply Nat.le_antisymm (ceilLog2_le_iff.mpr (Nat.le_refl _))
  have bound := le_two_pow_ceilLog2 (2 ^ exponent)
  exact (Nat.pow_le_pow_iff_right (by decide)).mp bound

theorem ceilLog2_of_between {value exponent : Nat} (above : 2 ^ exponent < value)
    (below : value ≤ 2 ^ (exponent + 1)) : ceilLog2 value = exponent + 1 := by
  apply Nat.le_antisymm (ceilLog2_le_iff.mpr below)
  by_cases small : ceilLog2 value ≤ exponent
  · have bound := ceilLog2_le_iff.mp small
    omega
  · omega

theorem ceilPow2?_eq_some {value result : Nat} :
    ceilPow2? value = some result ↔ ceilLog2 value < 64 ∧ result = 2 ^ ceilLog2 value := by
  rw [ceilPow2?, size?_eq_some_iff, sizeLimit, Nat.pow_lt_pow_iff_right (by decide)]

/-! ### Capacities -/

/-- A capacity that growth by a step can reach. -/
def IsCapacity (log2MinGrowth capacity : Nat) : Prop :=
  ∃ exponent, capacity = 2 ^ exponent ∧ log2MinGrowth ≤ exponent ∧ exponent ≤ 29

variable {count capacity grown log2MinGrowth : Nat}

theorem IsCapacity.pos (reached : IsCapacity log2MinGrowth capacity) : 0 < capacity := by
  obtain ⟨exponent, rfl, -, -⟩ := reached
  exact Nat.two_pow_pos exponent

theorem IsCapacity.le_max (reached : IsCapacity log2MinGrowth capacity) :
    capacity ≤ maxCapacity := by
  obtain ⟨exponent, rfl, -, bound⟩ := reached
  exact Nat.pow_le_pow_right (by decide) bound

theorem IsCapacity.le_log2 (reached : IsCapacity log2MinGrowth capacity) : log2MinGrowth ≤ 29 := by
  obtain ⟨exponent, -, lower, upper⟩ := reached
  exact Nat.le_trans lower upper

theorem growthStep_eq_ok {step : Nat} :
    growthStep log2MinGrowth = .ok step ↔ log2MinGrowth < 64 ∧ step = 2 ^ log2MinGrowth := by
  unfold growthStep
  by_cases small : log2MinGrowth < 64
  · simp [small, eq_comm]
  · simp [small]

/-- A grown capacity is the least power of two that is large enough for the rows, the slots and
the growth step. -/
theorem grownCapacity_eq_ok :
    grownCapacity count capacity log2MinGrowth = .ok grown ↔
      grown = 2 ^ ceilLog2 (max (max count capacity) (2 ^ log2MinGrowth)) ∧
        grown ≤ maxCapacity := by
  simp only [grownCapacity, Checked.bind_eq_ok, growthStep_eq_ok, orFail_eq_ok, ceilPow2?_eq_some]
  constructor
  · rintro ⟨step, ⟨-, rfl⟩, power, ⟨-, rfl⟩, run⟩
    split at run
    · next bound =>
      obtain rfl : _ = grown := Except.ok.inj run
      exact ⟨rfl, bound⟩
    · exact absurd run (by simp [throw, throwThe, MonadExceptOf.throw])
  · rintro ⟨rfl, bound⟩
    have exponent : ceilLog2 (max (max count capacity) (2 ^ log2MinGrowth)) ≤ 29 :=
      (Nat.pow_le_pow_iff_right (by decide)).mp bound
    have step := Nat.le_trans (Nat.le_max_right _ _) (ceilLog2_le_iff.mp exponent)
    have small : log2MinGrowth ≤ 29 := (Nat.pow_le_pow_iff_right (by decide)).mp step
    exact ⟨_, ⟨by omega, rfl⟩, _, ⟨by omega, rfl⟩, if_pos bound⟩

theorem IsCapacity.of_grown (run : grownCapacity count capacity log2MinGrowth = .ok grown) :
    IsCapacity log2MinGrowth grown ∧ count ≤ grown ∧ capacity ≤ grown := by
  obtain ⟨rfl, bound⟩ := grownCapacity_eq_ok.mp run
  have room := le_two_pow_ceilLog2 (max (max count capacity) (2 ^ log2MinGrowth))
  obtain ⟨roomRows, step⟩ := Nat.max_le.mp room
  obtain ⟨roomCount, roomCapacity⟩ := Nat.max_le.mp roomRows
  exact ⟨⟨_, rfl, (Nat.pow_le_pow_iff_right (by decide)).mp step,
    (Nat.pow_le_pow_iff_right (by decide)).mp bound⟩, roomCount, roomCapacity⟩

theorem grownCapacity_of (rows : count ≤ maxCapacity) (slots : capacity ≤ maxCapacity)
    (step : log2MinGrowth ≤ 29) : ∃ grown, grownCapacity count capacity log2MinGrowth = .ok grown := by
  refine ⟨_, grownCapacity_eq_ok.mpr ⟨rfl, ?_⟩⟩
  apply Nat.pow_le_pow_right (by decide)
  exact ceilLog2_le_iff.mpr
    (Nat.max_le.mpr ⟨Nat.max_le.mpr ⟨rows, slots⟩, Nat.pow_le_pow_right (by decide) step⟩)

/-- A capacity that growth can reach can be asked for from the beginning. -/
theorem IsCapacity.grown_self (reached : IsCapacity log2MinGrowth capacity) :
    grownCapacity 0 capacity log2MinGrowth = .ok capacity := by
  have bound := reached.le_max
  obtain ⟨exponent, rfl, lower, -⟩ := reached
  have step : 2 ^ log2MinGrowth ≤ 2 ^ exponent := Nat.pow_le_pow_right (by decide) lower
  refine grownCapacity_eq_ok.mpr ⟨?_, bound⟩
  rw [Nat.max_eq_right (Nat.zero_le _), Nat.max_eq_left step, ceilLog2_two_pow]

/-- Capacities that are too large are refused. -/
theorem grownCapacity_eq_error (step : log2MinGrowth < 64) (large : maxCapacity < capacity) :
    grownCapacity count capacity log2MinGrowth = .error (.overflow .slotCapacity) := by
  have power := le_two_pow_ceilLog2 (max (max count capacity) (2 ^ log2MinGrowth))
  simp only [grownCapacity, growthStep, if_pos step, Checked.bind_ok, ceilPow2?, size?]
  by_cases sized : 2 ^ ceilLog2 (max (max count capacity) (2 ^ log2MinGrowth)) < sizeLimit
  · rw [if_pos sized]
    simp only [orFail, Checked.bind_ok]
    exact if_neg (by omega)
  · rw [if_neg sized]
    rfl

/-- The capacity above a capacity is twice as large, unless that is too much. -/
theorem grownCapacity_step (reached : IsCapacity log2MinGrowth capacity) (rows : count ≤ capacity) :
    grownCapacity count (capacity + 2 ^ log2MinGrowth) log2MinGrowth =
      if capacity = maxCapacity then .error (.overflow .slotCapacity) else .ok (2 * capacity) := by
  obtain ⟨exponent, rfl, lower, upper⟩ := reached
  have step : 2 ^ log2MinGrowth ≤ 2 ^ exponent := Nat.pow_le_pow_right (by decide) lower
  have positive := Nat.two_pow_pos log2MinGrowth
  by_cases largest : 2 ^ exponent = maxCapacity
  · rw [if_pos largest]
    exact grownCapacity_eq_error (by omega) (by omega)
  · rw [if_neg largest]
    have smaller : exponent < 29 := by
      rcases Nat.lt_or_eq_of_le upper with smaller | rfl
      · exact smaller
      · exact absurd rfl largest
    have double : 2 ^ (exponent + 1) = 2 * 2 ^ exponent := by rw [Nat.pow_succ']
    have doubled : ceilLog2 (max (max count (2 ^ exponent + 2 ^ log2MinGrowth)) (2 ^ log2MinGrowth)) =
        exponent + 1 := ceilLog2_of_between (by omega) (by omega)
    refine grownCapacity_eq_ok.mpr ⟨by rw [doubled, double], ?_⟩
    rw [← double]
    exact Nat.pow_le_pow_right (by decide) smaller

theorem IsCapacity.size?_step (reached : IsCapacity log2MinGrowth capacity) :
    size? (capacity + 2 ^ log2MinGrowth) = some (capacity + 2 ^ log2MinGrowth) := by
  obtain ⟨exponent, rfl, lower, upper⟩ := reached
  have step : 2 ^ log2MinGrowth ≤ 2 ^ exponent := Nat.pow_le_pow_right (by decide) lower
  have bound : 2 ^ exponent ≤ 2 ^ 29 := Nat.pow_le_pow_right (by decide) upper
  exact size?_eq_some_iff.mpr ⟨by unfold sizeLimit; omega, rfl⟩

/-- A table that is full grows to twice its slots, unless it has as many as it can. -/
theorem nextCapacity_eq (reached : IsCapacity log2MinGrowth capacity) (rows : count ≤ capacity) :
    nextCapacity count capacity log2MinGrowth =
      if capacity = maxCapacity then .error (.overflow .slotCapacity) else .ok (2 * capacity) := by
  have step := reached.le_log2
  simp only [nextCapacity, growthStep, if_pos (show log2MinGrowth < 64 by omega), Checked.bind_ok,
    reached.size?_step, orFail]
  exact grownCapacity_step reached rows

theorem IsCapacity.lt_double (reached : IsCapacity log2MinGrowth capacity) :
    capacity < 2 * capacity := by
  have positive := reached.pos
  omega

theorem IsCapacity.double (reached : IsCapacity log2MinGrowth capacity)
    (smaller : capacity ≠ maxCapacity) : IsCapacity log2MinGrowth (2 * capacity) := by
  obtain ⟨exponent, rfl, lower, upper⟩ := reached
  have different : exponent ≠ 29 := fun same => smaller (by rw [same]; rfl)
  exact ⟨exponent + 1, Nat.pow_succ'.symm, by omega, by omega⟩

/-! ### Arenas -/

/-- A capacity of an arena: none at all, or one that growth by a step can reach. -/
def IsArenaCapacity (log2MinGrowth capacity : Nat) : Prop :=
  capacity = 0 ∨ IsCapacity log2MinGrowth capacity

theorem IsArenaCapacity.le_max (reached : IsArenaCapacity log2MinGrowth capacity) :
    capacity ≤ maxCapacity := by
  rcases reached with rfl | reached
  · exact Nat.zero_le _
  · exact reached.le_max

theorem grownArena_eq (reached : IsCapacity log2MinGrowth capacity) :
    grownArena capacity log2MinGrowth =
      if capacity = maxCapacity then .error (.overflow .arenaCapacity) else .ok (2 * capacity) := by
  have step := reached.le_log2
  have grown := @grownCapacity_step 0 capacity log2MinGrowth reached (Nat.zero_le _)
  simp only [grownArena, growthStep, if_pos (show log2MinGrowth < 64 by omega), Checked.bind_ok,
    reached.size?_step, orFail, grown]
  by_cases largest : capacity = maxCapacity
  · rw [if_pos largest, if_pos largest]
    rfl
  · rw [if_neg largest, if_neg largest]
    rfl

/-- The first capacity of an arena is the growth step. -/
theorem grownArena_zero (step : log2MinGrowth ≤ 29) :
    grownArena 0 log2MinGrowth = .ok (2 ^ log2MinGrowth) := by
  have bound : 2 ^ log2MinGrowth ≤ 2 ^ 29 := Nat.pow_le_pow_right (by decide) step
  have sized : size? (2 ^ log2MinGrowth) = some (2 ^ log2MinGrowth) :=
    size?_eq_some_iff.mpr ⟨by unfold sizeLimit; omega, rfl⟩
  have grown : grownCapacity 0 (2 ^ log2MinGrowth) log2MinGrowth = .ok (2 ^ log2MinGrowth) := by
    refine grownCapacity_eq_ok.mpr ⟨?_, bound⟩
    rw [Nat.max_eq_right (Nat.zero_le _), Nat.max_self, ceilLog2_two_pow]
  simp only [grownArena, growthStep, if_pos (show log2MinGrowth < 64 by omega), Checked.bind_ok,
    Nat.zero_add, sized, orFail, grown]
  rfl

section

variable {required fuel exponent : Nat}

theorem grownDataCapacityWithin_eq (lower : log2MinGrowth ≤ exponent) (upper : exponent ≤ 29)
    (bound : required ≤ maxCapacity) (enough : 29 ≤ exponent + fuel) :
    grownDataCapacityWithin required log2MinGrowth fuel (2 ^ exponent) =
      .ok (2 ^ max exponent (ceilLog2 required)) := by
  have least : ceilLog2 required ≤ 29 := ceilLog2_le_iff.mpr bound
  have found (fits : required ≤ 2 ^ exponent) : max exponent (ceilLog2 required) = exponent :=
    Nat.max_eq_left (ceilLog2_le_iff.mpr fits)
  induction fuel generalizing exponent with
  | zero =>
    obtain rfl : exponent = 29 := by omega
    have fits : required ≤ 2 ^ 29 := bound
    rw [grownDataCapacityWithin, if_pos fits, found fits]
  | succ fuel inductionHypothesis =>
    rw [grownDataCapacityWithin]
    by_cases fits : required ≤ 2 ^ exponent
    · rw [if_pos fits, found fits]
    · have larger : exponent < ceilLog2 required := by
        by_cases small : ceilLog2 required ≤ exponent
        · exact absurd (ceilLog2_le_iff.mp small) fits
        · omega
      have notLargest : 2 ^ exponent ≠ maxCapacity := fun same => fits (same ▸ bound)
      rw [if_neg fits, grownArena_eq ⟨exponent, rfl, lower, upper⟩, if_neg notLargest,
        Checked.bind_ok, ← Nat.pow_succ',
        inductionHypothesis (by omega) (by omega) (by omega) fun fits =>
          Nat.max_eq_left (ceilLog2_le_iff.mpr fits)]
      congr 2
      omega

theorem grownDataCapacityWithin_eq_error (lower : log2MinGrowth ≤ exponent) (upper : exponent ≤ 29)
    (large : maxCapacity < required) :
    grownDataCapacityWithin required log2MinGrowth fuel (2 ^ exponent) =
      .error (.overflow .arenaCapacity) := by
  have reached : 2 ^ exponent ≤ maxCapacity := Nat.pow_le_pow_right (by decide) upper
  have tooSmall : ¬ required ≤ 2 ^ exponent := by omega
  induction fuel generalizing exponent with
  | zero => rw [grownDataCapacityWithin, if_neg tooSmall]
  | succ fuel inductionHypothesis =>
    rw [grownDataCapacityWithin, if_neg tooSmall, grownArena_eq ⟨exponent, rfl, lower, upper⟩]
    by_cases largest : 2 ^ exponent = maxCapacity
    · rw [if_pos largest]
      rfl
    · have smaller : exponent < 29 := by
        rcases Nat.lt_or_eq_of_le upper with smaller | rfl
        · exact smaller
        · exact absurd rfl largest
      have next : 2 ^ (exponent + 1) ≤ maxCapacity := Nat.pow_le_pow_right (by decide) smaller
      rw [if_neg largest, Checked.bind_ok, ← Nat.pow_succ',
        inductionHypothesis (by omega) (by omega) next (by omega)]

variable (step : log2MinGrowth ≤ 29) (reached : IsArenaCapacity log2MinGrowth capacity)
  (more : capacity < required)

include step reached more

/-- An arena grows to the least power of two that is large enough for what is required and for
the growth step. -/
theorem grownDataCapacity_eq (bound : required ≤ maxCapacity) :
    grownDataCapacity capacity required log2MinGrowth =
      .ok (2 ^ max log2MinGrowth (ceilLog2 required)) := by
  rw [grownDataCapacity]
  rcases reached with rfl | ⟨exponent, rfl, lower, upper⟩
  · rw [grownDataCapacityWithin, if_neg (by omega), grownArena_zero step, Checked.bind_ok,
      grownDataCapacityWithin_eq (Nat.le_refl _) step bound (by omega)]
  · have larger : exponent < ceilLog2 required := by
      by_cases small : ceilLog2 required ≤ exponent
      · have fits := ceilLog2_le_iff.mp small
        omega
      · omega
    rw [grownDataCapacityWithin_eq lower upper bound (by omega)]
    congr 2
    omega

theorem grownDataCapacity_of (bound : required ≤ maxCapacity) :
    ∃ grown, grownDataCapacity capacity required log2MinGrowth = .ok grown ∧
      IsCapacity log2MinGrowth grown ∧ required ≤ grown := by
  have least : ceilLog2 required ≤ 29 := ceilLog2_le_iff.mpr bound
  refine ⟨_, grownDataCapacity_eq step reached more bound,
    ⟨_, rfl, Nat.le_max_left _ _, Nat.max_le.mpr ⟨step, least⟩⟩, ?_⟩
  exact ceilLog2_le_iff.mp (Nat.le_max_right _ _)

/-- More than the largest capacity is refused. -/
theorem grownDataCapacity_eq_error (large : maxCapacity < required) :
    grownDataCapacity capacity required log2MinGrowth = .error (.overflow .arenaCapacity) := by
  rw [grownDataCapacity]
  rcases reached with rfl | ⟨exponent, rfl, lower, upper⟩
  · rw [grownDataCapacityWithin, if_neg (by omega), grownArena_zero step, Checked.bind_ok,
      grownDataCapacityWithin_eq_error (Nat.le_refl _) step large]
  · exact grownDataCapacityWithin_eq_error lower upper large

end

/-! ### Room -/

/-- The capacity after room has been made for one more row. -/
def roomyCapacity (count capacity : Nat) : Nat :=
  if count = capacity then 2 * capacity else capacity

/-- The capacity of the arena after room has been made for what is required. -/
def wideCapacity (log2MinGrowth dataCapacity required : Nat) : Nat :=
  if dataCapacity < required then 2 ^ max log2MinGrowth (ceilLog2 required) else dataCapacity

theorem le_roomyCapacity : capacity ≤ roomyCapacity count capacity := by
  unfold roomyCapacity
  split <;> omega

theorem roomyCapacity_reached (reached : IsCapacity log2MinGrowth capacity)
    (room : count ≤ capacity) (smaller : count = capacity → capacity ≠ maxCapacity) :
    IsCapacity log2MinGrowth (roomyCapacity count capacity) ∧
      count < roomyCapacity count capacity := by
  have positive := reached.pos
  unfold roomyCapacity
  by_cases full : count = capacity
  · rw [if_pos full]
    exact ⟨reached.double (smaller full), by omega⟩
  · rw [if_neg full]
    exact ⟨reached, by omega⟩

/-! ### Sizings -/

/-- The arena capacity for a sizing, which may be none at all. -/
def initialData (sizing : Sizing) : Checked Nat :=
  if sizing.dataCapacity = 0 then .ok 0
  else grownCapacity 0 sizing.dataCapacity sizing.log2MinGrowth

section

variable {sizing : Sizing}

theorem isArenaCapacity_of_initialData {dataCapacity : Nat}
    (grown : initialData sizing = .ok dataCapacity) :
    IsArenaCapacity sizing.log2MinGrowth dataCapacity := by
  unfold initialData at grown
  by_cases nothing : sizing.dataCapacity = 0
  · rw [if_pos nothing] at grown
    exact Or.inl (Except.ok.inj grown).symm
  · rw [if_neg nothing] at grown
    exact Or.inr (IsCapacity.of_grown grown).1

theorem initialData_of (small : sizing.dataCapacity ≤ maxCapacity)
    (step : sizing.log2MinGrowth ≤ 29) : ∃ dataCapacity, initialData sizing = .ok dataCapacity := by
  unfold initialData
  by_cases nothing : sizing.dataCapacity = 0
  · exact ⟨0, if_pos nothing⟩
  · obtain ⟨dataCapacity, grownData⟩ := grownCapacity_of (Nat.zero_le _) small step
    exact ⟨dataCapacity, (if_neg nothing).trans grownData⟩

/-- Creation asks for the arena capacity in two branches. -/
theorem lift_initialData {σ α : Type} (next : Nat → Edit σ α) :
    (if sizing.dataCapacity = 0 then pure 0 >>= next
      else liftM (grownCapacity 0 sizing.dataCapacity sizing.log2MinGrowth) >>= next) =
      (liftM (initialData sizing) >>= next) := by
  unfold initialData
  by_cases nothing : sizing.dataCapacity = 0
  · rw [if_pos nothing, if_pos nothing]
    rfl
  · rw [if_neg nothing, if_neg nothing]

end

/-! ### Header words -/

theorem bucketCapacityFor_eq (reached : IsCapacity log2MinGrowth capacity) :
    bucketCapacityFor capacity = .ok (2 * capacity) := by
  obtain ⟨exponent, rfl, -, upper⟩ := reached
  have bound : 2 ^ exponent ≤ 2 ^ 29 := Nat.pow_le_pow_right (by decide) upper
  have double : 2 ^ (exponent + 1) = 2 ^ exponent * 2 := Nat.pow_succ 2 exponent
  have sized : size? (2 ^ exponent * 2) = some (2 ^ (exponent + 1)) :=
    size?_eq_some_iff.mpr ⟨by unfold sizeLimit; omega, double⟩
  have rounded : ceilPow2? (2 ^ (exponent + 1)) = some (2 ^ (exponent + 1)) :=
    ceilPow2?_eq_some.mpr (by rw [ceilLog2_two_pow]; exact ⟨by omega, rfl⟩)
  rw [bucketCapacityFor, sized, Option.bind_some, rounded, Nat.pow_succ']
  rfl

theorem toWord32_of {value : Nat} (bound : value < 2 ^ 32) (what : Quantity) :
    toWord32 value what = .ok value := if_pos bound

theorem toWord32_eq_ok {value result : Nat} {what : Quantity} :
    toWord32 value what = .ok result ↔ value < 2 ^ 32 ∧ value = result := by
  unfold toWord32
  by_cases small : value < 2 ^ 32
  · rw [if_pos small]
    exact ⟨fun run => ⟨small, Except.ok.inj run⟩, fun both => congrArg Except.ok both.2⟩
  · rw [if_neg small]
    exact ⟨fun run => absurd run (by simp), fun both => absurd both.1 small⟩

theorem successor_of {value : Nat} (bound : value + 1 < 2 ^ 32) :
    successor value = .ok (value + 1) := by
  rw [successor, require_of bound]
  rfl

theorem IsCapacity.lt_word (reached : IsCapacity log2MinGrowth capacity) :
    2 * capacity < 2 ^ 32 := by
  have bound := reached.le_max
  unfold maxCapacity at bound
  omega

end PackedStore
