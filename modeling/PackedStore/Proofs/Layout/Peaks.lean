/-
This file relates capacities to what was ever asked of them. Slots are doubled when
all are in use or raised by an explicit request, an arena grows step by step until
what is required fits, and nothing ever shrinks. Either way a capacity is the least
power of two above the largest demand so far, if the first capacity was too small.
-/

import PackedStore.Proofs.Layout.Growth

namespace PackedStore

/-! ### The next power of two -/

/-- The least power of two that is at least a number. -/
def nextPower (value : Nat) : Nat := 2 ^ ceilLog2 value

section

variable {value other log2MinGrowth capacity count required : Nat}

theorem nextPower_le_two_pow {exponent : Nat} : nextPower value ≤ 2 ^ exponent ↔ value ≤ 2 ^ exponent :=
  (Nat.pow_le_pow_iff_right (by decide)).trans ceilLog2_le_iff

/-- It is a power of two, and none that is smaller is large enough. -/
theorem isLeast_nextPower (value : Nat) :
    (∃ exponent, nextPower value = 2 ^ exponent) ∧ value ≤ nextPower value ∧
      ∀ exponent, value ≤ 2 ^ exponent → nextPower value ≤ 2 ^ exponent :=
  ⟨⟨_, rfl⟩, le_two_pow_ceilLog2 value, fun _ => nextPower_le_two_pow.mpr⟩

theorem le_nextPower (value : Nat) : value ≤ nextPower value :=
  le_two_pow_ceilLog2 value

theorem nextPower_two_pow (exponent : Nat) : nextPower (2 ^ exponent) = 2 ^ exponent := by
  rw [nextPower, ceilLog2_two_pow]

theorem nextPower_max (value other : Nat) :
    nextPower (max value other) = max (nextPower value) (nextPower other) := by
  refine Nat.le_antisymm ?_ (Nat.max_le.mpr ⟨?_, ?_⟩)
  · rcases Nat.le_total (nextPower value) (nextPower other) with below | below
    · rw [Nat.max_eq_right below]
      exact nextPower_le_two_pow.mpr
        (Nat.max_le.mpr ⟨Nat.le_trans (le_nextPower value) below, le_nextPower other⟩)
    · rw [Nat.max_eq_left below]
      exact nextPower_le_two_pow.mpr
        (Nat.max_le.mpr ⟨le_nextPower value, Nat.le_trans (le_nextPower other) below⟩)
  · exact nextPower_le_two_pow.mpr (Nat.le_trans (Nat.le_max_left _ _) (le_nextPower _))
  · exact nextPower_le_two_pow.mpr (Nat.le_trans (Nat.le_max_right _ _) (le_nextPower _))

/-! ### Capacities as powers of two -/

/-- A capacity is its own next power of two. -/
theorem IsCapacity.nextPower_le (reached : IsCapacity log2MinGrowth capacity) :
    nextPower value ≤ capacity ↔ value ≤ capacity := by
  obtain ⟨exponent, rfl, -, -⟩ := reached
  exact nextPower_le_two_pow

theorem IsCapacity.step_le (reached : IsCapacity log2MinGrowth capacity) :
    2 ^ log2MinGrowth ≤ capacity := by
  obtain ⟨exponent, rfl, lower, -⟩ := reached
  exact Nat.pow_le_pow_right (by decide) lower

/-- One more row needs the next power of two above the number of rows. -/
theorem roomyCapacity_eq (reached : IsCapacity log2MinGrowth capacity) (room : count ≤ capacity) :
    roomyCapacity count capacity = max capacity (nextPower (count + 1)) := by
  unfold roomyCapacity
  by_cases full : count = capacity
  · rw [if_pos full, full]
    obtain ⟨exponent, rfl, -, -⟩ := reached
    have positive := Nat.two_pow_pos exponent
    have double : 2 ^ (exponent + 1) = 2 * 2 ^ exponent := Nat.pow_succ'
    rw [nextPower, ceilLog2_of_between (Nat.lt_succ_self _) (by omega), double]
    omega
  · rw [if_neg full, Nat.max_eq_left]
    exact reached.nextPower_le.mpr (by omega)

/-- A request for more slots is raised to the next power of two. -/
theorem grownCapacity_eq_max (reached : IsCapacity log2MinGrowth capacity)
    (room : count ≤ capacity) (more : capacity < required) {grown : Nat}
    (isGrown : grownCapacity count required log2MinGrowth = .ok grown) :
    grown = max capacity (nextPower required) := by
  have step := reached.step_le
  have above := le_nextPower required
  obtain ⟨rfl, -⟩ := grownCapacity_eq_ok.mp isGrown
  rw [Nat.max_eq_right (show count ≤ required by omega),
    Nat.max_eq_left (show 2 ^ log2MinGrowth ≤ required by omega), ← nextPower]
  omega

theorem wideCapacity_of_le (enough : required ≤ capacity) :
    wideCapacity log2MinGrowth capacity required = capacity := by
  rw [wideCapacity, if_neg (Nat.not_lt_of_le enough)]

theorem wideCapacity_of_lt (more : capacity < required) :
    wideCapacity log2MinGrowth capacity required = nextPower (max (2 ^ log2MinGrowth) required) := by
  rw [wideCapacity, if_pos more, nextPower_max, nextPower_two_pow, nextPower]
  rcases Nat.le_total log2MinGrowth (ceilLog2 required) with below | below
  · rw [Nat.max_eq_right below, Nat.max_eq_right (Nat.pow_le_pow_right (by decide) below)]
  · rw [Nat.max_eq_left below, Nat.max_eq_left (Nat.pow_le_pow_right (by decide) below)]

end

/-! ### Usage -/

/-- How much of a container is there, and how much of it is in use. -/
structure Usage where
  count : Nat
  capacity : Nat
  /-- Units of the arena. -/
  dataCapacity : Nat
  /-- Units of the arena in use. -/
  dataAllocated : Nat
  log2MinGrowth : Nat
deriving DecidableEq, Repr

namespace Usage

/-- The capacities are ones that growth can reach, and what is in use is within them. -/
structure Regular (usage : Usage) : Prop where
  reached : IsCapacity usage.log2MinGrowth usage.capacity
  dataReached : IsArenaCapacity usage.log2MinGrowth usage.dataCapacity
  count_le : usage.count ≤ usage.capacity
  allocated_le : usage.dataAllocated ≤ usage.dataCapacity

/-- The sizing of a new container that starts with the capacities of this one and grows by the same
steps. -/
def sizing (usage : Usage) : Sizing where
  capacity := usage.capacity
  dataCapacity := usage.dataCapacity
  minGrowth := 2 ^ usage.log2MinGrowth

theorem log2MinGrowth_sizing (usage : Usage) :
    usage.sizing.log2MinGrowth = usage.log2MinGrowth :=
  ceilLog2_two_pow usage.log2MinGrowth

theorem Regular.grown_sizing {usage : Usage} (regular : usage.Regular) :
    grownCapacity 0 usage.sizing.capacity usage.sizing.log2MinGrowth = .ok usage.capacity := by
  rw [log2MinGrowth_sizing]
  exact regular.reached.grown_self

theorem Regular.initialData_sizing {usage : Usage} (regular : usage.Regular) :
    initialData usage.sizing = .ok usage.dataCapacity := by
  unfold initialData
  by_cases nothing : usage.sizing.dataCapacity = 0
  · rw [if_pos nothing, show usage.dataCapacity = 0 from nothing]
  · rw [if_neg nothing, log2MinGrowth_sizing]
    rcases regular.dataReached with none | reached
    · exact absurd none nothing
    · exact reached.grown_self

/-- A step raises the capacities no more than the rows and slots, and the arena units, ask for that
are in use after it or were requested by it. -/
structure Moves (requested reserved : Nat) (before after : Usage) : Prop where
  capacity : after.capacity =
    max before.capacity (max (nextPower after.count) (nextPower requested))
  dataCapacity : after.dataCapacity =
    wideCapacity before.log2MinGrowth before.dataCapacity (max after.dataAllocated reserved)
  step : after.log2MinGrowth = before.log2MinGrowth

namespace Moves

variable {usage after : Usage}

section

variable (regular : usage.Regular)

include regular

/-- A step that keeps both capacities and requests nothing. -/
theorem of_kept (capacity : after.capacity = usage.capacity)
    (dataCapacity : after.dataCapacity = usage.dataCapacity) (count_le : after.count ≤ usage.capacity)
    (allocated_le : after.dataAllocated ≤ usage.dataCapacity)
    (step : after.log2MinGrowth = usage.log2MinGrowth) : Moves 0 0 usage after where
  capacity := by
    have slots := regular.reached.nextPower_le.mpr count_le
    have none := regular.reached.nextPower_le.mpr (Nat.zero_le _)
    omega
  dataCapacity := by
    rw [wideCapacity_of_le (by omega)]
    exact dataCapacity
  step := step

theorem refl : Moves 0 0 usage usage :=
  .of_kept regular rfl rfl regular.count_le regular.allocated_le rfl

/-- One more row, and the arena in use up to a stop. -/
theorem added (stop : Nat) : Moves 0 0 usage
    { usage with
      count := usage.count + 1
      capacity := roomyCapacity usage.count usage.capacity
      dataCapacity := wideCapacity usage.log2MinGrowth usage.dataCapacity stop
      dataAllocated := stop } where
  capacity := by
    have none := regular.reached.nextPower_le.mpr (Nat.zero_le usage.capacity)
    simp only [roomyCapacity_eq regular.reached regular.count_le]
    omega
  dataCapacity := by rw [Nat.max_eq_left (Nat.zero_le _)]
  step := rfl

/-- The same rows, and the arena in use up to a stop. -/
theorem taken (stop : Nat) : Moves 0 0 usage
    { usage with
      dataCapacity := wideCapacity usage.log2MinGrowth usage.dataCapacity stop
      dataAllocated := stop } where
  capacity := (Moves.refl regular).capacity
  dataCapacity := by rw [Nat.max_eq_left (Nat.zero_le _)]
  step := rfl

/-- More arena is reserved behind what is in use. -/
theorem reserved (additional : Nat) : Moves 0 (usage.dataAllocated + additional) usage
    { usage with
      dataCapacity := wideCapacity usage.log2MinGrowth usage.dataCapacity
        (usage.dataAllocated + additional) } where
  capacity := (Moves.refl regular).capacity
  dataCapacity := by rw [Nat.max_eq_right (Nat.le_add_right _ _)]
  step := rfl

/-- More slots are requested. -/
theorem requested {capacity : Nat} (requested : Nat)
    (isCapacity : capacity = max usage.capacity (nextPower requested)) :
    Moves requested 0 usage { usage with capacity } where
  capacity := by
    have slots := regular.reached.nextPower_le.mpr regular.count_le
    simp only
    omega
  dataCapacity := (Moves.refl regular).dataCapacity
  step := rfl

end

end Moves

end Usage

/-! ### Peaks -/

/-- The largest numbers of a run so far. -/
structure Peaks where
  /-- Rows at any time. -/
  count : Nat := 0
  /-- Slots of any request. -/
  requested : Nat := 0
  /-- Units of the arena in use at any time, or reserved. -/
  data : Nat := 0
deriving DecidableEq, Repr

namespace Peaks

/-- The peaks after a step that requests slots, reserves units of the arena and leads to a usage. -/
def after (requested reserved : Nat) (usage : Usage) (peaks : Peaks) : Peaks where
  count := max peaks.count usage.count
  requested := max peaks.requested requested
  data := max peaks.data (max usage.dataAllocated reserved)

/-- The slots for given peaks and a first capacity. -/
def slots (initial : Nat) (peaks : Peaks) : Nat :=
  max initial (max (nextPower peaks.count) (nextPower peaks.requested))

/-- The arena for given peaks, a first capacity and a growth step. -/
def arena (initial minGrowth : Nat) (peaks : Peaks) : Nat :=
  if peaks.data ≤ initial then initial else nextPower (max minGrowth peaks.data)

theorem slots_after (initial requested reserved : Nat) (usage : Usage) (peaks : Peaks) :
    (peaks.after requested reserved usage).slots initial =
      max (peaks.slots initial) (max (nextPower usage.count) (nextPower requested)) := by
  simp only [slots, after, nextPower_max]
  omega

theorem data_le_arena (initial minGrowth : Nat) (peaks : Peaks) :
    peaks.data ≤ peaks.arena initial minGrowth := by
  unfold arena
  split
  · assumption
  · exact Nat.le_trans (Nat.le_max_right _ _) (le_nextPower _)

theorem initial_le_arena (initial minGrowth : Nat) (peaks : Peaks) :
    initial ≤ peaks.arena initial minGrowth := by
  have room := peaks.data_le_arena initial minGrowth
  by_cases small : peaks.data ≤ initial
  · exact Nat.le_of_eq (if_pos small).symm
  · omega

/-- The arena grows with the peak as it grows with what is required. -/
theorem arena_after (initial log2MinGrowth requested reserved : Nat) (usage : Usage) (peaks : Peaks) :
    (peaks.after requested reserved usage).arena initial (2 ^ log2MinGrowth) =
      wideCapacity log2MinGrowth (peaks.arena initial (2 ^ log2MinGrowth))
        (max usage.dataAllocated reserved) := by
  have room := peaks.data_le_arena initial (2 ^ log2MinGrowth)
  have larger := peaks.initial_le_arena initial (2 ^ log2MinGrowth)
  generalize isRequired : max usage.dataAllocated reserved = required
  have peak : (peaks.after requested reserved usage).data = max peaks.data required := by
    rw [← isRequired]
    rfl
  by_cases more : peaks.arena initial (2 ^ log2MinGrowth) < required
  · rw [wideCapacity_of_lt more, arena, peak, if_neg (by omega),
      Nat.max_eq_right (show peaks.data ≤ required by omega)]
  · rw [wideCapacity_of_le (Nat.le_of_not_lt more), arena, arena, peak]
    unfold arena at more
    by_cases small : peaks.data ≤ initial
    · rw [if_pos small] at more ⊢
      rw [if_pos (by omega)]
    · rw [if_neg small] at more ⊢
      rw [if_neg (by omega), ← Nat.max_assoc, nextPower_max, Nat.max_eq_left]
      exact nextPower_le_two_pow.mpr (Nat.le_of_not_lt more)

/-- The capacities are those for the peaks. -/
structure Fit (sizing : Sizing) (initial initialData : Nat) (peaks : Peaks) (usage : Usage) :
    Prop where
  capacity : usage.capacity = peaks.slots initial
  dataCapacity : usage.dataCapacity = peaks.arena initialData (2 ^ sizing.log2MinGrowth)
  step : usage.log2MinGrowth = sizing.log2MinGrowth

/-- What a step does to capacities it does to those for the peaks. -/
theorem Fit.moves {sizing : Sizing} {initial initialData requested reserved : Nat} {peaks : Peaks}
    {before after : Usage} (fit : peaks.Fit sizing initial initialData before)
    (moves : before.Moves requested reserved after) :
    (peaks.after requested reserved after).Fit sizing initial initialData after where
  capacity := by rw [moves.capacity, fit.capacity, slots_after]
  dataCapacity := by rw [moves.dataCapacity, fit.dataCapacity, fit.step, arena_after]
  step := moves.step.trans fit.step

end Peaks

end PackedStore
