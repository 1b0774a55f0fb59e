/-
This file holds the parameters a container is created with and the policy by which
it grows. The growth step is kept in headers as an exponent of two. Slot capacities
are powers of two, no smaller than the growth step and no larger than
`maxCapacity`; a table that is full grows by the growth step and is rounded up. An
arena grows in the same steps until what is required fits.
-/

import PackedStore.Arithmetic.PowerOfTwo
import PackedStore.Edit

namespace PackedStore

/-- Initial capacities and growth step of a container. Capacities are rounded up to a power of
two no smaller than the growth step, and the growth step to a power of two. -/
structure Sizing where
  /-- Initial number of slots. -/
  capacity : Nat := 0
  /-- Initial arena size, in the units of the container's arena. -/
  dataCapacity : Nat := 0
  /-- Least number of slots or arena units added by a growth. -/
  minGrowth : Nat := 256
deriving DecidableEq, Repr

namespace Sizing

/-- The exponent of the rounded growth step. -/
def log2MinGrowth (sizing : Sizing) : Nat :=
  ceilLog2 sizing.minGrowth

/-- The listing of the three parameters. -/
def listing (sizing : Sizing) : String :=
  s!"ContainerConfig \x7b capacity: {sizing.capacity}, data_capacity: {sizing.dataCapacity}, "
    ++ s!"min_growth: {sizing.minGrowth} \x7d"

end Sizing

/-! ### Growth -/

/-- The largest capacity. Twice as many buckets still have slot numbers as links. -/
def maxCapacity : Nat := 2 ^ 29

/-- The number of buckets for a number of slots. -/
def bucketCapacityFor (capacity : Nat) : Checked Nat :=
  orFail ((size? (capacity * 2)).bind ceilPow2?) (.overflow .bucketCapacity)

/-- The growth step with a given exponent. -/
def growthStep (log2MinGrowth : Nat) : Checked Nat :=
  if log2MinGrowth < 64 then .ok (2 ^ log2MinGrowth) else .error (.overflow .minimalGrowth)

/-- The capacity for at least `count` rows and `capacity` slots. -/
def grownCapacity (count capacity log2MinGrowth : Nat) : Checked Nat := do
  let step ← growthStep log2MinGrowth
  let grown ← orFail (ceilPow2? (max (max count capacity) step)) (.overflow .slotCapacity)
  if grown ≤ maxCapacity then return grown else throw (.overflow .slotCapacity)

/-- The capacity to grow to when all slots are in use. -/
def nextCapacity (count capacity log2MinGrowth : Nat) : Checked Nat := do
  let step ← growthStep log2MinGrowth
  let grown ← orFail (size? (capacity + step)) (.overflow .slotCapacity)
  grownCapacity count grown log2MinGrowth

/-- One step of the growth of an arena. -/
def grownArena (capacity log2MinGrowth : Nat) : Checked Nat := do
  let step ← growthStep log2MinGrowth
  let stepped ← orFail (size? (capacity + step)) (.overflow .arenaCapacity)
  match grownCapacity 0 stepped log2MinGrowth with
  | .ok grown => return grown
  | .error _ => throw (.overflow .arenaCapacity)

/-- The arena capacity that at least `required` units fit in, reached in at most `fuel` steps. -/
def grownDataCapacityWithin (required log2MinGrowth : Nat) : Nat → Nat → Checked Nat
  | 0, capacity =>
    if required ≤ capacity then .ok capacity else .error (.overflow .arenaCapacity)
  | fuel + 1, capacity =>
    if required ≤ capacity then .ok capacity
    else do
      grownDataCapacityWithin required log2MinGrowth fuel (← grownArena capacity log2MinGrowth)

/-- The arena capacity to grow to so that `required` units fit. Each step at least doubles a
power of two, so the largest capacity is reached or passed after 32 steps. -/
def grownDataCapacity (current required log2MinGrowth : Nat) : Checked Nat :=
  grownDataCapacityWithin required log2MinGrowth 32 current

/-- A number as a header word. -/
def toWord32 (value : Nat) (what : Quantity) : Checked Nat :=
  if value < 2 ^ 32 then .ok value else .error (.overflow what)

/-- The number one up, which must stay a header word. -/
def successor (value : Nat) : Checked Nat := do
  require (value + 1 < 2 ^ 32) .overflow
  return value + 1

end PackedStore
