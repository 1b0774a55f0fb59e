/-
This file finds the shortest decimal of a binary floating-point value: the fewest
digits that still identify the value among its neighbours, and of two such
decimals the nearer one. A value is `significand * 2 ^ exponent`; the reals that
round to it lie between two midpoints, which themselves belong to it exactly when
the significand is even. The search goes from coarse to fine decimal grids and
looks at the two neighbours of the value on each. All comparisons are exact,
between natural numbers.
-/

namespace PackedStore.Decimal

/-- A positive binary value `significand * 2 ^ exponent`. The gap below it is half as wide as
the gap above when `narrowBelow` holds, as it is at a power of two. -/
structure Binary where
  significand : Nat
  exponent : Int
  narrowBelow : Bool
deriving DecidableEq, Repr

/-- The decimal `digits * 10 ^ exponent`. -/
structure Scientific where
  digits : Nat
  exponent : Int
deriving DecidableEq, Repr

namespace Binary

/-- The value of `quarters` quarter units of the last binary place, on a scale that is common to
all decimals with the exponent `grid`. -/
def scaleBinary (value : Binary) (grid : Int) (quarters : Nat) : Nat :=
  quarters * 2 ^ (value.exponent - 2).toNat * 10 ^ (-grid).toNat

/-- The decimal `digits * 10 ^ grid` on the scale of `scaleBinary`. -/
def scaleDecimal (value : Binary) (grid : Int) (digits : Nat) : Nat :=
  digits * 10 ^ grid.toNat * 2 ^ (2 - value.exponent).toNat

/-- Whether `digits * 10 ^ grid` rounds to the value. -/
def readsBack (value : Binary) (grid : Int) (digits : Nat) : Bool :=
  let low := value.scaleBinary grid
    (4 * value.significand - if value.narrowBelow then 1 else 2)
  let high := value.scaleBinary grid (4 * value.significand + 2)
  let candidate := value.scaleDecimal grid digits
  if value.significand % 2 = 0 then
    low ≤ candidate && candidate ≤ high
  else
    low < candidate && candidate < high

/-- The better of the value's two neighbours on the decimal grid `10 ^ grid`, if one of them
rounds to the value. The nearer one wins, the upper one if both are equally near. -/
def onGrid? (value : Binary) (grid : Int) : Option Scientific :=
  let exact := value.scaleBinary grid (4 * value.significand)
  let below := exact / value.scaleDecimal grid 1
  let above := below + 1
  let belowFits := 0 < below && value.readsBack grid below
  let aboveFits := value.readsBack grid above
  if belowFits && aboveFits then
    if 2 * exact < value.scaleDecimal grid below + value.scaleDecimal grid above then
      some ⟨below, grid⟩
    else
      some ⟨above, grid⟩
  else if belowFits then
    some ⟨below, grid⟩
  else if aboveFits then
    some ⟨above, grid⟩
  else
    none

/-- A decimal exponent that is at least that of the value's leading digit. -/
def coarsestGrid (value : Binary) : Int :=
  (value.significand.log2 + value.exponent) * 30103 / 100000 + 2

/-- The value written out in full. -/
def exactDecimal (value : Binary) : Scientific :=
  if 0 ≤ value.exponent then
    ⟨value.significand * 2 ^ value.exponent.toNat, 0⟩
  else
    ⟨value.significand * 5 ^ (-value.exponent).toNat, value.exponent⟩

/-- The shortest decimal that rounds to the value. Twenty-four grids reach past the seventeen
digits that every value of at most 53 bits needs at most. -/
def shortest (value : Binary) : Scientific :=
  let grids := (List.range 24).map fun step : Nat => value.coarsestGrid - (step : Int)
  (grids.findSome? value.onGrid?).getD value.exactDecimal

end Binary

end PackedStore.Decimal
