/-
This file writes a binary floating-point number, given as its bit pattern, with
the fewest digits that identify it: positionally with a point for leading digits
between the fourth place after the point and the sixteenth place before it, and
with an exponent beyond. The sign of zero is kept.
-/

import PackedStore.Decimal.Shortest

namespace PackedStore.Decimal

/-- The widths of a binary floating-point format. -/
structure FloatFormat where
  /-- Bits of the stored fraction. -/
  fractionBits : Nat
  /-- Bits of the stored exponent. -/
  exponentBits : Nat
deriving DecidableEq, Repr

namespace FloatFormat

def binary32 : FloatFormat := ⟨23, 8⟩

def binary64 : FloatFormat := ⟨52, 11⟩

/-- The exponent of the last binary place of the smallest values. -/
def leastExponent (format : FloatFormat) : Int :=
  2 - 2 ^ (format.exponentBits - 1) - format.fractionBits

/-- The absolute value of a finite non-zero number with the given stored exponent and fraction. -/
def binaryValue (format : FloatFormat) (exponent fraction : Nat) : Binary :=
  if exponent = 0 then
    ⟨fraction, format.leastExponent, false⟩
  else
    ⟨fraction + 2 ^ format.fractionBits, format.leastExponent + exponent - 1,
      fraction == 0 && 1 < exponent⟩

end FloatFormat

/-- Digits with a point after the first `before` of them, padded with zeros on either side. -/
def positional (digits : String) (before : Int) : String :=
  let count := digits.length
  if before ≤ 0 then
    "0." ++ "".pushn '0' (-before).toNat ++ digits
  else if count ≤ before.toNat then
    digits ++ "".pushn '0' (before.toNat - count) ++ ".0"
  else
    String.ofList (digits.toList.take before.toNat) ++ "."
      ++ String.ofList (digits.toList.drop before.toNat)

/-- Digits with a point after the first one, if there are more, and an exponent. -/
def withExponent (digits : String) (exponent : Int) : String :=
  let rest := String.ofList (digits.toList.drop 1)
  String.ofList (digits.toList.take 1) ++ (if rest = "" then "" else "." ++ rest)
    ++ "e" ++ toString exponent

/-- A decimal in the notation that its leading digit asks for. -/
def Scientific.text (decimal : Scientific) : String :=
  let digits := toString decimal.digits
  let leading := decimal.exponent + digits.length - 1
  if -5 < leading ∧ leading < 16 then
    positional digits (leading + 1)
  else
    withExponent digits leading

/-- The text of the number with the bit pattern `bits`. -/
def floatText (format : FloatFormat) (bits : Nat) : String :=
  let fraction := bits % 2 ^ format.fractionBits
  let exponent := bits / 2 ^ format.fractionBits % 2 ^ format.exponentBits
  let negative := bits / 2 ^ (format.fractionBits + format.exponentBits) % 2 = 1
  let sign := if negative then "-" else ""
  if exponent = 2 ^ format.exponentBits - 1 then
    if fraction = 0 then sign ++ "inf" else "NaN"
  else if exponent = 0 ∧ fraction = 0 then
    sign ++ "0.0"
  else
    sign ++ (format.binaryValue exponent fraction).shortest.text

end PackedStore.Decimal
