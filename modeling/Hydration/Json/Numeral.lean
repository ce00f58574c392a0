import Hydration.Json.Basic

/-!
# Written numbers

What a written number stands for.  Whole numbers of 64 bits are kept as they
are.  Any other number becomes a double in two roundings: the digits that fit a
word of 64 bits become a double, and that is multiplied or divided by a power
of ten.  The result may be a neighbour of the nearest double, and a number that
leaves the range of doubles on the way has no value.
-/

namespace Hydration

namespace Json

/-- The value of a decimal digit. -/
def digitValue (digit : Char) : Nat :=
  digit.toNat - 48

/-- The value of a run of decimal digits. -/
def digitsValue (digits : List Char) : Nat :=
  digits.foldl (fun value digit => value * 10 + digitValue digit) 0

/--
Appends digits to a significand up to the first one that would take it out of
64 bits; gives also how many were appended.
-/
def appendDigits (significand : Nat) : List Char → Nat × Nat
  | [] => (significand, 0)
  | digit :: rest =>
      let next := significand * 10 + digitValue digit
      if next < UInt64.size then
        let appended := appendDigits next rest
        (appended.1, appended.2 + 1)
      else
        (significand, 0)

theorem appendDigits_lt
    {significand : Nat}
    {digits : List Char}
    (word : significand < UInt64.size) :
    (appendDigits significand digits).1 < UInt64.size := by
  induction digits generalizing significand with
  | nil => simpa [appendDigits] using word
  | cons digit rest inductionHypothesis =>
      unfold appendDigits
      dsimp only
      split
      · next fits => exact inductionHypothesis fits
      · exact word

/-- The largest power of ten that is a double. -/
def largestPower : Nat := 308

/-- The double nearest to a power of ten. -/
def powerOfTen (exponent : Nat) : Float :=
  Float.ofScientific 1 false exponent

/--
A double times a power of ten; none if it leaves the range of doubles.  A
division by a power beyond the largest one is done in parts.
-/
def scale? (value : Float) (exponent : Int) : Option Float :=
  if exponent.natAbs ≤ largestPower then
    if 0 ≤ exponent then
      let scaled := value * powerOfTen exponent.natAbs
      if scaled.isInf then none else some scaled
    else
      some (value / powerOfTen exponent.natAbs)
  else if value == 0.0 then
    some value
  else if 0 ≤ exponent then
    none
  else
    scale? (value / powerOfTen largestPower) (exponent + largestPower)
termination_by exponent.natAbs
decreasing_by
  simp only [largestPower] at *
  omega

/-- The parts of a written number. -/
structure Numeral where
  negative : Bool
  /-- The digits before the point. -/
  whole : List Char
  /-- The digits behind the point. -/
  places : List Char
  exponent : Int
  /-- Neither a point nor an exponent is written. -/
  plain : Bool

namespace Numeral

/--
The digits that fit a word, and the power of ten that belongs to them.  Digits
before the point that do not fit count as zeros.
-/
def significand (numeral : Numeral) : Nat × Int :=
  let whole := appendDigits 0 numeral.whole
  let all := appendDigits whole.1 numeral.places
  (all.1, numeral.exponent + (numeral.whole.length - whole.2 : Nat) - all.2)

theorem significand_lt (numeral : Numeral) : numeral.significand.1 < UInt64.size :=
  appendDigits_lt (appendDigits_lt (by decide))

/-- The double that a numeral stands for; none outside the range of doubles. -/
def double? (numeral : Numeral) : Option Float :=
  let parts := numeral.significand
  (scale? parts.1.toUInt64.toFloat parts.2).map fun magnitude =>
    if numeral.negative then -magnitude else magnitude

/--
The value of a numeral: whole numbers of 64 bits are kept, with or without a
sign; a negative zero and all others are doubles.
-/
def value? (numeral : Numeral) : Option Json :=
  let magnitude := digitsValue numeral.whole
  if numeral.plain ∧ numeral.negative = false ∧ magnitude < UInt64.size then
    some (.int magnitude)
  else if numeral.plain ∧ numeral.negative = true ∧ 0 < magnitude ∧ magnitude ≤ UInt64.size / 2 then
    some (.int (-magnitude))
  else
    numeral.double?.map .real

end Numeral

end Json

end Hydration
