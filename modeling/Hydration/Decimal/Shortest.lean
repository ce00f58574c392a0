/-!
# The shortest decimal of a double

A finite double stands for an interval of reals: those that round to it.  Of
the decimals in that interval the shortest is chosen, and of the shortest ones
the nearest.  All comparisons are between natural numbers.
-/

namespace Hydration

/-- The number `digits * 10 ^ exponent`. -/
structure Decimal where
  digits : Nat
  exponent : Int
  deriving DecidableEq, Repr

namespace Decimal

/-- The number of decimal digits of a number; none for zero. -/
def width (number : Nat) : Nat :=
  if small : number = 0 then 0 else width (number / 10) + 1
termination_by number
decreasing_by omega

/-- The significand and the binary exponent of the magnitude of a finite double. -/
def binary (bits : Nat) : Nat × Int :=
  let field : Nat := bits / Nat.pow 2 52 % Nat.pow 2 11
  let fraction : Nat := bits % Nat.pow 2 52
  if field = 0 then (fraction, -1074) else (fraction + Nat.pow 2 52, (field : Int) - 1075)

/--
The magnitude of a double and the ends of the interval that rounds to it, as
numerators over one denominator.  The lower end is nearer at a power of two.
-/
structure Span where
  low : Nat
  value : Nat
  high : Nat
  denominator : Nat
  /-- Whether the ends themselves round to the double. -/
  closed : Bool

/-- The interval of the double with significand `significand` and exponent `exponent`. -/
def Span.of (significand : Nat) (exponent : Int) : Span :=
  let below := if significand = Nat.pow 2 52 ∧ exponent ≠ -1074 then 1 else 2
  let scale := Nat.pow 2 (exponent - 2).toNat
  { low := (4 * significand - below) * scale
    value := 4 * significand * scale
    high := (4 * significand + 2) * scale
    denominator := Nat.pow 2 (2 - exponent).toNat
    closed := significand % 2 = 0 }

/-- The exponent of the leading decimal digit of a positive quotient. -/
def leadingExponent (numerator denominator : Nat) : Int :=
  if denominator ≤ numerator then
    (width (numerator / denominator) : Int) - 1
  else
    -(width ((denominator - 1) / numerator) : Int)

/--
The decimal with `count` digits in the interval that is nearest to the value,
the larger one of two equally near; none if there is no such decimal.
-/
def Span.hit? (span : Span) (count : Nat) : Option Decimal :=
  let exponent := leadingExponent span.value span.denominator + 1 - count
  let unit := Nat.pow 10 exponent.toNat * span.denominator
  let scale := Nat.pow 10 (-exponent).toNat
  let inside (multiple : Nat) : Bool :=
    if span.closed then
      span.low * scale ≤ multiple * unit && multiple * unit ≤ span.high * scale
    else
      span.low * scale < multiple * unit && multiple * unit < span.high * scale
  let lower := span.value * scale / unit
  let upperDistance := (lower + 1) * unit - span.value * scale
  let lowerDistance := span.value * scale - lower * unit
  match inside lower, inside (lower + 1) with
  | true, true =>
      if upperDistance ≤ lowerDistance then some ⟨lower + 1, exponent⟩
      else some ⟨lower, exponent⟩
  | true, false => some ⟨lower, exponent⟩
  | false, true => some ⟨lower + 1, exponent⟩
  | false, false => none

/-- Moves trailing zeros of the digits into the exponent. -/
def reduced (decimal : Decimal) : Decimal :=
  if zero : decimal.digits = 0 then
    ⟨0, 0⟩
  else if decimal.digits % 10 = 0 then
    reduced ⟨decimal.digits / 10, decimal.exponent + 1⟩
  else
    decimal
termination_by decimal.digits
decreasing_by omega

/-- The shortest decimal that reads back as the magnitude of a finite double. -/
def shortest (number : Float) : Decimal :=
  let parts := binary number.toBits.toNat
  if parts.1 = 0 then
    ⟨0, 0⟩
  else
    let span := Span.of parts.1 parts.2
    (((List.range 17).findSome? fun count => span.hit? (count + 1)).getD ⟨0, 0⟩).reduced

end Decimal

end Hydration
