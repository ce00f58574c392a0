import Hydration.Decimal.Shortest

/-!
# Laying out decimals

Where the point stands and when a power of ten is written.  A `Layout` holds
the choices of one kind of text; `Layout.description` is the one used by
descriptions and by written numbers.
-/

namespace Hydration

namespace Decimal

/-- The choices of a written form. -/
structure Layout where
  /-- The smallest leading exponent written without a power of ten. -/
  lowest : Int
  /-- The leading exponent from which a power of ten is written. -/
  limit : Int
  /-- What stands behind a whole number. -/
  wholeMark : String
  /-- What stands before the power of ten. -/
  exponentMark : String

/-- Numbers from 0.0001 up to 10^16 are positional and keep one place. -/
def Layout.description : Layout := ⟨-4, 16, ".0", "e"⟩

/-- The digits of a number in base ten. -/
def digitText (number : Nat) : List Char :=
  Nat.toDigits 10 number

/-- Digits with a point; `places` counts the digits behind it. -/
def pointed (digits : List Char) (places : Nat) : List Char :=
  let padded := List.replicate (places + 1 - digits.length) '0' ++ digits
  let whole := padded.length - places
  padded.take whole ++ '.' :: padded.drop whole

def write (layout : Layout) (decimal : Decimal) : String :=
  let digits := digitText decimal.digits
  let leading := decimal.exponent + digits.length - 1
  if decimal.digits = 0 then
    "0" ++ layout.wholeMark
  else if layout.lowest ≤ leading ∧ leading < layout.limit then
    if 0 ≤ decimal.exponent then
      String.ofList (digits ++ List.replicate decimal.exponent.toNat '0') ++ layout.wholeMark
    else
      String.ofList (pointed digits (-decimal.exponent).toNat)
  else
    let significand :=
      match digits with
      | first :: next :: rest => first :: '.' :: next :: rest
      | _ => digits
    String.ofList significand ++ layout.exponentMark ++ toString leading

/-- The text of a double. -/
def writeFloat (layout : Layout) (number : Float) : String :=
  let sign := if number.toBits.toNat / Nat.pow 2 63 = 1 then "-" else ""
  if number.isNaN then "NaN"
  else if number.isInf then sign ++ "inf"
  else sign ++ write layout (shortest number)

end Decimal

end Hydration
