import AvroCodegen.Decimal.Shortest

set_option autoImplicit false

/-! # Floats as exact numbers

A finite float is a whole number times a power of two, and so it can be compared with a whole
number, and divided with a remainder, without any rounding. The order of floats is total: nought
with a minus stands below nought, and what is not a number beyond the infinities. -/

namespace AvroCodegen.Decimal.Double

/-- Where a float stands in the order of all floats. -/
def place (x : Double) : Int :=
  let size : Int := (x.bits &&& 0x7FFFFFFFFFFFFFFF).toNat
  if x.isNegative then -size - 1 else size

/-- The significand with the sign. -/
def signedSignificand (x : Double) : Int :=
  if x.isNegative then -(x.significand : Int) else x.significand

/-- The order of a float and a whole number. -/
def compareWhole (x : Double) (n : Int) : Ordering :=
  if !x.isFinite then (if x.isNegative then .lt else .gt)
  else
    let up : Int := Nat.pow 2 x.exponent.toNat
    let down : Int := Nat.pow 2 (-x.exponent).toNat
    compare (x.signedSignificand * up) (n * down)

/-- The whole number that a float is. -/
def whole? (x : Double) : Option Int :=
  if !x.isFinite then none
  else if 0 ≤ x.exponent then some (x.signedSignificand * Nat.pow 2 x.exponent.toNat)
  else
    let down : Int := Nat.pow 2 (-x.exponent).toNat
    if x.signedSignificand % down = 0 then some (x.signedSignificand / down) else none

/-- The float `sig · 2^exp`, for a significand and an exponent that a float can have. -/
def ofScaled (negative : Bool) (sig : Nat) (exp : Int) : Double :=
  let shift := min (52 - sig.log2) (exp + 1074).toNat
  let sig' := sig * Nat.pow 2 shift
  let exp' := exp - shift
  let size := if sig' < Nat.pow 2 52 then sig'
    else (exp' + 1075).toNat * Nat.pow 2 52 + (sig' - Nat.pow 2 52)
  ⟨UInt64.ofNat (if negative then Nat.pow 2 63 + size else size)⟩

/-- What is left of a float when another is taken from it as often as it fits, with the sign of the
first. What is left is a float again, so nothing is rounded. -/
def remainder (x y : Double) : Double :=
  if !x.isFinite || y.significand = 0 then ofFloat (0.0 / 0.0)
  else if !y.isFinite then (if y.fractionBits = 0 then x else y)
  else
    let exp := min x.exponent y.exponent
    let a := x.significand * Nat.pow 2 (x.exponent - exp).toNat
    let b := y.significand * Nat.pow 2 (y.exponent - exp).toNat
    ofScaled x.isNegative (a % b) exp

end AvroCodegen.Decimal.Double
