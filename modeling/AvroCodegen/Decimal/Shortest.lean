set_option autoImplicit false

/-! # The fewest decimal digits of a 64-bit float

A finite float is a whole number of halves of a power of two, so the reals that round to it form an
interval with known ends; the ends belong to it when the significand is even. `shortest` looks for
the first of the decimal grids with one, two, … digits that meets the interval next to the value,
and of two neighbours that both do it takes the nearer; of two equally near ones a `Tie` decides.
All of it is arithmetic on natural numbers.

A positive value is given as `sig · 2^exp`; the answer `(digits, point)` stands for
`0.digits · 10^point`. -/

namespace AvroCodegen.Decimal

/-- A 64-bit float, by its bits. -/
structure Double where
  bits : UInt64
  deriving DecidableEq, Repr

namespace Double

/-- The float with these bits. -/
def ofFloat (x : Float) : Double := ⟨x.toBits⟩

/-- The number that the bits stand for. -/
def toFloat (x : Double) : Float := Float.ofBits x.bits

/-- The sign bit. -/
def isNegative (x : Double) : Bool := x.bits >>> 63 == 1

/-- The eleven exponent bits. -/
def exponentBits (x : Double) : Nat := ((x.bits >>> 52) &&& 0x7FF).toNat

/-- The fifty-two fraction bits. -/
def fractionBits (x : Double) : Nat := (x.bits &&& 0xFFFFFFFFFFFFF).toNat

/-- Neither an infinity nor a NaN. -/
def isFinite (x : Double) : Bool := x.exponentBits != 0x7FF

/-- The significand, a whole number. -/
def significand (x : Double) : Nat :=
  if x.exponentBits = 0 then x.fractionBits else Nat.pow 2 52 + x.fractionBits

/-- The exponent of two that scales the significand. -/
def exponent (x : Double) : Int :=
  if x.exponentBits = 0 then -1074 else (x.exponentBits : Int) - 1075

/-- Whether the float below is only half as far away as the float above. -/
def hasNearLower (x : Double) : Bool :=
  x.fractionBits == 0 && x.exponentBits > 1

end Double

/-- Which of two equally near neighbours is taken. -/
inductive Tie where
  | toEven
  | up
  deriving DecidableEq, Repr

/-- The reals that round to a positive float, as fractions over one denominator. -/
structure Interval where
  low : Nat
  value : Nat
  high : Nat
  denominator : Nat
  closed : Bool

/-- The interval around a positive float: a quarter step is the unit of its numerators. -/
def Interval.around (x : Double) : Interval :=
  let up := Nat.pow 2 x.exponent.toNat
  let v := 4 * x.significand
  { low := (v - if x.hasNearLower then 1 else 2) * up
    value := v * up
    high := (v + 2) * up
    denominator := 4 * Nat.pow 2 (-x.exponent).toNat
    closed := x.significand % 2 == 0 }

/-- Whether `digits · 10^scale` lies in the interval. -/
def Interval.holds (i : Interval) (digits : Nat) (scale : Int) : Bool :=
  let lhs := digits * Nat.pow 10 scale.toNat * i.denominator
  let unit := Nat.pow 10 (-scale).toNat
  if i.closed then i.low * unit ≤ lhs && lhs ≤ i.high * unit
  else i.low * unit < lhs && lhs < i.high * unit

/-- The least `j` from `start` on with `a · 10^j ≥ b`, within `fuel` steps. -/
def leadingZeros (a b : Nat) : Nat → Nat → Nat
  | 0, start => start
  | fuel + 1, start => if b ≤ a * Nat.pow 10 start then start else leadingZeros a b fuel (start + 1)

/-- The number of decimal places before the point; zeros after the point count down from nought. -/
def Interval.point (i : Interval) : Int :=
  if i.denominator ≤ i.value then
    ((Nat.toDigits 10 (i.value / i.denominator)).length : Int)
  else 1 - (leadingZeros i.value i.denominator 400 0 : Int)

/-- The neighbour of the value on the grid of `count` digits that rounds to it, the nearer of
two. -/
def Interval.candidate (tie : Tie) (i : Interval) (count : Nat) : Option (Nat × Int) :=
  let scale := i.point - count
  let num := i.value * Nat.pow 10 (-scale).toNat
  let den := i.denominator * Nat.pow 10 scale.toNat
  let below := num / den
  let rest := num % den
  let lowHolds := below != 0 && i.holds below scale
  let highHolds := i.holds (below + 1) scale
  let tieBelow := 2 * rest == den && tie = .toEven && below % 2 == 0
  if lowHolds && (!highHolds || 2 * rest < den || tieBelow) then
    some (below, scale)
  else if highHolds then some (below + 1, scale)
  else none

/-- The digits of a positive finite float, without zeros at the end, and the place of the point. -/
def shortest (tie : Tie) (x : Double) : List Char × Int :=
  let i := Interval.around x
  match (List.range 17).findSome? (fun n => i.candidate tie (n + 1)) with
  | some (digits, scale) =>
    let text := Nat.toDigits 10 digits
    let kept := (text.reverse.dropWhile (· == '0')).reverse
    (kept, scale + text.length)
  | none => (['0'], 1)

end AvroCodegen.Decimal
