set_option autoImplicit false

/-! # Reading a float

The float nearest to a decimal number. Far beyond the range of floats the answer is known from the
number of digits alone, so that a large power of ten is never computed. -/

namespace AvroCodegen.Decimal

/-- The float nearest to `digits · 10^power`: nought or an infinity beyond the range of floats. -/
def nearest (digits : Nat) (power : Int) : Float :=
  let size := (Nat.toDigits 10 digits).length + power
  if digits = 0 || size < -400 then 0
  else if 400 < size then 1 / 0
  else Float.ofScientific digits (power < 0) power.natAbs

end AvroCodegen.Decimal
