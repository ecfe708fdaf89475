set_option autoImplicit false

/-! # Digits

Digits up to `f` of either case and the numbers that they give to a base. A code point is a
character when it lies in the range of Unicode and is no surrogate. -/

namespace AvroCodegen.Text

/-- The value of a digit below sixteen. -/
def digit? (c : Char) : Option Nat :=
  if c.isDigit then some (c.toNat - '0'.toNat)
  else if 'a' ≤ c ∧ c ≤ 'f' then some (c.toNat - 'a'.toNat + 10)
  else if 'A' ≤ c ∧ c ≤ 'F' then some (c.toNat - 'A'.toNat + 10)
  else none

/-- The number that digits give to a base. -/
def natOf? (base : Nat) (digits : List Char) : Option Nat :=
  digits.foldlM
    (fun n c => do
      let d ← digit? c
      if d < base then return base * n + d else none)
    0

/-- The character of a code point in hexadecimal digits. -/
def charOf? (digits : List Char) : Option Char := do
  let n ← natOf? 16 digits
  if n < 0xD800 || (0xDFFF < n && n < 0x110000) then some (Char.ofNat n) else none

end AvroCodegen.Text
