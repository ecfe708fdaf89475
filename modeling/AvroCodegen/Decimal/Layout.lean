import AvroCodegen.Decimal.Shortest

set_option autoImplicit false

/-! # Writing the digits of a float

The digits are chosen in `Decimal/Shortest.lean`; here they are laid out. A layout says for which
places of the point the digits are written without an exponent, whether an exponent that is not
negative has a sign, and how ties between digits go. Every text has a fraction or an exponent, so
that it reads back as a float: a whole number keeps `.0`. -/

namespace AvroCodegen.Decimal

/-- Where the point may stand in a text without exponent, whether an exponent has a plus, and which
of two equally near decimals is written. -/
structure Layout where
  positional : Int → Bool
  plus : Bool
  tie : Tie

/-- Digits with the point after `point` of them, filled up with zeros on either side. -/
def positionalText (digits : List Char) (point : Int) : List Char :=
  if point ≤ 0 then '0' :: '.' :: List.replicate (-point).toNat '0' ++ digits
  else
    let p := point.toNat
    if digits.length ≤ p then digits ++ List.replicate (p - digits.length) '0' ++ ['.', '0']
    else digits.take p ++ '.' :: digits.drop p

/-- One digit before the point, the others behind it, and the power of ten. -/
def exponentText (plus : Bool) (digits : List Char) (point : Int) : List Char :=
  let sign := if plus && 1 ≤ point then ['+'] else []
  let power := sign ++ (toString (point - 1)).toList
  match digits with
  | [] => []
  | [d] => d :: 'e' :: power
  | d :: rest => d :: '.' :: rest ++ 'e' :: power

/-- The text of a finite float. -/
def Layout.text (layout : Layout) (x : Double) : String :=
  let sign := if x.isNegative then ['-'] else []
  if x.significand = 0 then String.ofList (sign ++ ['0', '.', '0'])
  else
    let (digits, point) := shortest layout.tie x
    let body := if layout.positional point then positionalText digits point
      else exponentText layout.plus digits point
    String.ofList (sign ++ body)

end AvroCodegen.Decimal
