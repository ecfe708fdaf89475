import AvroCodegen.Decimal.Nearest
import AvroCodegen.Toml.Basic
import AvroCodegen.Toml.Text

set_option autoImplicit false

/-! # Numbers in TOML

Integers have sixty-four bits and may be written to base ten, two, eight or sixteen. A number with a
fraction or exponent is a 64-bit float. Single underscores may stand between digits, and a number to
base ten begins with a zero only when that is all before the point. -/

namespace AvroCodegen.Toml

/-- The digits without the underscores between them. -/
def ungrouped? (allowed : Char → Bool) : List Char → Option (List Char)
  | [] => none
  | [c] => if allowed c then some [c] else none
  | c :: '_' :: rest => if allowed c then (ungrouped? allowed rest).map (c :: ·) else none
  | c :: rest => if allowed c then (ungrouped? allowed rest).map (c :: ·) else none

/-- The digits of a number to base ten before the point. -/
def wholeDigits? (s : List Char) : Option (List Char) := do
  let digits ← ungrouped? Char.isDigit s
  match digits with
  | '0' :: _ :: _ => none
  | digits => some digits

/-- Cuts off a sign; the flag tells whether it is a minus. -/
def cutSign : List Char → Bool × List Char
  | '-' :: rest => (true, rest)
  | '+' :: rest => (false, rest)
  | s => (false, s)

/-- A whole number in the range of sixty-four bits. -/
def inRange? (value : Int) : Option Toml :=
  if -(Nat.pow 2 63 : Int) ≤ value && value < Nat.pow 2 63 then some (.int value) else none

/-- Whether a character is a digit to a base. -/
def isDigitOf (base : Nat) (c : Char) : Bool :=
  (Text.digit? c).any (fun d => d < base)

/-- An integer. -/
def int? (s : List Char) : Option Toml :=
  let toBase (base : Nat) (rest : List Char) : Option Toml := do
    inRange? (← Text.natOf? base (← ungrouped? (isDigitOf base) rest))
  match s with
  | '0' :: 'x' :: rest => toBase 16 rest
  | '0' :: 'o' :: rest => toBase 8 rest
  | '0' :: 'b' :: rest => toBase 2 rest
  | s => do
    let (negative, rest) := cutSign s
    let n ← Text.natOf? 10 (← wholeDigits? rest)
    inRange? (if negative then -(n : Int) else n)

/-- A power of ten behind its letter. -/
def power? (s : List Char) : Option Int := do
  let (negative, rest) := cutSign s
  let n ← Text.natOf? 10 (← ungrouped? Char.isDigit rest)
  return if negative then -n else n

/-- A float that is not infinite, except below. -/
def finite? (negative : Bool) (digits : List Char) (power : Int) : Option Toml :=
  let x := Decimal.nearest ((Text.natOf? 10 digits).getD 0) power
  if negative then some (.real (.ofFloat (-x)))
  else if x.isInf then none
  else some (.real (.ofFloat x))

/-- A number with a fraction or exponent, or one of the words for what is no finite number. -/
def real? (s : List Char) : Option Toml :=
  let (negative, body) := cutSign s
  let signed (x : Float) : Toml := .real (.ofFloat (if negative then -x else x))
  if body = ['i', 'n', 'f'] then some (signed (1 / 0))
  else if body = ['n', 'a', 'n'] then some (signed (0 / 0))
  else do
    let isPower (c : Char) : Bool := c = 'e' || c = 'E'
    let mantissa := body.takeWhile (fun c => !isPower c)
    let power ← match body.dropWhile (fun c => !isPower c) with
      | [] => some none
      | _ :: rest => (power? rest).map some
    let whole ← wholeDigits? (mantissa.takeWhile (fun c => c != '.'))
    match mantissa.dropWhile (fun c => c != '.'), power with
    | [], none => none
    | [], some p => finite? negative whole p
    | _ :: fraction, p => do
      let fraction ← ungrouped? Char.isDigit fraction
      finite? negative (whole ++ fraction) (p.getD 0 - fraction.length)

end AvroCodegen.Toml
