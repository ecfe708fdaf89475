import AvroCodegen.Json.Basic
import AvroCodegen.Text.Digit

set_option autoImplicit false

/-! # Reading JSON text

The strict grammar: no comments, no trailing commas, no leading zeros or signs other than minus, no
control characters and no unpaired surrogates in strings, nothing but white space after the value,
and at most 127 arrays and objects inside one another. Of two members with one key the later counts.

A reader answers with what it read and the characters left over. `depth` counts the arrays and
objects that may still open, `fuel` bounds the steps; every step takes a character, so the length of
the text is always enough. -/

namespace AvroCodegen.Json

/-- White space between tokens. -/
def isGap (c : Char) : Bool :=
  c == ' ' || c == '\n' || c == '\t' || c == '\r'

/-- The characters from the next token on. -/
def skipGap (s : List Char) : List Char :=
  s.dropWhile isGap

/-! ## Numbers -/

/-- The greatest whole number of sixty-four bits. -/
def maxWord : Nat := Nat.pow 2 64 - 1

/-- The value of a decimal digit. -/
def digitValue (c : Char) : Nat := c.toNat - '0'.toNat

/-- The leading digits that fit sixty-four bits, and how many digits are left over. -/
def leadingWord (start : Nat) : List Char → Nat × Nat
  | [] => (start, 0)
  | c :: cs =>
    let next := start * 10 + digitValue c
    if next ≤ maxWord then leadingWord next cs else (start, cs.length + 1)

/-- A power of ten as the nearest float. -/
def powerOfTen (n : Nat) : Float := Float.ofScientific 1 false n

/-- `x · 10^e`, each operation rounded, in steps of `10^308` below the range of single powers. -/
def scaleFloat : Nat → Float → Int → Option Float
  | 0, _, e => if 0 ≤ e then none else some 0.0
  | fuel + 1, x, e =>
    if e.natAbs ≤ 308 then
      if 0 ≤ e then
        let y := x * powerOfTen e.toNat
        if y.isInf then none else some y
      else some (x / powerOfTen (-e).toNat)
    else if x == 0.0 then some x
    else if 0 ≤ e then none
    else scaleFloat fuel (x / powerOfTen 308) (e + 308)

/-- The float with a sign, a 64-bit significand and a power of ten; nothing when it overflows. -/
def realNumber (negative : Bool) (significand : Nat) (e : Int) : Option Json :=
  (scaleFloat 4 (Float.ofNat significand) e).map fun x =>
    .num (.real (Decimal.Double.ofFloat (if negative then -x else x)))

/-- The number after its sign: digits before the point, behind it, and the exponent if any. -/
def numberOf (negative : Bool) (whole fraction : List Char) (power : Option (Bool × List Char)) :
    Option Json :=
  let (head, dropped) := leadingWord 0 whole
  if dropped = 0 && fraction.isEmpty && power.isNone then
    if !negative then some (.num (.int head))
    else if head = 0 || Nat.pow 2 63 < head then realNumber true head 0
    else some (.num (.int (-(head : Int))))
  else
    let (sig, unused) := leadingWord head fraction
    let base : Int := (dropped : Int) - ((fraction.length - unused : Nat) : Int)
    match power with
    | none => realNumber negative sig base
    | some (down, digits) =>
      let e := digits.foldl (fun n c => n * 10 + digitValue c) 0
      if e < Nat.pow 2 31 then realNumber negative sig (if down then base - e else base + e)
      else if sig ≠ 0 && !down then none
      else realNumber negative 0 0

/-- The exponent part of a number, if one starts here. -/
def readPower (s : List Char) : Option (Option (Bool × List Char) × List Char) :=
  match s with
  | c :: rest =>
    if c == 'e' || c == 'E' then
      let (down, rest) := match rest with
        | '-' :: r => (true, r)
        | '+' :: r => (false, r)
        | r => (false, r)
      let digits := rest.takeWhile Char.isDigit
      if digits.isEmpty then none else some (some (down, digits), rest.dropWhile Char.isDigit)
    else some (none, s)
  | [] => some (none, [])

/-- A number without its sign. -/
def readNumber (negative : Bool) (s : List Char) : Option (Json × List Char) := do
  let whole := s.takeWhile Char.isDigit
  let rest := s.dropWhile Char.isDigit
  match whole with
  | [] => none
  | '0' :: _ :: _ => none
  | _ =>
    let (fraction, rest) ← match rest with
      | '.' :: r =>
        let digits := r.takeWhile Char.isDigit
        if digits.isEmpty then none else some (digits, r.dropWhile Char.isDigit)
      | r => some ([], r)
    let (power, rest) ← readPower rest
    let value ← numberOf negative whole fraction power
    pure (value, rest)

/-! ## Strings -/

/-- Four hexadecimal digits. -/
def readUnit (s : List Char) : Option (Nat × List Char) :=
  match s with
  | a :: b :: c :: d :: rest => (Text.natOf? 16 [a, b, c, d]).map (fun n => (n, rest))
  | _ => none

/-- The character of one code unit, or of two that make a surrogate pair. -/
def readEscapedUnit (s : List Char) : Option (Char × List Char) := do
  let (unit, rest) ← readUnit s
  if 0xDC00 ≤ unit && unit ≤ 0xDFFF then none
  else if 0xD800 ≤ unit && unit ≤ 0xDBFF then
    match rest with
    | '\\' :: 'u' :: rest => do
      let (low, rest) ← readUnit rest
      if 0xDC00 ≤ low && low ≤ 0xDFFF then
        pure (Char.ofNat (0x10000 + (unit - 0xD800) * 0x400 + (low - 0xDC00)), rest)
      else none
    | _ => none
  else pure (Char.ofNat unit, rest)

/-- The character after a backslash. -/
def readEscape (s : List Char) : Option (Char × List Char) :=
  match s with
  | '"' :: r => some ('"', r)
  | '\\' :: r => some ('\\', r)
  | '/' :: r => some ('/', r)
  | 'b' :: r => some ('\x08', r)
  | 'f' :: r => some ('\x0c', r)
  | 'n' :: r => some ('\n', r)
  | 'r' :: r => some ('\r', r)
  | 't' :: r => some ('\t', r)
  | 'u' :: r => readEscapedUnit r
  | _ => none

/-- The characters up to the closing quote; `done` holds those read, last first. -/
def readChars : Nat → List Char → List Char → Option (String × List Char)
  | 0, _, _ => none
  | _ + 1, _, [] => none
  | fuel + 1, done, c :: rest =>
    if c == '"' then some (String.ofList done.reverse, rest)
    else if c == '\\' then
      match readEscape rest with
      | some (d, rest) => readChars fuel (d :: done) rest
      | none => none
    else if c.toNat < 0x20 then none
    else readChars fuel (c :: done) rest

/-- A string after its opening quote. -/
def readString (fuel : Nat) (s : List Char) : Option (String × List Char) :=
  readChars fuel [] s

/-! ## Values -/

mutual

/-- A value at the next token. -/
def readValue : Nat → Nat → List Char → Option (Json × List Char)
  | 0, _, _ => none
  | fuel + 1, depth, s =>
    match skipGap s with
    | 'n' :: 'u' :: 'l' :: 'l' :: r => some (.null, r)
    | 't' :: 'r' :: 'u' :: 'e' :: r => some (.bool true, r)
    | 'f' :: 'a' :: 'l' :: 's' :: 'e' :: r => some (.bool false, r)
    | '"' :: r => (readString fuel r).map fun p => (.str p.1, p.2)
    | '-' :: r => readNumber true r
    | '[' :: r =>
      match depth with
      | 0 => none
      | depth + 1 =>
        match skipGap r with
        | ']' :: r => some (.arr [], r)
        | r => (readItems fuel depth [] r).map fun p => (.arr p.1, p.2)
    | '\x7b' :: r =>
      match depth with
      | 0 => none
      | depth + 1 =>
        match skipGap r with
        | '\x7d' :: r => some (.obj [], r)
        | r => (readMembers fuel depth [] r).map fun p => (.obj p.1, p.2)
    | c :: r => if c.isDigit then readNumber false (c :: r) else none
    | [] => none

/-- The items of an array that is not empty; `done` holds those read, last first. -/
def readItems : Nat → Nat → List Json → List Char → Option (List Json × List Char)
  | 0, _, _, _ => none
  | fuel + 1, depth, done, s =>
    match readValue fuel depth s with
    | none => none
    | some (v, rest) =>
      match skipGap rest with
      | ',' :: r => readItems fuel depth (v :: done) r
      | ']' :: r => some ((v :: done).reverse, r)
      | _ => none

/-- The members of an object that is not empty, added to those read before. -/
def readMembers : Nat → Nat → List (String × Json) → List Char →
    Option (List (String × Json) × List Char)
  | 0, _, _, _ => none
  | fuel + 1, depth, done, s =>
    match skipGap s with
    | '"' :: r =>
      match readString fuel r with
      | none => none
      | some (key, r) =>
        match skipGap r with
        | ':' :: r =>
          match readValue fuel depth r with
          | none => none
          | some (v, rest) =>
            let done := Keyed.insert key v done
            match skipGap rest with
            | ',' :: r => readMembers fuel depth done r
            | '\x7d' :: r => some (done, r)
            | _ => none
        | _ => none
    | _ => none

end

/-- How many arrays and objects may stand inside one another. -/
def maxDepth : Nat := 127

/-- Reads a text that holds exactly one value. -/
def read? (text : String) : Option Json :=
  let s := text.toList
  match readValue (2 * s.length + 2) maxDepth s with
  | some (v, rest) => if (skipGap rest).isEmpty then some v else none
  | none => none

end AvroCodegen.Json
