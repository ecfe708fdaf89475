import AvroCodegen.Toml.Basic
import AvroCodegen.Toml.Text

set_option autoImplicit false

/-! # Dates and times in TOML

A moment is a date, a time, or a date with a time and perhaps the distance from universal time. It
is kept as its text in one spelling: a capital T before the time and a capital Z for universal time,
and at most nine digits of a second's fraction, without zeros at the end. -/

namespace AvroCodegen.Toml

/-- A number of exactly the given count of digits, in a range. -/
def digits? (count least most : Nat) (s : List Char) : Option (Nat × List Char) := do
  let digits := s.take count
  if digits.length = count && digits.all Char.isDigit then
    let n ← Text.natOf? 10 digits
    if least ≤ n && n ≤ most then some (n, s.drop count) else none
  else none

/-- What follows a given character. -/
def behind? (c : Char) : List Char → Option (List Char)
  | d :: rest => if d = c then some rest else none
  | [] => none

/-- The days of a month. -/
def daysIn (year month : Nat) : Nat :=
  if month = 2 then
    if year % 4 = 0 && (year % 100 ≠ 0 || year % 400 = 0) then 29 else 28
  else if [4, 6, 9, 11].contains month then 30 else 31

/-- A date in its spelling. -/
def date? (s : List Char) : Option (List Char × List Char) := do
  let (year, rest) ← digits? 4 0 9999 s
  let (month, rest) ← digits? 2 1 12 (← behind? '-' rest)
  let (_, rest) ← digits? 2 1 (daysIn year month) (← behind? '-' rest)
  return (s.take 10, rest)

/-- The fraction of a second without what does not count. -/
def fractionText (digits : List Char) : List Char :=
  match ((digits.take 9).reverse.dropWhile (fun c => c = '0')).reverse with
  | [] => []
  | digits => '.' :: digits

/-- A time in its spelling. -/
def time? (s : List Char) : Option (List Char × List Char) := do
  let (_, rest) ← digits? 2 0 23 s
  let (_, rest) ← digits? 2 0 59 (← behind? ':' rest)
  let (_, rest) ← digits? 2 0 60 (← behind? ':' rest)
  match rest with
  | '.' :: rest =>
    let fraction := rest.takeWhile Char.isDigit
    if fraction.isEmpty then none
    else some (s.take 8 ++ fractionText fraction, rest.dropWhile Char.isDigit)
  | rest => some (s.take 8, rest)

/-- The distance from universal time in its spelling; none is written as a plus. -/
def offset? (s : List Char) : Option (List Char × List Char) :=
  let distance (sign : Char) (rest : List Char) : Option (List Char × List Char) := do
    let (hours, after) ← digits? 2 0 23 rest
    let (minutes, after) ← digits? 2 0 59 (← behind? ':' after)
    let sign := if hours = 0 && minutes = 0 then '+' else sign
    return (sign :: rest.take 5, after)
  match s with
  | [] => some ([], [])
  | 'Z' :: rest => some (['Z'], rest)
  | 'z' :: rest => some (['Z'], rest)
  | '+' :: rest => distance '+' rest
  | '-' :: rest => distance '-' rest
  | _ => none

/-- A time and all that stands behind a date. -/
def timeOfDay? (s : List Char) : Option (List Char) := do
  let (time, rest) ← time? s
  let (offset, rest) ← offset? rest
  if rest.isEmpty then some (time ++ offset) else none

/-- A date, a time, or both with a letter between them. -/
def moment? (s : List Char) : Option Toml :=
  let answer (text : List Char) : Toml := .moment (String.ofList text)
  match date? s with
  | some (date, []) => some (answer date)
  | some (date, c :: rest) =>
    if c = 'T' || c = 't' then (timeOfDay? rest).map (fun time => answer (date ++ 'T' :: time))
    else none
  | none =>
    match time? s with
    | some (time, []) => some (answer time)
    | _ => none

end AvroCodegen.Toml
