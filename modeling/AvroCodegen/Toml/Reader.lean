import AvroCodegen.Toml.Moment
import AvroCodegen.Toml.Number

set_option autoImplicit false

/-! # Reading TOML

A document is read line by line: a header opens a table, a key with a value adds to the table opened
last, and comments and empty lines do not count. Brackets nest to a limit, and keys with points have
no more parts than that. A document that breaks a rule, as by giving a key twice, is none at all. -/

namespace AvroCodegen.Toml

/-! ## Keys -/

/-- A character of a key without quotes. -/
def isKeyChar (c : Char) : Bool :=
  c.isAlphanum || c = '_' || c = '-'

/-- One key, with or without quotes. -/
def key? (s : List Char) : Option (String × List Char) :=
  match s.takeWhile isKeyChar with
  | [] => shortText? s
  | key => some (String.ofList key, s.dropWhile isKeyChar)

/-- Brackets nest less deep, and keys have fewer parts. -/
def nestingLimit : Nat := 80

/-- Keys with points between them, at most so many. -/
def keys? : Nat → List Char → Option (List String × List Char)
  | 0, _ => none
  | n + 1, s => do
    let (key, rest) ← key? (s.dropWhile isGap)
    match rest.dropWhile isGap with
    | '.' :: rest => do
      let (keys, rest) ← keys? n rest
      return (key :: keys, rest)
    | rest => return ([key], rest)

/-- The keys of a path. -/
def path? (s : List Char) : Option (List String × List Char) :=
  keys? (nestingLimit - 1) s

/-! ## Values -/

/-- A character of a value without quotes or brackets. -/
def isWordChar (c : Char) : Bool :=
  c.isAlphanum || c = '+' || c = '-' || c = '_' || c = '.' || c = ':'

/-- The value of a word. -/
def ofWord? (word : List Char) : Option Toml :=
  match String.ofList word with
  | "true" => some (.flag true)
  | "false" => some (.flag false)
  | _ => (moment? word).or ((real? word).or (int? word))

/-- A value without quotes or brackets. A blank between a date and a time stands for the letter. -/
def word? (s : List Char) : Option (Toml × List Char) := do
  let word := s.takeWhile isWordChar
  let rest := s.dropWhile isWordChar
  match date? word, rest with
  | some (_, []), ' ' :: c :: after =>
    if c.isDigit then
      let time := (c :: after).takeWhile isWordChar
      return (← moment? (word ++ 'T' :: time), (c :: after).dropWhile isWordChar)
    else return (← ofWord? word, rest)
  | _, _ => return (← ofWord? word, rest)

/-- The text behind blanks, line breaks and comments. -/
def skipComments : Nat → List Char → Option (List Char)
  | 0, _ => none
  | n + 1, s =>
    match skipBlank s.length s with
    | '#' :: rest =>
      if (rest.takeWhile (fun c => c != '\n' && c != '\r')).all isLineChar then
        skipComments n (rest.dropWhile (fun c => c != '\n' && c != '\r'))
      else none
    | rest => some rest

mutual

/-- A value and what stands behind it, where brackets may still nest so deep. The first number
bounds the steps. -/
def value? : Nat → Nat → List Char → Option (Toml × List Char)
  | 0, _, _ => none
  | n + 1, deep, s =>
    match s, deep with
    | '"' :: _, _ => do
      let (word, rest) ← text? s
      return (.text word, rest)
    | '\'' :: _, _ => do
      let (word, rest) ← text? s
      return (.text word, rest)
    | '[' :: _, 0 => none
    | '[' :: rest, deep + 1 => do
      let (items, rest) ← items? n deep rest
      return (.list items, rest)
    | '\x7b' :: _, 0 => none
    | '\x7b' :: rest, deep + 1 =>
      match rest.dropWhile isGap with
      | '\x7d' :: rest => some (.table .braces [], rest)
      | rest => do
        let (entries, rest) ← pairs? n deep [] rest
        return (.table .braces entries, rest)
    | s, _ => word? s

/-- Items up to the closing bracket. -/
def items? : Nat → Nat → List Char → Option (List Toml × List Char)
  | 0, _, _ => none
  | n + 1, deep, s => do
    match ← skipComments (s.length + 1) s with
    | ']' :: rest => return ([], rest)
    | s =>
      let (item, rest) ← value? n deep s
      match ← skipComments (rest.length + 1) rest with
      | ',' :: rest =>
        let (items, rest) ← items? n deep rest
        return (item :: items, rest)
      | ']' :: rest => return ([item], rest)
      | _ => none

/-- Pairs of a table in braces, which is one line, up to the closing brace. -/
def pairs? : Nat → Nat → Keyed Toml → List Char → Option (Keyed Toml × List Char)
  | 0, _, _, _ => none
  | n + 1, deep, entries, s => do
    let (keys, rest) ← path? s
    let (value, rest) ← value? n deep ((← behind? '=' rest).dropWhile isGap)
    let entries ← put? (keys.getLastD "") value keys.dropLast entries
    match rest.dropWhile isGap with
    | ',' :: rest => pairs? n deep entries rest
    | '\x7d' :: rest => return (entries, rest)
    | _ => none

end

/-! ## Lines -/

/-- A document as far as it is read: its table, and the path of the table opened last. -/
structure Progress where
  entries : Keyed Toml
  path : List String

/-- The next line, when only blanks and a comment are left of this one. -/
def endLine? (s : List Char) : Option (List Char) :=
  let rest := s.dropWhile isGap
  let rest := match rest with
    | '#' :: comment => comment.dropWhile isLineChar
    | rest => rest
  match rest with
  | [] => some []
  | rest => afterBreak? rest

/-- A header behind its brackets. -/
def header? (next : Bool) (p : Progress) (s : List Char) : Option (Progress × List Char) := do
  let (keys, rest) ← path? s
  let rest ← behind? ']' rest
  let rest ← if next then behind? ']' rest else some rest
  let key := keys.getLastD ""
  let entries ← change? (if next then openNext? key else openTable? key) keys.dropLast p.entries
  return (⟨entries, keys⟩, rest)

/-- What a line adds, and what of it is left. -/
def line? (p : Progress) (s : List Char) : Option (Progress × List Char) :=
  match s.dropWhile isGap with
  | [] => some (p, [])
  | '#' :: rest => some (p, '#' :: rest)
  | '\n' :: rest => some (p, '\n' :: rest)
  | '\r' :: rest => some (p, '\r' :: rest)
  | '[' :: '[' :: rest => header? true p rest
  | '[' :: rest => header? false p rest
  | s => do
    let (keys, rest) ← path? s
    let rest ← behind? '=' rest
    let (value, rest) ← value? (2 * s.length + 2) (nestingLimit - 1) (rest.dropWhile isGap)
    let entries ← change? (put? (keys.getLastD "") value keys.dropLast) p.path p.entries
    return (⟨entries, p.path⟩, rest)

/-- Reads lines up to the end. -/
def lines? : Nat → Progress → List Char → Option (Keyed Toml)
  | 0, _, _ => none
  | n + 1, p, s => do
    let (p, rest) ← line? p s
    match ← endLine? rest with
    | [] => return p.entries
    | rest => lines? n p rest

/-- The table that a document is. -/
def read? (source : String) : Option (Keyed Toml) :=
  let s := source.toList
  let s := if s.head? = some (Char.ofNat 0xFEFF) then s.tail else s
  lines? (s.length + 1) ⟨[], []⟩ s

end AvroCodegen.Toml
