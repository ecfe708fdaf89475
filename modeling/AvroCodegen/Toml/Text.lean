import AvroCodegen.Text.Digit

set_option autoImplicit false

/-! # Text in TOML

A text stands in double quotes, where a backslash begins an escape, or in single quotes, where all
characters stand for themselves. Quotes of either kind written three times hold several lines; a
line break right behind the opening quotes does not count.

`written` chooses among the four forms the plainest that needs no escapes for quotes and
backslashes; control characters need double quotes. -/

namespace AvroCodegen.Toml

/-! ## Characters -/

/-- A blank inside a line. -/
def isGap (c : Char) : Bool :=
  c = ' ' || c = '\t'

/-- A character that may stand in a line: no control character but the tab. -/
def isLineChar (c : Char) : Bool :=
  c = '\t' || (0x20 ≤ c.toNat && c.toNat ≠ 0x7F)

/-- What follows a line break, if one is here. -/
def afterBreak? : List Char → Option (List Char)
  | '\n' :: rest => some rest
  | '\r' :: '\n' :: rest => some rest
  | _ => none

/-- The text behind blanks and line breaks. -/
def skipBlank : Nat → List Char → List Char
  | 0, s => s
  | n + 1, s =>
    let rest := s.dropWhile isGap
    match afterBreak? rest with
    | some rest => skipBlank n rest
    | none => rest

/-- The character of a backslash and one more. -/
def escape? (c : Char) : Option Char :=
  match c with
  | 'b' => some '\x08'
  | 't' => some '\t'
  | 'n' => some '\n'
  | 'f' => some '\x0c'
  | 'r' => some '\r'
  | '"' => some '"'
  | '\\' => some '\\'
  | _ => none

/-! ## Reading -/

/-- A text in double quotes whose opening quotes are read, of one line or of several. The first
number bounds the steps. -/
def escaped (long : Bool) : Nat → List Char → Option (List Char × List Char)
  | 0, _ => none
  | n + 1, s =>
    let goOn (c : Char) (rest : List Char) : Option (List Char × List Char) := do
      let (more, rest) ← escaped long n rest
      return (c :: more, rest)
    match s with
    | [] => none
    | '\\' :: 'u' :: a :: b :: c :: d :: rest => do goOn (← Text.charOf? [a, b, c, d]) rest
    | '\\' :: 'U' :: a :: b :: c :: d :: e :: f :: g :: h :: rest => do
      goOn (← Text.charOf? [a, b, c, d, e, f, g, h]) rest
    | '\\' :: c :: rest =>
      match escape? c with
      | some c => goOn c rest
      | none =>
        match long, afterBreak? ((c :: rest).dropWhile isGap) with
        | true, some rest => escaped long n (skipBlank rest.length rest)
        | _, _ => none
    | '"' :: rest =>
      match long, rest with
      | false, rest => some ([], rest)
      | true, '"' :: '"' :: rest =>
        let more := min 2 (rest.takeWhile (fun c => c = '"')).length
        some (List.replicate more '"', rest.drop more)
      | true, rest => goOn '"' rest
    | c :: rest =>
      match long, afterBreak? s with
      | true, some rest => goOn '\n' rest
      | _, _ => if isLineChar c then goOn c rest else none

/-- A text in single quotes whose opening quotes are read. -/
def literal (long : Bool) : Nat → List Char → Option (List Char × List Char)
  | 0, _ => none
  | n + 1, s =>
    let goOn (c : Char) (rest : List Char) : Option (List Char × List Char) := do
      let (more, rest) ← literal long n rest
      return (c :: more, rest)
    match s with
    | [] => none
    | '\'' :: rest =>
      match long, rest with
      | false, rest => some ([], rest)
      | true, '\'' :: '\'' :: rest =>
        let more := min 2 (rest.takeWhile (fun c => c = '\'')).length
        some (List.replicate more '\'', rest.drop more)
      | true, rest => goOn '\'' rest
    | c :: rest =>
      match long, afterBreak? s with
      | true, some rest => goOn '\n' rest
      | _, _ => if isLineChar c then goOn c rest else none

/-- A text of one line, in quotes of either kind. -/
def shortText? (s : List Char) : Option (String × List Char) :=
  let answer (found : Option (List Char × List Char)) : Option (String × List Char) :=
    found.map (fun (cs, rest) => (String.ofList cs, rest))
  match s with
  | '"' :: rest => answer (escaped false s.length rest)
  | '\'' :: rest => answer (literal false s.length rest)
  | _ => none

/-- A text in any form. -/
def text? (s : List Char) : Option (String × List Char) :=
  let answer (found : Option (List Char × List Char)) : Option (String × List Char) :=
    found.map (fun (cs, rest) => (String.ofList cs, rest))
  match s with
  | '"' :: '"' :: '"' :: rest =>
    answer (escaped true s.length ((afterBreak? rest).getD rest))
  | '\'' :: '\'' :: '\'' :: rest =>
    answer (literal true s.length ((afterBreak? rest).getD rest))
  | s => shortText? s

/-! ## Writing -/

/-- The escape that a character other than a double quote needs, in a text of one line or of
several. -/
def escapeOf? (long : Bool) (c : Char) : Option (List Char) :=
  match c with
  | '\x08' => some ['\\', 'b']
  | '\t' => some ['\\', 't']
  | '\n' => if long then none else some ['\\', 'n']
  | '\x0c' => some ['\\', 'f']
  | '\r' => some ['\\', 'r']
  | '\\' => some ['\\', '\\']
  | c =>
    if isLineChar c then none
    else
      let digits := (Nat.toDigits 16 c.toNat).map Char.toUpper
      some (['\\', 'u'] ++ List.replicate (4 - digits.length) '0' ++ digits)

/-- A text between double quotes. So many double quotes in a row stand for themselves, and `run` of
them were just written. -/
def escapedFrom (long : Bool) (plainRun run : Nat) : List Char → List Char
  | [] => []
  | c :: rest =>
    if c = '"' then
      if run < plainRun then c :: escapedFrom long plainRun (run + 1) rest
      else '\\' :: c :: escapedFrom long plainRun 0 rest
    else (escapeOf? long c).getD [c] ++ escapedFrom long plainRun 0 rest

/-- The most of a character that stand in a row, where `run` were just passed. -/
def longestRun (c : Char) (run : Nat) : List Char → Nat
  | [] => run
  | d :: rest => if d = c then longestRun c (run + 1) rest else max run (longestRun c 0 rest)

/-- The forms of a text: which quotes, and whether they are written three times. -/
inductive Form where
  | basic
  | literal
  | longBasic
  | longLiteral
  deriving DecidableEq, Repr

/-- The form in which a text is written. -/
def formOf (s : List Char) : Form :=
  let hasControl := s.any (fun c => c != '\n' && !isLineChar c)
  let hasBreak := s.contains '\n'
  let doubles := longestRun '"' 0 s
  let singles := longestRun '\'' 0 s
  let hasSlash := s.contains '\\'
  if !hasControl && !hasSlash && doubles = 0 && !hasBreak then .basic
  else if !hasControl && singles = 0 && !hasBreak then .literal
  else if !hasControl && !hasSlash && doubles ≤ 2 then .longBasic
  else if !hasControl && singles ≤ 2 then .longLiteral
  else if hasBreak then .longBasic
  else .basic

/-- A text in the form chosen for it. A long form begins with a line break if the text has one. -/
def written (content : String) : String :=
  let s := content.toList
  let opening := if s.contains '\n' then ['\n'] else []
  let single := List.replicate 3 '\''
  let double := List.replicate 3 '"'
  String.ofList
    (match formOf s with
    | .basic => '"' :: escapedFrom false 0 0 s ++ ['"']
    | .literal => '\'' :: s ++ ['\'']
    | .longBasic => double ++ opening ++ escapedFrom true 2 0 s ++ double
    | .longLiteral => single ++ opening ++ s ++ single)

end AvroCodegen.Toml
