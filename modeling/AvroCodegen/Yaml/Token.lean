import AvroCodegen.Text.Digit
import AvroCodegen.Yaml.Glyph

set_option autoImplicit false

/-! # YAML tokens

Tokens are what nodes are made of: marks of documents, beginnings and ends of collections, keys,
values and entries, properties of nodes, and scalars. In block style no sign stands for the
beginning or end of a collection; such tokens come from the indentation.

Here are also the tokens that are names: anchors, tags and directives. -/

namespace AvroCodegen

namespace Yaml

/-- A token of a document. -/
inductive Token where
  | version (major minor : Nat)
  | tagHandle (handle uri : String)
  | documentStart
  | documentEnd
  | blockList
  | blockMap
  | blockEnd
  | flowList
  | flowListEnd
  | flowMap
  | flowMapEnd
  | blockEntry
  | flowEntry
  | key
  | value
  | reference (name : String)
  | anchor (name : String)
  | tag (handle suffix : String)
  | scalar (text : String) (plain : Bool)
deriving DecidableEq

/-! ## Anchors -/

/-- Characters that may follow the name of an anchor at once. -/
def endsName (c : Char) : Bool :=
  c = '?' || c = ':' || c = ',' || c = ']' || c = '\x7d' || c = '%' || c = '@' || c.toNat = 0x60

/-- The characters of a name here, and what stands behind it. -/
def word (s : List Glyph) : String × List Glyph :=
  (String.ofList (chars (s.takeWhile (fun g => isWordChar g.char))),
    s.dropWhile (fun g => isWordChar g.char))

/-- The name of an anchor. -/
def anchorName? (s : List Glyph) : Option (String × List Glyph) :=
  let (name, rest) := word s
  if name.isEmpty then none
  else if atSpace rest || rest.head?.any (fun g => endsName g.char) then some (name, rest)
  else none

/-! ## Tags -/

/-- Characters of a tag that stand for themselves. -/
def isTagChar (flowSigns : Bool) (c : Char) : Bool :=
  isWordChar c || ";/?:@&=+$.!~*'()".toList.contains c
    || (flowSigns && (c = ',' || c = '[' || c = ']'))

/-- The octet of a percent sign and two hexadecimal digits. -/
def octet? : List Glyph → Option Nat
  | sign :: a :: b :: _ => if sign.char = '%' then Text.natOf? 16 [a.char, b.char] else none
  | _ => none

/-- How many octets a character has by the first of them. -/
def octetCount? (first : Nat) : Option Nat :=
  if first < 0x80 then some 1
  else if first < 0xC0 then none
  else if first < 0xE0 then some 2
  else if first < 0xF0 then some 3
  else if first < 0xF8 then some 4
  else none

/-- The character of octets with percent signs, and the number of octets. -/
def escapedChar? (s : List Glyph) : Option (Char × Nat) := do
  let first ← octet? s
  let count ← octetCount? first
  let more ← (List.range (count - 1)).mapM (fun k => do
    let octet ← octet? (s.drop (3 * (k + 1)))
    if 0x80 ≤ octet && octet < 0xC0 then return octet % 0x40 else none)
  let lead := if count = 1 then first else first % Nat.pow 2 (7 - count)
  return (Char.ofNat (more.foldl (fun n octet => 0x40 * n + octet) lead), count)

/-- The characters of a tag, of which some may be written with percent signs. -/
def tagText? (flowSigns : Bool) (s : List Glyph) : Option (List Char × List Glyph) :=
  match s with
  | [] => some ([], [])
  | g :: rest =>
    if isTagChar flowSigns g.char then do
      let (text, rest) ← tagText? flowSigns rest
      return (g.char :: text, rest)
    else if g.char = '%' then do
      let (c, count) ← escapedChar? (g :: rest)
      let (text, rest) ← tagText? flowSigns (rest.drop (3 * count - 1))
      return (c :: text, rest)
    else some ([], g :: rest)
termination_by s.length
decreasing_by all_goals simp; try omega

/-- The characters of a tag, at least one. -/
def tagUri? (flowSigns : Bool) (s : List Glyph) : Option (String × List Glyph) := do
  let (text, rest) ← tagText? flowSigns s
  if text.isEmpty then none else some (String.ofList text, rest)

/-- The handle and the suffix of a tag whose exclamation mark is read: an address between angle
brackets, a suffix behind a named handle, a suffix alone, or neither. -/
def tagParts? (s : List Glyph) : Option (String × String × List Glyph) := do
  if s.head?.any (fun g => g.char = '<') then
    let (uri, rest) ← tagUri? true s.tail
    if rest.head?.any (fun g => g.char = '>') then some ("", uri, rest.tail) else none
  else
    let (name, rest) := word s
    if rest.head?.any (fun g => g.char = '!') then
      let (suffix, rest) ← tagUri? false rest.tail
      return ("!" ++ name ++ "!", suffix, rest)
    else
      let (text, rest) ← tagText? false rest
      let suffix := name ++ String.ofList text
      return if suffix.isEmpty then ("", "!", rest) else ("!", suffix, rest)

/-- A tag whose exclamation mark is read. A space must follow, or in flow style a comma. -/
def tag? (inFlow : Bool) (s : List Glyph) : Option (Token × List Glyph) := do
  let (handle, suffix, rest) ← tagParts? s
  if atSpace rest || (inFlow && rest.head?.any (fun g => g.char = ',')) then
    some (.tag handle suffix, rest)
  else none

/-! ## Directives -/

/-- A number of a version. -/
def versionPart? (s : List Glyph) : Option (Nat × List Glyph) := do
  let digits := chars (s.takeWhile (fun g => g.char.isDigit))
  if digits.isEmpty || 9 < digits.length then none
  return (← Text.natOf? 10 digits, s.dropWhile (fun g => g.char.isDigit))

/-- The version of a directive: two numbers and a point between them. -/
def version? (s : List Glyph) : Option (Token × List Glyph) := do
  let (major, rest) ← versionPart? s
  if !rest.head?.any (fun g => g.char = '.') then none
  let (minor, rest) ← versionPart? rest.tail
  return (.version major minor, rest)

/-- The handle of a directive, and the address that it stands for. -/
def tagHandle? (s : List Glyph) : Option (Token × List Glyph) := do
  if !s.head?.any (fun g => g.char = '!') then none
  let (name, rest) := word s.tail
  let closed := rest.head?.any (fun g => g.char = '!')
  if !closed && !name.isEmpty then none
  let rest := if closed then rest.tail else rest
  if !rest.head?.any (fun g => isBlank g.char) then none
  let (uri, rest) ← tagUri? true (dropBlanks rest)
  if !atSpace rest then none
  return (.tagHandle (if closed then "!" ++ name ++ "!" else "!") uri, rest)

/-- A directive whose percent sign is read, to the end of its line. -/
def directive? (s : List Glyph) : Option (Token × List Glyph) := do
  let (name, rest) := word s
  if !atSpace rest then none
  let (token, rest) ←
    if name = "YAML" then version? (dropBlanks rest)
    else if name = "TAG" then tagHandle? (dropBlanks rest)
    else none
  return (token, ← nextLine? rest)

end Yaml

end AvroCodegen
