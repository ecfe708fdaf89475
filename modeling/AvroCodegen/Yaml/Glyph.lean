set_option autoImplicit false

/-! # Characters with their places

YAML depends on where things stand. So a text is read as glyphs: characters with their number in the
text, their line and their column, all counted from zero. A line break is one glyph; the breaks of
the usual kinds, also of two characters, all read as a line feed, while the two separators of
Unicode stay what they are. -/

namespace AvroCodegen

namespace Yaml

/-- A character of a text and its place. -/
structure Glyph where
  char : Char
  index : Nat
  line : Nat
  column : Nat

/-! ## Classes -/

/-- Characters that a document may hold. -/
def isReadable (c : Char) : Bool :=
  let n := c.toNat
  n = 0x9 || n = 0xA || n = 0xD || (0x20 ≤ n && n ≤ 0x7E) || n = 0x85
    || (0xA0 ≤ n && n ≤ 0xD7FF) || (0xE000 ≤ n && n ≤ 0xFFFD) || 0x10000 ≤ n

/-- A blank inside a line. -/
def isBlank (c : Char) : Bool :=
  c = ' ' || c = '\t'

/-- A line break of a glyph. -/
def isBreak (c : Char) : Bool :=
  c = '\n' || c.toNat = 0x2028 || c.toNat = 0x2029

/-- Blanks and line breaks. -/
def isSpace (c : Char) : Bool :=
  isBlank c || isBreak c

/-- The characters of names. -/
def isWordChar (c : Char) : Bool :=
  c.isAlphanum || c = '_' || c = '-'

/-- The characters that structure flow style. -/
def isFlowSign (c : Char) : Bool :=
  c = ',' || c = '[' || c = ']' || c = '\x7b' || c = '\x7d'

/-- Characters that have a meaning of their own, so that a scalar without quotes does not begin with
them. -/
def isIndicator (c : Char) : Bool :=
  isFlowSign c || c = '-' || c = '?' || c = ':' || c = '#' || c = '&' || c = '*' || c = '!'
    || c = '|' || c = '>' || c = '\'' || c = '"' || c = '%' || c = '@' || c.toNat = 0x60

/-! ## Glyphs of a text -/

/-- The glyphs of characters from a place on. -/
def glyphsFrom (index line column : Nat) : List Char → List Glyph
  | [] => []
  | '\r' :: '\n' :: rest => ⟨'\n', index, line, column⟩ :: glyphsFrom (index + 2) (line + 1) 0 rest
  | c :: rest =>
    let c := if c = '\r' || c.toNat = 0x85 then '\n' else c
    ⟨c, index, line, column⟩
      :: if isBreak c then glyphsFrom (index + 1) (line + 1) 0 rest
         else glyphsFrom (index + 1) line (column + 1) rest

/-- The glyphs of a text that may be a document. A mark of the order of bytes in front is no glyph
but takes its place. -/
def glyphs? (source : String) : Option (List Glyph) :=
  if !source.toList.all isReadable then none
  else match source.toList with
    | '\ufeff' :: rest => some (glyphsFrom 1 0 1 rest)
    | s => some (glyphsFrom 0 0 0 s)

/-- The characters of glyphs. -/
def chars (s : List Glyph) : List Char :=
  s.map Glyph.char

/-! ## What stands in front -/

/-- Whether a text is over or goes on with a blank or a line break. -/
def atSpace : List Glyph → Bool
  | [] => true
  | g :: _ => isSpace g.char

/-- Whether a text is over or goes on with a line break. -/
def atBreak : List Glyph → Bool
  | [] => true
  | g :: _ => isBreak g.char

/-- Whether a line begins here with three equal signs that stand alone, the mark of a document. -/
def atMark (sign : Char) : List Glyph → Bool
  | a :: b :: c :: rest =>
    a.column = 0 && a.char = sign && b.char = sign && c.char = sign && atSpace rest
  | _ => false

/-- What stands behind the blanks here. -/
def dropBlanks (s : List Glyph) : List Glyph :=
  s.dropWhile (fun g => isBlank g.char)

/-- What stands on the next line, when blanks and a comment are all that is left of this one. -/
def nextLine? (s : List Glyph) : Option (List Glyph) :=
  let rest := match dropBlanks s with
    | g :: rest => if g.char = '#' then rest.dropWhile (fun g => !isBreak g.char) else g :: rest
    | [] => []
  if atBreak rest then some rest.tail else none

end Yaml

end AvroCodegen
