import AvroCodegen.Text.Digit
import AvroCodegen.Yaml.Glyph

set_option autoImplicit false

/-! # YAML scalars

A scalar is written in single quotes, in double quotes, without quotes, or as a block of lines of
its own below a sign. In the first three forms white space counts only between two parts of the
text, and line breaks are folded: one break stands for a blank, and of several the first does not
count. In a block the lines are kept, or folded where they begin with no blank. -/

namespace AvroCodegen

namespace Yaml

/-! ## White space between parts -/

/-- White space behind a part of a scalar: blanks of one line, or line breaks, of which the first is
missing when a backslash stands in front of it. -/
inductive Gap where
  | blanks (text : List Char)
  | lines (first : Option Char) (more : List Char)

namespace Gap

/-- No white space. -/
def none : Gap := .blanks []

/-- Whether there is no white space. -/
def isNone : Gap → Bool
  | .blanks text => text.isEmpty
  | .lines _ _ => false

/-- Whether a line ends in the gap. -/
def isBroken : Gap → Bool
  | .blanks _ => false
  | .lines _ _ => true

/-- The gap with one more blank or line break. Blanks around line breaks are lost. -/
def add (c : Char) : Gap → Gap
  | .blanks text => if isBreak c then .lines (some c) [] else .blanks (text ++ [c])
  | .lines first more => .lines first (if isBreak c then more ++ [c] else more)

/-- What the gap stands for between two parts. -/
def text : Gap → List Char
  | .blanks text => text
  | .lines (some '\n') [] => [' ']
  | .lines (some '\n') more => more
  | .lines first more => first.toList ++ more

end Gap

/-! ## Quoted scalars -/

/-- A scalar in single quotes whose opening quote is read, behind a gap; a quote inside is written
twice. -/
def singleQuoted (gap : Gap) : List Glyph → Option (List Char × List Glyph)
  | [] => none
  | g :: rest =>
    if isSpace g.char then singleQuoted (gap.add g.char) rest
    else if atMark '-' (g :: rest) || atMark '.' (g :: rest) then none
    else if g.char != '\'' then do
      let (text, rest) ← singleQuoted .none rest
      return (gap.text ++ g.char :: text, rest)
    else match rest with
      | [] => some (gap.text, [])
      | h :: rest' =>
        if h.char = '\'' then do
          let (text, rest) ← singleQuoted .none rest'
          return (gap.text ++ '\'' :: text, rest)
        else some (gap.text, rest)

/-- The character of a backslash and one more. -/
def escape? (c : Char) : Option Char :=
  match c with
  | '0' => some '\x00'
  | 'a' => some '\x07'
  | 'b' => some '\x08'
  | 't' => some '\t'
  | '\t' => some '\t'
  | 'n' => some '\n'
  | 'v' => some '\x0b'
  | 'f' => some '\x0c'
  | 'r' => some '\r'
  | 'e' => some '\x1b'
  | ' ' => some ' '
  | '"' => some '"'
  | '/' => some '/'
  | '\\' => some '\\'
  | 'N' => some '\x85'
  | '_' => some '\xa0'
  | 'L' => some (Char.ofNat 0x2028)
  | 'P' => some (Char.ofNat 0x2029)
  | _ => none

/-- The number of digits behind the letter of an escape. -/
def escapeDigits (c : Char) : Nat :=
  match c with
  | 'x' => 2
  | 'u' => 4
  | 'U' => 8
  | _ => 0

/-- The character of an escape by its letter and what stands behind. -/
def escaped? (letter : Char) (rest : List Glyph) : Option Char :=
  match escapeDigits letter with
  | 0 => escape? letter
  | n => if rest.length < n then none else Text.charOf? (chars (rest.take n))

/-- A scalar in double quotes whose opening quote is read, behind a gap. A backslash in front of a
line break joins the lines. -/
def doubleQuoted (gap : Gap) (s : List Glyph) : Option (List Char × List Glyph) :=
  match s with
  | [] => none
  | g :: rest =>
    if isSpace g.char then doubleQuoted (gap.add g.char) rest
    else if atMark '-' (g :: rest) || atMark '.' (g :: rest) then none
    else if g.char = '"' then some (gap.text, rest)
    else if g.char != '\\' then do
      let (text, rest) ← doubleQuoted .none rest
      return (gap.text ++ g.char :: text, rest)
    else match rest with
      | [] => none
      | h :: rest =>
        if isBreak h.char then do
          let (text, rest) ← doubleQuoted (.lines none []) rest
          return (gap.text ++ text, rest)
        else do
          let c ← escaped? h.char rest
          let (text, rest) ← doubleQuoted .none (rest.drop (escapeDigits h.char))
          return (gap.text ++ c :: text, rest)
termination_by s.length
decreasing_by all_goals simp; try omega

/-! ## Scalars without quotes -/

/-- Whether a scalar without quotes is over where it could go on behind white space: at the mark of a
document, at a comment, and in a block where a line is not deep enough. -/
def endsBehindGap (inFlow : Bool) (least : Nat) (s : List Glyph) : Bool :=
  (!inFlow && s.head?.any (fun g => g.column < least)) || atMark '-' s || atMark '.' s
    || s.head?.any (fun g => g.char = '#')

/-- A scalar without quotes behind a gap: its text, whether a line ends behind it, and what stands
behind. It ends at a colon that a space follows, at a comment, at the mark of a document, in a block
at a line that is not deep enough, and in flow style at a sign of flow style, which may not follow a
colon. -/
def plain (inFlow : Bool) (least : Nat) (gap : Gap) :
    List Glyph → Option (List Char × Bool × List Glyph)
  | [] => some ([], gap.isBroken, [])
  | g :: rest =>
    let here := g :: rest
    if isSpace g.char then
      if g.char = '\t' && gap.isBroken && g.column < least then none
      else plain inFlow least (gap.add g.char) rest
    else if !gap.isNone && endsBehindGap inFlow least here then some ([], gap.isBroken, here)
    else if inFlow && g.char = ':' && rest.head?.any (fun h => h.char = '?' || isFlowSign h.char)
    then none
    else if (g.char = ':' && atSpace rest) || (inFlow && isFlowSign g.char) then
      some ([], gap.isBroken, here)
    else do
      let (text, broken, rest) ← plain inFlow least .none rest
      return (gap.text ++ g.char :: text, broken, rest)

/-! ## Scalars in blocks of lines -/

/-- What becomes of the line breaks at the end of a block: one stays, none, or all. -/
inductive Chomping where
  | clip
  | strip
  | keep
deriving DecidableEq

/-- What stays behind the last line: its break and the empty lines after it, as far as they stay. -/
def Chomping.ending (before empty : List Char) : Chomping → List Char
  | .clip => before
  | .strip => []
  | .keep => before ++ empty

/-- The sign of a chomping, if one is here. -/
def chomping? : List Glyph → Option Chomping × List Glyph
  | [] => (none, [])
  | g :: rest =>
    if g.char = '+' then (some .keep, rest)
    else if g.char = '-' then (some .strip, rest)
    else (none, g :: rest)

/-- The depth that a digit gives, or zero where no digit is; the digit itself may not be zero. -/
def depth? : List Glyph → Option (Nat × List Glyph)
  | [] => some (0, [])
  | g :: rest =>
    if !g.char.isDigit then some (0, g :: rest)
    else if g.char = '0' then none
    else some (g.char.toNat - '0'.toNat, rest)

/-- What stands behind the sign of a block up to the end of the line: the chomping and the depth, in
either order. -/
def blockHead? (s : List Glyph) : Option (Chomping × Nat × List Glyph) := do
  let (first, s) := chomping? s
  let (depth, s) ← depth? s
  let (second, s) := if first.isSome then (none, s) else chomping? s
  return ((first.or second).getD .clip, depth, ← nextLine? s)

/-- The empty lines up to the next line that is not: their breaks, the greatest column that one of
these lines reaches, and what stands behind the indentation, which a tab may not be part of. Zero
stands for an unknown indentation, to which all blanks belong. -/
def emptyLines (indent : Nat) : List Glyph → Option (List Char × Nat × List Glyph)
  | [] => some ([], 0, [])
  | g :: rest =>
    let inside := indent = 0 || g.column < indent
    if inside && g.char = ' ' then emptyLines indent rest
    else if inside && g.char = '\t' then none
    else if isBreak g.char then do
      let (breaks, reached, rest) ← emptyLines indent rest
      return (g.char :: breaks, max g.column reached, rest)
    else some ([], g.column, g :: rest)

/-- What stands between two lines of a block that is folded: the break of the first goes when it is
a usual one and neither line begins with a blank, and a blank takes its place when no empty lines
follow. -/
def foldedBreak (first : List Char) (more : List Char) (blankAround : Bool) : List Char :=
  if first = ['\n'] && !blankAround then (if more.isEmpty then [' '] else more) else first ++ more

/-- The lines of a block from a line on, with the break before it, the empty lines before it, and
whether the last line began with a blank. The number bounds the lines. -/
def blockLines (folds : Bool) (chomping : Chomping) (indent : Nat) :
    Nat → List Char → List Char → Bool → List Glyph → Option (List Char × List Glyph)
  | 0, _, _, _, _ => none
  | n + 1, before, empty, wasBlank, s =>
    match s with
    | [] => some (chomping.ending before empty, [])
    | g :: rest =>
      if g.column != indent then some (chomping.ending before empty, g :: rest)
      else do
        let line := (g :: rest).takeWhile (fun g => !isBreak g.char)
        let behind := (g :: rest).dropWhile (fun g => !isBreak g.char)
        let (breaks, _, next) ← emptyLines indent behind.tail
        let gap :=
          if folds then foldedBreak before empty (wasBlank || isBlank g.char) else before ++ empty
        let (text, rest) ←
          blockLines folds chomping indent n (chars (behind.take 1)) breaks (isBlank g.char) next
        return (gap ++ chars line ++ text, rest)

/-- A block scalar whose sign is read, inside a collection at a column. Without a digit its depth is
that of its first lines, but it is deeper than the collection. -/
def blockScalar (folds : Bool) (outer : Option Nat) (s : List Glyph) :
    Option (List Char × List Glyph) := do
  let (chomping, depth, s) ← blockHead? s
  let given := if depth = 0 then 0 else outer.getD 0 + depth
  let (breaks, reached, rest) ← emptyLines given s
  let indent := if given = 0 then max 1 (max reached ((outer.map (· + 1)).getD 0)) else given
  blockLines folds chomping indent (s.length + 1) [] breaks false rest

end Yaml

end AvroCodegen
