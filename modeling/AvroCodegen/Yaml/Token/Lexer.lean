import AvroCodegen.Yaml.Scalar
import AvroCodegen.Yaml.Token

set_option autoImplicit false

/-! # The tokens of a text

The lexer keeps the columns of the block collections that are open; a line that is less deep closes
them. Whether something is a key shows only at the colon behind it. So the lexer keeps, for the
block and for each flow collection that is open, the token that may turn out to begin a key: it
stands on the line of the colon and not more than 1024 characters before it. At the colon the token
of the key, and where a map begins also that of the map, are put in front of it.

What stands at the column of an open block map must be a key. -/

namespace AvroCodegen

namespace Yaml

/-- A token that may begin a key: its number, where it stands, and whether it must be one. -/
structure PossibleKey where
  number : Nat
  place : Glyph
  required : Bool

/-- What is left of a text, and the tokens so far, latest first. `columns` are those of the open
block collections, innermost first. `candidate` is the token that may begin a key in the innermost
collection, `outer` those of the collections around the open flow collections, innermost first. -/
structure Lexer where
  rest : List Glyph
  tokens : List Token
  count : Nat
  columns : List Nat
  keyAllowed : Bool
  candidate : Option PossibleKey
  outer : List (Option PossibleKey)

namespace Lexer

/-- The lexer in front of a text. -/
def ofGlyphs (s : List Glyph) : Lexer :=
  ⟨s, [], 0, [], true, none, []⟩

/-- Whether a flow collection is open. -/
def inFlow (l : Lexer) : Bool :=
  !l.outer.isEmpty

/-! ## Tokens -/

/-- Adds a token. -/
def emit (token : Token) (l : Lexer) : Lexer :=
  { l with tokens := token :: l.tokens, count := l.count + 1 }

/-- Puts a token in front of the one with a number. -/
def emitBefore (number : Nat) (token : Token) (l : Lexer) : Lexer :=
  let later := l.count - number
  { l with
    tokens := l.tokens.take later ++ token :: l.tokens.drop later, count := l.count + 1 }

/-- Adds a token, with what stands behind it. -/
def take (token : Token) (rest : List Glyph) (l : Lexer) : Lexer :=
  { l.emit token with rest := rest }

/-! ## Block collections -/

/-- Whether a column is deeper than all open block collections. -/
def isDeeper (column : Nat) (l : Lexer) : Bool :=
  l.columns.head?.all (fun c => c < column)

/-- Closes the innermost block collections. -/
def close (n : Nat) (l : Lexer) : Lexer :=
  { l with
    tokens := List.replicate n .blockEnd ++ l.tokens, count := l.count + n,
    columns := l.columns.drop n }

/-- Closes the block collections that are deeper than a column. In flow style columns do not
count. -/
def closeDeeper (column : Nat) (l : Lexer) : Lexer :=
  if l.inFlow then l else l.close (l.columns.takeWhile (fun c => column < c)).length

/-- Closes all block collections. -/
def closeAll (l : Lexer) : Lexer :=
  if l.inFlow then l else l.close l.columns.length

/-- Opens a block collection at a column, in front of the token with a number, unless one is open
there. -/
def openBlock (column number : Nat) (token : Token) (l : Lexer) : Lexer :=
  if l.inFlow || !l.isDeeper column then l
  else { l.emitBefore number token with columns := column :: l.columns }

/-! ## Possible keys -/

/-- Gives up the token that may begin a key. -/
def dropKey (l : Lexer) : Option Lexer :=
  if l.candidate.any PossibleKey.required then none else some { l with candidate := none }

/-- Notes that the next token may begin a key. -/
def noteKey (place : Glyph) (l : Lexer) : Option Lexer :=
  if l.keyAllowed then do
    let required := !l.inFlow && l.columns.head? = some place.column
    return { ← l.dropKey with candidate := some ⟨l.count, place, required⟩ }
  else some l

/-- The key that is still possible at a place. -/
def stillKey? (here : Glyph) (candidate : Option PossibleKey) : Option (Option PossibleKey) :=
  match candidate with
  | none => some none
  | some k =>
    if here.line = k.place.line && here.index ≤ k.place.index + 1024 then some (some k)
    else if k.required then none
    else some none

/-- Gives up the tokens that cannot begin a key any more. -/
def dropLost (here : Glyph) (l : Lexer) : Option Lexer := do
  return { l with
    candidate := ← stillKey? here l.candidate, outer := ← l.outer.mapM (stillKey? here) }

/-! ## Reading one token

All of these find the lexer at the sign or character of the token, and get what stands behind it. -/

/-- A directive or a mark of a document: nothing is open any more. -/
def outside (token : Token) (rest : List Glyph) (l : Lexer) : Option Lexer := do
  let l ← l.closeAll.dropKey
  return { l.take token rest with keyAllowed := false }

/-- The beginning of a flow collection, which may itself be a key. -/
def openFlow (token : Token) (here : Glyph) (rest : List Glyph) (l : Lexer) : Option Lexer := do
  let l ← l.noteKey here
  return { l.take token rest with
    candidate := none, outer := l.candidate :: l.outer, keyAllowed := true }

/-- The end of a flow collection. -/
def closeFlow (token : Token) (rest : List Glyph) (l : Lexer) : Option Lexer := do
  let l ← l.dropKey
  let l := match l.outer with
    | candidate :: outer => { l with candidate := candidate, outer := outer }
    | [] => l
  return { l.take token rest with keyAllowed := false }

/-- The comma between entries of a flow collection. -/
def flowEntry (rest : List Glyph) (l : Lexer) : Option Lexer := do
  return { (← l.dropKey).take .flowEntry rest with keyAllowed := true }

/-- The hyphen of an entry of a block list. -/
def blockEntry (here : Glyph) (rest : List Glyph) (l : Lexer) : Option Lexer := do
  if !l.inFlow && !l.keyAllowed then none
  let l ← (l.openBlock here.column l.count .blockList).dropKey
  return { l.take .blockEntry rest with keyAllowed := true }

/-- The question mark of a key. -/
def explicitKey (here : Glyph) (rest : List Glyph) (l : Lexer) : Option Lexer := do
  if !l.inFlow && !l.keyAllowed then none
  let l ← (l.openBlock here.column l.count .blockMap).dropKey
  return { l.take .key rest with keyAllowed := !l.inFlow }

/-- The colon of a value. -/
def value (here : Glyph) (rest : List Glyph) (l : Lexer) : Option Lexer :=
  match l.candidate with
  | some k =>
    let l := (l.emitBefore k.number .key).openBlock k.place.column k.number .blockMap
    some { l.take .value rest with candidate := none, keyAllowed := false }
  | none =>
    if !l.inFlow && !l.keyAllowed then none
    else
      let l := l.openBlock here.column l.count .blockMap
      some { l.take .value rest with keyAllowed := !l.inFlow }

/-- A token that may begin a key, with what stands behind it. -/
def keyLike (here : Glyph) (found : Option (Token × List Glyph)) (l : Lexer) : Option Lexer := do
  let l ← l.noteKey here
  let (token, rest) ← found
  return { l.take token rest with keyAllowed := false }

/-- A quoted scalar. -/
def quoted (here : Glyph) (found : Option (List Char × List Glyph)) (l : Lexer) : Option Lexer :=
  l.keyLike here (found.map (fun (text, rest) => (.scalar (String.ofList text) false, rest)))

/-- A scalar of lines of its own. -/
def lines (folds : Bool) (rest : List Glyph) (l : Lexer) : Option Lexer := do
  let l ← l.dropKey
  let (text, rest) ← blockScalar folds l.columns.head? rest
  return { l.take (.scalar (String.ofList text) false) rest with keyAllowed := true }

/-- A scalar without quotes. A key may follow behind the end of its line. -/
def bare (here : Glyph) (l : Lexer) : Option Lexer := do
  let l ← l.noteKey here
  let least := (l.columns.head?.map (· + 1)).getD 0
  let (text, broken, rest) ← plain l.inFlow least .none l.rest
  return { l.take (.scalar (String.ofList text) true) rest with keyAllowed := broken }

/-- Whether a scalar without quotes begins here. -/
def beginsBare (inFlow : Bool) (here : Glyph) (rest : List Glyph) : Bool :=
  if here.char = '-' then !rest.head?.any (fun g => isBlank g.char)
  else if here.char = '?' || here.char = ':' then !inFlow && !atSpace rest
  else !isSpace here.char && !isIndicator here.char

/-- The token here. -/
def token (here : Glyph) (rest : List Glyph) (l : Lexer) : Option Lexer :=
  if here.column = 0 && here.char = '%' then do
    let (token, rest) ← directive? rest
    l.outside token rest
  else if atMark '-' l.rest then l.outside .documentStart (rest.drop 2)
  else if atMark '.' l.rest then l.outside .documentEnd (rest.drop 2)
  else if here.char = '-' && atSpace rest then l.blockEntry here rest
  else if here.char = '?' && (l.inFlow || atSpace rest) then l.explicitKey here rest
  else if here.char = ':' && (l.inFlow || atSpace rest) then l.value here rest
  else match here.char with
    | '[' => l.openFlow .flowList here rest
    | ']' => l.closeFlow .flowListEnd rest
    | '\x7b' => l.openFlow .flowMap here rest
    | '\x7d' => l.closeFlow .flowMapEnd rest
    | ',' => l.flowEntry rest
    | '*' => l.keyLike here ((anchorName? rest).map (fun (name, rest) => (.reference name, rest)))
    | '&' => l.keyLike here ((anchorName? rest).map (fun (name, rest) => (.anchor name, rest)))
    | '!' => l.keyLike here (tag? l.inFlow rest)
    | '\'' => l.quoted here (singleQuoted .none rest)
    | '"' => l.quoted here (doubleQuoted .none rest)
    | '|' => if l.inFlow then none else l.lines false rest
    | '>' => if l.inFlow then none else l.lines true rest
    | _ => if beginsBare l.inFlow here rest then l.bare here else none

/-! ## Reading all tokens -/

/-- What stands behind blanks, comments and line breaks, and whether a key may stand there: behind a
line break it may in block style. Where a key may stand in block style a tab is no blank. -/
def skip (inFlow keyAllowed inComment : Bool) : List Glyph → Bool × List Glyph
  | [] => (keyAllowed, [])
  | g :: rest =>
    if isBreak g.char then skip inFlow (keyAllowed || !inFlow) false rest
    else if inComment || g.char = '#' then skip inFlow keyAllowed true rest
    else if g.char = ' ' || (g.char = '\t' && (inFlow || !keyAllowed)) then
      skip inFlow keyAllowed false rest
    else (keyAllowed, g :: rest)

/-- The lexer in front of the next token. -/
def atToken (l : Lexer) : Lexer :=
  let (keyAllowed, rest) := skip l.inFlow l.keyAllowed false l.rest
  { l with keyAllowed := keyAllowed, rest := rest }

/-- All tokens. The number bounds the steps; each reads a character at least. -/
def run : Nat → Lexer → Option (List Token)
  | 0, _ => none
  | n + 1, l =>
    let l := l.atToken
    match l.rest with
    | [] => l.closeAll.dropKey.map (fun l => l.tokens.reverse)
    | g :: rest => do
      let l ← l.dropLost g
      run n (← (l.closeDeeper g.column).token g rest)

end Lexer

/-- The tokens of a text, if it has only such. -/
def tokens? (source : String) : Option (List Token) := do
  let s ← glyphs? source
  (Lexer.ofGlyphs s).run (s.length + 1)

end Yaml

end AvroCodegen
