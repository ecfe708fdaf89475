import AvroCodegen.Decimal.Nearest
import AvroCodegen.Decimal.Shortest
import AvroCodegen.Fault
import AvroCodegen.Text.Blank

set_option autoImplicit false

/-! # The parts of a template text

A template text is cut into segments: plain text, what stands between `\x7b\x7b` and `\x7d\x7d`, and
what stands between `\x7b%` and `%\x7d`. Comments vanish; what stands inside a raw tag is plain
text. The inside of the other two is a list of lexemes; the closing mark counts only where no
bracket is open.

White space next to a mark: a hyphen at the mark removes all of it on that side, a plus keeps it.
Otherwise a tag or comment takes with it the line break right behind it, and the blanks before it if
nothing else stands before it on its line.

What cannot be read becomes a broken lexeme or segment, so that a reader meets it in its place. -/

namespace AvroCodegen

/-- The smallest parts of an expression or tag. -/
inductive Lexeme where
  | name (name : String)
  | text (value : String)
  | int (value : Nat)
  | real (value : Decimal.Double)
  | sign (sign : String)
  | broken (problem : TemplateProblem)
  deriving DecidableEq, Repr

/-- The parts of a template text. -/
inductive Segment where
  | text (content : String)
  | print (lexemes : List Lexeme)
  | tag (lexemes : List Lexeme)
  | broken (problem : TemplateProblem)
  deriving DecidableEq, Repr

namespace Lexeme

/-! ## Names, numbers and texts -/

/-- A character that a name may begin with. -/
def beginsName (c : Char) : Bool :=
  c.isAlpha || c = '_'

/-- A character inside a name. -/
def insideName (c : Char) : Bool :=
  c.isAlphanum || c = '_'

/-- Where a number stands that is being scanned. -/
inductive NumberPlace where
  | whole
  | fraction
  | power
  | signedPower
  deriving DecidableEq

/-- Whether what stands behind a point is a name, so that the point belongs to no number; an
exponent may follow a point at once. -/
def isAttribute (behind : List Char) : Bool :=
  match behind with
  | [] => false
  | c :: rest =>
    beginsName c
      && !((c = 'e' || c = 'E') && rest.head?.any (fun d => d.isDigit || d = '+' || d = '-'))

/-- The place after one more character, if the character goes on with the number before what stands
behind it. -/
def NumberPlace.after (place : NumberPlace) (c : Char) (behind : List Char) : Option NumberPlace :=
  if c = '_' then some place
  else if c.isDigit then
    match place with
    | .power => some .signedPower
    | place => some place
  else match place with
    | .whole =>
      if c = '.' then (if isAttribute behind then none else some .fraction)
      else if c = 'e' || c = 'E' then some .power
      else none
    | .fraction => if c = 'e' || c = 'E' then some .power else none
    | .power => if c = '+' || c = '-' then some .signedPower else none
    | .signedPower => none

/-- The characters of a number, the place where it ends, and the rest. -/
def scanNumber (place : NumberPlace) : List Char → List Char × NumberPlace × List Char
  | [] => ([], place, [])
  | c :: rest =>
    match place.after c rest with
    | none => ([], place, c :: rest)
    | some next =>
      let (digits, final, after) := scanNumber next rest
      (c :: digits, final, after)

/-- The value of decimal digits. -/
def decimalValue (digits : List Char) : Nat :=
  digits.foldl (fun n c => 10 * n + (c.toNat - '0'.toNat)) 0

/-- The value of a digit in a base up to sixteen. -/
def digitValue? (base : Nat) (c : Char) : Option Nat :=
  let n :=
    if c.isDigit then c.toNat - '0'.toNat
    else if 'a' ≤ c ∧ c ≤ 'f' then c.toNat - 'a'.toNat + 10
    else if 'A' ≤ c ∧ c ≤ 'F' then c.toNat - 'A'.toNat + 10
    else 16
  if n < base then some n else none

/-- The value of digits in a base; there must be some. -/
def valueIn? (base : Nat) (digits : List Char) : Option Nat :=
  if digits.isEmpty then none
  else digits.foldl (fun n? c => do return base * (← n?) + (← digitValue? base c)) (some 0)

/-- A whole number must fit one hundred and twenty-eight bits. -/
def ofWhole (n? : Option Nat) : Lexeme :=
  match n? with
  | some n => if n < Nat.pow 2 128 then .int n else .broken .badSyntax
  | none => .broken .badSyntax

/-- The float that a decimal text with point or exponent stands for. -/
def realOf (text : List Char) : Lexeme :=
  let isMark := fun (c : Char) => c = 'e' || c = 'E'
  let head := text.takeWhile (fun c => !isMark c)
  let tail := (text.dropWhile (fun c => !isMark c)).drop 1
  let whole := head.takeWhile (fun c => c != '.')
  let fraction := (head.dropWhile (fun c => c != '.')).drop 1
  let negative := tail.head? = some '-'
  let power := tail.filter Char.isDigit
  if text.any isMark && power.isEmpty then .broken .badSyntax
  else
    let e : Int := (if negative then -1 else 1) * (decimalValue power : Int) - fraction.length
    .real (.ofFloat (Decimal.nearest (decimalValue (whole ++ fraction)) e))

/-- The lexeme of a scanned number; underscores between digits do not count. -/
def ofNumber (text : List Char) (place : NumberPlace) : Lexeme :=
  if text.getLast? = some '_' then .broken .badSyntax
  else
    let plain := text.filter (fun c => c != '_')
    match place with
    | .whole => ofWhole (valueIn? 10 plain)
    | _ => realOf plain

/-- The base that the beginning of a number announces. -/
def base? (c : Char) : Option Nat :=
  if c = 'x' || c = 'X' then some 16
  else if c = 'o' || c = 'O' then some 8
  else if c = 'b' || c = 'B' then some 2
  else none

/-- A number in an announced base. -/
def inBase (base : Nat) (s : List Char) : Lexeme × List Char :=
  let inside := fun (c : Char) => c = '_' || (digitValue? (max base 10) c).isSome
  let digits := s.takeWhile inside
  let rest := s.dropWhile inside
  if digits.getLast? = some '_' then (.broken .badSyntax, rest)
  else (ofWhole (valueIn? base (digits.filter (fun c => c != '_'))), rest)

/-- A number at the head of a text. -/
def number (s : List Char) : Lexeme × List Char :=
  let plain :=
    let (digits, place, rest) := scanNumber .whole s
    (ofNumber digits place, rest)
  match s with
  | '0' :: c :: rest =>
    match base? c with
    | some base => inBase base rest
    | none => plain
  | _ => plain

/-- What stands before the closing quote, and what behind it; a backslash guards the next
character. -/
def untilQuote (quote : Char) : List Char → Option (List Char × List Char)
  | [] => none
  | '\\' :: c :: rest => (untilQuote quote rest).map (fun p => ('\\' :: c :: p.1, p.2))
  | ['\\'] => none
  | c :: rest =>
    if c = quote then some ([], rest)
    else (untilQuote quote rest).map (fun p => (c :: p.1, p.2))

/-- The character that a backslash and a letter stand for; other letters stand with their backslash
for themselves. -/
def escape? (c : Char) : Option Char :=
  match c with
  | '"' => some '"'
  | '\\' => some '\\'
  | '/' => some '/'
  | '\'' => some '\''
  | 'b' => some '\x08'
  | 'f' => some '\x0c'
  | 'n' => some '\n'
  | 'r' => some '\r'
  | 't' => some '\t'
  | _ => none

/-- A number of so many digits in base sixteen; a plus may take the place of the first. -/
def unit? (size : Nat) (digits : List Char) : Option Nat :=
  if digits.length ≠ size then none
  else match digits with
    | '+' :: rest => valueIn? 16 rest
    | digits => valueIn? 16 digits

/-- The octal digits that an escape takes from the front of a text: at most three. -/
def octalDigits (s : List Char) : List Char :=
  (s.take 3).takeWhile (fun c => (digitValue? 8 c).isSome)

/-- What an escape of sixteen bits adds to a text, and the half of a pair that it leaves open. A
character beyond sixteen bits is written as two halves, one right behind the other. -/
def joinHalves (half : Option Nat) (n : Nat) : Option (List Char × Option Nat) :=
  let isHalf := 0xD800 ≤ n && n ≤ 0xDFFF
  match half, isHalf with
  | none, false => some ([Char.ofNat n], none)
  | none, true => some ([], some n)
  | some _, false => none
  | some high, true =>
    if high < 0xDC00 && 0xDC00 ≤ n then
      some ([Char.ofNat (0x10000 + (high - 0xD800) * 0x400 + (n - 0xDC00))], none)
    else none

/-- Resolves the escapes of a text, given the half of a pair that is left open before it. -/
def unescape (half : Option Nat) (s : List Char) : Option (List Char) :=
  match s with
  | [] => if half.isNone then some [] else none
  | '\\' :: 'u' :: rest => do
    let (written, half) ← joinHalves half (← unit? 4 (rest.take 4))
    return written ++ (← unescape half (rest.drop 4))
  | '\\' :: 'x' :: rest =>
    if half.isSome then none
    else do
      let n ← unit? 2 (rest.take 2)
      return Char.ofNat n :: (← unescape none (rest.drop 2))
  | '\\' :: c :: rest =>
    if half.isSome then none
    else
      let digits := octalDigits (c :: rest)
      if digits.isEmpty then do
        let written := match escape? c with
          | some d => [d]
          | none => ['\\', c]
        return written ++ (← unescape none rest)
      else do
        let n ← valueIn? 8 digits
        if 255 < n then none
        else return Char.ofNat n :: (← unescape none (rest.drop (digits.length - 1)))
  | ['\\'] => none
  | c :: rest => if half.isSome then none else do return c :: (← unescape none rest)
termination_by s.length
decreasing_by all_goals simp only [List.length_cons, List.length_drop]; omega

/-- A quoted text whose opening quote is read. -/
def quotedText (quote : Char) (s : List Char) : Lexeme × List Char :=
  match untilQuote quote s with
  | none => (.broken .badSyntax, [])
  | some (inside, rest) =>
    match unescape none inside with
    | some cs => (.text (String.ofList cs), rest)
    | none => (.broken .badEscape, rest)

/-! ## One lexeme -/

/-- The signs of two characters. -/
def doubleSigns : List String := ["//", "**", "==", "!=", ">=", "<="]

/-- The signs of one character. -/
def singleSigns : List Char :=
  ['+', '-', '*', '/', '%', '.', ',', ':', '~', '|', '=', '>', '<', '(', ')', '[', ']', '\x7b',
   '\x7d']

/-- The first lexeme of a text that begins with none of the blanks. -/
def first (s : List Char) : Lexeme × List Char :=
  let pair := String.ofList (s.take 2)
  if doubleSigns.contains pair then (.sign pair, s.drop 2)
  else match s with
    | [] => (.broken .badSyntax, [])
    | c :: rest =>
      if singleSigns.contains c then (.sign (String.singleton c), rest)
      else if c = '\'' || c = '"' then quotedText c rest
      else if c.isDigit then number s
      else if beginsName c then
        (.name (String.ofList (s.takeWhile insideName)), s.dropWhile insideName)
      else (.broken .badSyntax, [])

/-- How a lexeme changes the number of open brackets. -/
def opening : Lexeme → Int
  | .sign "(" => 1
  | .sign "[" => 1
  | .sign "\x7b" => 1
  | .sign ")" => -1
  | .sign "]" => -1
  | .sign "\x7d" => -1
  | _ => 0

end Lexeme

namespace Segment

/-! ## White space at marks -/

/-- What a mark does with the white space on its side. -/
inductive Trim where
  | usual
  | all
  | nothing
  deriving DecidableEq, Repr

/-- The sign that may stand at a mark. -/
def Trim.ofSign? (c : Char) : Option Trim :=
  if c = '-' then some .all else if c = '+' then some .nothing else none

/-- A line break. -/
def isBreak (c : Char) : Bool :=
  c = '\n' || c = '\r'

/-- Whether only white space stands on the line that a text ends in, given the same of where the
text begins. -/
def blankLine (before : Bool) (s : List Char) : Bool :=
  s.foldl (fun b c => if isBreak c then true else b && Text.isBlank c) before

/-- The text without the blanks of the line it ends in, where that line begins with it or behind a
line feed; behind a carriage return they stay. -/
def dropLineEnd (s : List Char) : List Char :=
  match s.reverse.dropWhile (fun c => Text.isBlank c && !isBreak c) with
  | [] => []
  | c :: rest => if c = '\n' then (c :: rest).reverse else s

/-- The text before a mark, as the mark leaves it. -/
def leave (trim : Trim) (takesBlanks : Bool) (lead : List Char) : List Char :=
  match trim with
  | .all => Text.trimEnd lead
  | .nothing => lead
  | .usual => if takesBlanks then dropLineEnd lead else lead

/-- The text without the line break it begins with. -/
def dropBreak (s : List Char) : List Char :=
  match s with
  | '\r' :: '\n' :: rest => rest
  | '\r' :: rest => rest
  | '\n' :: rest => rest
  | s => s

/-- The text behind a mark, as the mark leaves it. -/
def goOn (trim : Trim) (takesBreak : Bool) (s : List Char) : List Char :=
  match trim with
  | .all => Text.trimStart s
  | .nothing => s
  | .usual => if takesBreak then dropBreak s else s

/-! ## Marks -/

/-- The opening marks. -/
inductive Mark where
  | print
  | tag
  | comment
  deriving DecidableEq, Repr

/-- The mark that a brace and a character make. -/
def Mark.of? (c : Char) : Option Mark :=
  if c = '\x7b' then some .print
  else if c = '%' then some .tag
  else if c = '#' then some .comment
  else none

/-- What stands before the first opening mark, the mark, and the rest. -/
def untilMark : List Char → List Char × Option (Mark × List Char)
  | [] => ([], none)
  | [c] => ([c], none)
  | c :: d :: rest =>
    match if c = '\x7b' then Mark.of? d else none with
    | some mark => ([], some (mark, rest))
    | none =>
      let (lead, found) := untilMark (d :: rest)
      (c :: lead, found)

/-- The text behind a given beginning. -/
def behind? (start s : List Char) : Option (List Char) :=
  if start.isPrefixOf s then some (s.drop start.length) else none

/-- The sign at an opening mark, and the rest. -/
def openSign (s : List Char) : Trim × List Char :=
  match s with
  | c :: rest =>
    match Trim.ofSign? c with
    | some trim => (trim, rest)
    | none => (.usual, s)
  | [] => (.usual, [])

/-- A closing mark at the head of a text, with its sign, and the rest. -/
def closing? (close s : List Char) : Option (Trim × List Char) :=
  match behind? close s with
  | some rest => some (.usual, rest)
  | none =>
    match s with
    | c :: rest =>
      (Trim.ofSign? c).bind (fun trim => (behind? close rest).map (fun after => (trim, after)))
    | [] => none

/-- The white space between lexemes. -/
def isGap (c : Char) : Bool :=
  c = ' ' || c = '\t' || c = '\n' || c = '\r' || c = '\x0c'

/-- The lexemes up to the closing mark; without one the last lexeme is broken. -/
def lexemes (close : List Char) (depth : Int) (s : List Char) :
    List Lexeme × Option (Trim × List Char) :=
  let s' := s.dropWhile isGap
  match if depth = 0 then closing? close s' else none with
  | some found => ([], some found)
  | none =>
    let step := Lexeme.first s'
    if step.2.length < s.length then
      match step.1 with
      | .broken problem => ([.broken problem], none)
      | lexeme =>
        let (rest, found) := lexemes close (depth + lexeme.opening) step.2
        (lexeme :: rest, found)
    else ([.broken .badSyntax], none)
termination_by s.length

/-! ## Comments and raw text -/

/-- What stands behind the end of a comment, with the sign at its end, which may be the sign at its
beginning. -/
def behindComment (before : Char) : List Char → Option (Trim × List Char)
  | [] => none
  | [_] => none
  | c :: d :: rest =>
    if c = '#' && d = '\x7d' then some ((Trim.ofSign? before).getD .usual, rest)
    else behindComment c (d :: rest)

/-- A tag of one word whose opening mark is read: the sign at its end, and the rest. -/
def wordTag? (word : List Char) (s : List Char) : Option (Trim × List Char) := do
  let inside ← behind? word ((openSign s).2.dropWhile isGap)
  closing? ['%', '\x7d'] (inside.dropWhile isGap)

/-- The tag that ends raw text: the sign before it, the one behind it, and the rest. -/
def rawEnd? (s : List Char) : Option (Trim × Trim × List Char) := do
  let inside ← behind? ['\x7b', '%'] s
  let found ← wordTag? "endraw".toList inside
  return ((openSign inside).1, found)

/-- What stands before the end of raw text, the sign before that tag, the one behind it, and the
rest. -/
def untilRawEnd : List Char → Option (List Char × Trim × Trim × List Char)
  | [] => none
  | c :: rest =>
    match rawEnd? (c :: rest) with
    | some (before, after, behind) => some ([], before, after, behind)
    | none => (untilRawEnd rest).map (fun (content, found) => (c :: content, found))

/-! ## All segments -/

/-- A text segment, unless it is empty. -/
def ofText (s : List Char) : List Segment :=
  if s.isEmpty then [] else [.text (String.ofList s)]

/-- What stands right behind an opening mark: segments, and the rest if the text can be read on. -/
def afterMark (mark : Mark) (s : List Char) : List Segment × Option (List Char) :=
  match mark with
  | .comment =>
    match behindComment ' ' s with
    | none => ([.broken .badSyntax], none)
    | some (trim, rest) => ([], some (goOn trim true rest))
  | .print =>
    let (inside, found) := lexemes ['\x7d', '\x7d'] 0 (openSign s).2
    ([.print inside], found.map (fun (trim, rest) => goOn trim false rest))
  | .tag =>
    match wordTag? "raw".toList s with
    | some (trim, content) =>
      match untilRawEnd content with
      | none => ([.broken .badSyntax], none)
      | some (inside, before, after, rest) =>
        let content := goOn trim true inside
        (ofText (leave before true content), some (goOn after true rest))
    | none =>
      let (inside, found) := lexemes ['%', '\x7d'] 0 (openSign s).2
      ([.tag inside], found.map (fun (trim, rest) => goOn trim true rest))

/-- The segments of a text, given whether only white space stands before it on its line. -/
def cut (lineIsBlank : Bool) (s : List Char) : List Segment :=
  match untilMark s with
  | (lead, none) => ofText lead
  | (lead, some (mark, inside)) =>
    let trim := (openSign inside).1
    let kept := leave trim (mark ≠ .print && blankLine lineIsBlank lead) lead
    let (found, rest?) := afterMark mark inside
    match rest? with
    | none => ofText kept ++ found
    | some rest =>
      if rest.length < s.length then
        let used := s.take (s.length - rest.length)
        ofText kept ++ found ++ cut (blankLine lineIsBlank used) rest
      else ofText kept ++ found
termination_by s.length

/-- The segments of a template text. -/
def all (source : String) : List Segment :=
  cut true source.toList

end Segment

end AvroCodegen
