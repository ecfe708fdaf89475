import AvroCodegen.Template.Argument
import AvroCodegen.Text.Blank
import AvroCodegen.Text.Case

set_option autoImplicit false

/-! # Filters and tests

The filters and tests that know nothing of the model. A filter is a function of its operand and its
arguments; the parameters are taken before anything is done with them. -/

namespace AvroCodegen

namespace Filter

open Taking

/-- Fails with an invalid operation. -/
def invalid {α : Type} : Taking α :=
  refuse .invalidOperation

/-- A filter that rewrites a text. -/
def rewriting (f : String → String) : Taking Value := do
  let s ← text
  finish
  return .text (f s)

/-! ## Texts -/

/-- Removes the given characters at both ends. -/
def trimOf (chars s : String) : String :=
  let isGiven := fun (c : Char) => chars.toList.contains c
  String.ofList ((s.toList.dropWhile isGiven).reverse.dropWhile isGiven).reverse

/-- Removes white space, or the given characters, at both ends. -/
def trim : Taking Value := do
  let s ← text
  let chars ← text?
  finish
  match chars with
  | none => return .text (Text.trimString s)
  | some chars => return .text (trimOf chars s)

/-- Puts a text behind every character. -/
def afterEach (new : List Char) : List Char → List Char
  | [] => []
  | c :: rest => c :: new ++ afterEach new rest

/-- Replaces every occurrence of a text that is not empty, from the front; `skip` characters belong
to the occurrence before. -/
def replaceFrom (part new : List Char) : Nat → List Char → List Char
  | _, [] => []
  | skip + 1, _ :: rest => replaceFrom part new skip rest
  | 0, c :: rest =>
    if part.isPrefixOf (c :: rest) then new ++ replaceFrom part new (part.length - 1) rest
    else c :: replaceFrom part new 0 rest

/-- Replaces every occurrence of a text; the empty text occurs around every character. -/
def replaced (part new s : String) : String :=
  if part.isEmpty then String.ofList (new.toList ++ afterEach new.toList s.toList)
  else String.ofList (replaceFrom part.toList new.toList 0 s.toList)

/-- Replaces every occurrence of a text by another. -/
def replace : Taking Value := do
  let s ← text
  let part ← text
  let new ← text
  finish
  return .text (replaced part new s)

/-! ## Sequences -/

/-- Joins what a loop over the operand meets. -/
def join : Taking Value := do
  let v ← anything
  let joiner ← text?
  finish
  match v.items? with
  | some items => return .text (String.intercalate (joiner.getD "") (items.map Value.toText))
  | none => invalid

/-- The count of items, keys or characters. -/
def length : Taking Value := do
  let v ← anything
  finish
  match v.size? with
  | some n => return .int n
  | none => invalid

/-- The first item, key or character. -/
def first : Taking Value := do
  let v ← anything
  finish
  match v, v.items? with
  | .undefined _, _ => invalid
  | .none, _ => invalid
  | _, some items => return items.headD .missing
  | _, none => invalid

/-- The last item or character. -/
def last : Taking Value := do
  let v ← anything
  finish
  match v.text?, v.sequence? with
  | some s, _ => return (Value.characters s).getLastD .missing
  | _, some items => return items.getLastD .missing
  | _, none => invalid

/-- The items, keys or characters from the end; the keys of a map keep their order. -/
def reverse : Taking Value := do
  let v ← anything
  finish
  match v with
  | .undefined silent => return .undefined silent
  | .none => return .none
  | .map pairs => return .series (pairs.map Prod.fst)
  | v =>
    match v.text?, v.items? with
    | some s, _ => return .text (String.ofList s.toList.reverse)
    | _, some items => return .series items.reverse
    | _, none => invalid

/-- What a loop over the operand meets, as a list. -/
def list : Taking Value := do
  let v ← anything
  finish
  match v, v.items? with
  | .undefined false, _ => invalid
  | _, some items => return .list items
  | _, none => invalid

/-- The pairs of a map one after the other, each a list of key and value. -/
def items : Taking Value := do
  let v ← anything
  finish
  match v.pairs? with
  | some pairs => return .series (pairs.map (fun p => .list [p.1, p.2]))
  | none => invalid

/-- A path of attributes and places. -/
def path? (v : Value) (path : String) : Option Value :=
  (path.splitOn ".").foldl
    (fun v? part => v?.bind fun v =>
      if v.isUndefined then none
      else match part.toNat? with
        | some n => some ((v.item? (.int n)).getD .missing)
        | none => some ((v.attribute? part).getD .missing))
    (some v)

/-- The order of two values for sorting; letters of either case are alike unless they count. -/
def sortOrder (caseCounts : Bool) (a b : Value) : Ordering :=
  match caseCounts, a.text?, b.text? with
  | false, some s, some t => Value.compareTexts (s.map Char.toLower) (t.map Char.toLower)
  | _, _, _ => a.compare b

/-- A boolean given by keyword. -/
def keyedFlag (pairs : List (String × Value)) (key : String) : Taking Bool :=
  match Keyed.get? key pairs with
  | none => return false
  | some .none => return false
  | some (.undefined _) => return false
  | some v => flagOf (.value v)

/-- A text given by keyword. -/
def keyedText (pairs : List (String × Value)) (key : String) : Taking (Option String) :=
  match Keyed.get? key pairs with
  | none => return none
  | some .none => return none
  | some (.undefined _) => return none
  | some v =>
    match v.text? with
    | some s => return some s
    | none => invalid

/-- Sorts what a loop over the operand meets; what is alike keeps its order, whichever way it
goes. -/
def sort : Taking Value := do
  let v ← anything
  let pairs ← keywords
  finish
  let items ← match v, v.items? with
    | .undefined false, _ => invalid
    | _, some items => pure items
    | _, none => invalid
  let caseCounts ← keyedFlag pairs "case_sensitive"
  let key ← keyedText pairs "attribute"
  let order := fun (a b : Value) =>
    match key with
    | none => sortOrder caseCounts a b
    | some path =>
      match path? a path, path? b path with
      | some a, some b => sortOrder caseCounts a b
      | _, _ => .eq
  let backward ← keyedFlag pairs "reverse"
  if pairs.any (fun p => !(["case_sensitive", "attribute", "reverse"].contains p.1)) then
    refuse .tooManyArguments
  else
    return .list
      (items.mergeSort (fun a b => (if backward then order b a else order a b) != .gt))

/-! ## All filters -/

/-- The operand, or another value where it is undefined or, on demand, where it counts as false. -/
def default : Taking Value := do
  let v ← anything
  let other ← anything?
  let lax ← truth?
  finish
  if v.isUndefined || (lax && !v.isTrue) then return other.getD (.text "")
  else return v

/-- The filters by name. -/
def all : List (String × Taking Value) :=
  [("upper", rewriting Text.upper),
   ("lower", rewriting Text.lower),
   ("capitalize", rewriting Text.capitalize),
   ("trim", trim),
   ("replace", replace),
   ("join", join),
   ("length", length),
   ("count", length),
   ("first", first),
   ("last", last),
   ("default", default),
   ("d", default),
   ("reverse", reverse),
   ("sort", sort),
   ("items", items),
   ("list", list)]

/-! ## Tests and functions -/

/-- A test that looks at its operand only. -/
def looking (f : Value → Bool) : Taking Bool := do
  let v ← anything
  finish
  return f v

/-- The tests by name. -/
def tests : List (String × Taking Bool) :=
  [("defined", looking (fun v => !v.isUndefined)),
   ("undefined", looking Value.isUndefined),
   ("none", looking (fun v => v.rank = 1)),
   ("number", looking (fun v => v.rank = 3)),
   ("string", looking (fun v => v.rank = 4)),
   ("sequence", looking (fun v => v.rank = 5)),
   ("mapping", looking (fun v => v.rank = 6))]

/-- The most whole numbers that a range may have. -/
def rangeLimit : Int := 100000

/-- How many steps lead from one number to another, the other not reached. -/
def stepCount (start stop step : Int) : Int :=
  if 0 < step then max 0 ((stop - start + step - 1) / step)
  else max 0 ((start - stop - step - 1) / -step)

/-- Whole numbers from zero or a first one on, up or down, before a last one, at a distance. -/
def range : Taking Value := do
  let first ← whole
  let last? ← whole?
  let step? ← whole?
  finish
  let (start, stop) := match last? with
    | some last => (first, last)
    | none => (0, first)
  let step := step?.getD 1
  if step = 0 then invalid
  else
    let size := stepCount start stop step
    if rangeLimit < size then invalid
    else return .series ((List.range size.toNat).map (fun (i : Nat) => .int (start + i * step)))

/-- A map with the pairs of another and those given by keyword. -/
def dict : Taking Value := do
  let start ← match ← get with
    | [.keywords _] => pure none
    | _ => given?
  let more ← keywords
  finish
  match start.elim (some []) (fun arg => (ofArg arg).pairs?) with
  | none => invalid
  | some pairs => return Value.ofPairs (pairs ++ more.map (fun p => (.text p.1, p.2)))

/-- A map with the pairs of another whose keys are texts. -/
def namespace? : Taking Value := do
  let start ← given?
  finish
  match start.elim (some []) (fun arg => (ofArg arg).pairs?) with
  | none => invalid
  | some pairs => return Value.ofPairs (pairs.filter (fun p => p.1.rank = 4))

/-- What the functions do. The one that shows the state of a template has nothing to show. -/
def function : GlobalFunction → Taking Value
  | .range => range
  | .dict => dict
  | .namespace => namespace?
  | .debug => invalid

end Filter

end AvroCodegen
