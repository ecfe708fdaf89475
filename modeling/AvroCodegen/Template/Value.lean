import AvroCodegen.Decimal.Exact
import AvroCodegen.Entity.Basic
import AvroCodegen.Text.Quoted

set_option autoImplicit false

/-! # Values of templates

What an expression of a template stands for. Besides the usual values there are two kinds of
undefined value, the ordinary one, which most uses refuse, and a silent one, which prints as
nothing; there are views, through which a template sees the model; there is the loop, through which
a body sees where it is; and there are the functions that every template can name. A map keeps its
pairs in the order of the keys, each key once. A series holds items as a list does, but is not taken
for a list where one is asked for: ranges, slices, sums of lists and whatever is turned around are
series. Markup is a text whose special characters are escaped already; apart from that it is a
text. -/

namespace AvroCodegen

/-- A part of the model as a template sees it. -/
inductive View where
  | schema (type : NamedType)
  | entity (store : Store) (id : Nat)
  | field (store : Store) (field : Field)
  | type (store : Store) (type : FieldType)

/-- A function that every template can name. -/
inductive GlobalFunction where
  | range
  | dict
  | debug
  | namespace
  deriving DecidableEq, Repr

/-- Where a loop is: how often its body ran before, how many items it has where that is known before
its end, and how many loops it is called from. The number tells loops apart. -/
structure LoopPlace where
  loop : Nat
  index : Nat
  size : Option Nat
  depth : Nat
  deriving DecidableEq, Repr

/-- A value of a template. -/
inductive Value where
  | undefined (silent : Bool)
  | none
  | bool (value : Bool)
  | int (value : Int)
  | real (value : Decimal.Double)
  | text (value : String)
  | markup (value : String)
  | list (items : List Value)
  | series (items : List Value)
  | map (pairs : List (Value × Value))
  | view (view : View)
  | loop (place : LoopPlace) (previous next : Value)
  | function (function : GlobalFunction)

namespace GlobalFunction

/-- All of them. -/
def all : List GlobalFunction := [.range, .dict, .debug, .namespace]

/-- The name of a function in templates. -/
def name : GlobalFunction → String
  | .range => "range"
  | .dict => "dict"
  | .debug => "debug"
  | .namespace => "namespace"

/-- The function of a name. -/
def ofName? (name : String) : Option GlobalFunction :=
  all.find? (fun f => f.name = name)

/-- What a function prints as when it is not called: where the template language keeps it. -/
def text (f : GlobalFunction) : String :=
  "minijinja::functions::builtins::" ++ f.name

end GlobalFunction

namespace LoopPlace

/-- What a loop prints. -/
def text (p : LoopPlace) : String :=
  "<loop " ++ toString p.index ++ "/" ++ ((p.size.map (toString ·)).getD "?") ++ ">"

/-- The keys that a loop lists of itself. -/
def keys : List String :=
  ["index0", "index", "length", "revindex", "revindex0", "first", "last", "depth", "depth0",
   "previtem", "nextitem"]

end LoopPlace

namespace View

/-- What a view prints: a fullname, a field name or a type name. -/
def text : View → String
  | .schema t => t.fullname
  | .entity store id => ((store.get? id).map (fun e => e.naming.fullname)).getD ""
  | .field _ f => f.name
  | .type _ t => t.name

/-- The keys that a view lists of itself. -/
def keys : View → List String
  | .schema _ => ["name", "namespace", "fullname", "doc", "kind", "props"]
  | .entity store id =>
    match store.get? id with
    | some (.record _) =>
      ["namespace", "name", "fullname", "kind", "schema", "fields", "dependencies", "parents",
       "owners", "is_root", "is_owner", "is_dependent"]
    | some (.enum _) =>
      ["namespace", "name", "fullname", "kind", "schema", "symbols", "aliases"]
    | none => []
  | .field _ _ => ["name", "type", "is_primary"]
  | .type _ _ => ["name", "props", "is_primary"]

end View

namespace Value

instance : Inhabited Value := ⟨.undefined false⟩

/-- The ordinary undefined value. -/
def missing : Value := .undefined false

/-- Whether a value is undefined, in either way. -/
def isUndefined : Value → Bool
  | .undefined _ => true
  | _ => false

/-- A value as a text, if it is one. -/
def text? : Value → Option String
  | .text s => some s
  | .markup s => some s
  | _ => Option.none

/-- Where the kind of a value stands among the kinds. -/
def rank : Value → Nat
  | .undefined _ => 0
  | .none => 1
  | .bool _ => 2
  | .int _ => 3
  | .real _ => 3
  | .text _ => 4
  | .markup _ => 4
  | .list _ => 5
  | .map _ => 6
  | .view _ => 6
  | .loop _ _ _ => 6
  | .series _ => 7
  | .function _ => 8

/-! ## From the model -/

mutual

/-- The value of a JSON value. -/
def ofJson : Json → Value
  | .null => .none
  | .bool b => .bool b
  | .num (.int i) => .int i
  | .num (.real d) => .real d
  | .str s => .text s
  | .arr items => .list (ofJsonItems items)
  | .obj members => .map (ofJsonMembers members)

/-- The values of JSON items. -/
def ofJsonItems : List Json → List Value
  | [] => []
  | j :: rest => ofJson j :: ofJsonItems rest

/-- The pairs of JSON members. -/
def ofJsonMembers : List (String × Json) → List (Value × Value)
  | [] => []
  | (k, j) :: rest => (.text k, ofJson j) :: ofJsonMembers rest

end

/-- A list of texts. -/
def ofTexts (texts : List String) : Value :=
  .list (texts.map .text)

/-! ## Printing -/

/-- The text of a float as a value of its own. -/
def plainReal : Decimal.Layout := ⟨fun _ => true, false, .up⟩

/-- The text of a float inside a list or map. -/
def nestedReal : Decimal.Layout := ⟨fun point => -4 < point && point ≤ 16, false, .up⟩

/-- The text of a float; what is not finite has a name. -/
def realText (layout : Decimal.Layout) (d : Decimal.Double) : String :=
  if d.isFinite then layout.text d
  else if d.fractionBits ≠ 0 then "NaN"
  else if d.isNegative then "-inf" else "inf"

mutual

/-- The text of a value inside a list or map, where texts are quoted. -/
def nestedText : Value → String
  | .undefined _ => "undefined"
  | .none => "none"
  | .bool b => if b then "true" else "false"
  | .int i => toString i
  | .real d => realText nestedReal d
  | .text s => Text.quoted s
  | .markup s => Text.quoted s
  | .list items => "[" ++ String.intercalate ", " (nestedTexts items) ++ "]"
  | .series items => "[" ++ String.intercalate ", " (nestedTexts items) ++ "]"
  | .map pairs => "\x7b" ++ String.intercalate ", " (pairTexts pairs) ++ "\x7d"
  | .view v => v.text
  | .loop place _ _ => place.text
  | .function f => f.text

/-- The texts of items. -/
def nestedTexts : List Value → List String
  | [] => []
  | v :: rest => nestedText v :: nestedTexts rest

/-- The texts of pairs. -/
def pairTexts : List (Value × Value) → List String
  | [] => []
  | (k, v) :: rest => (nestedText k ++ ": " ++ nestedText v) :: pairTexts rest

end

/-- The text of a value. -/
def toText : Value → String
  | .undefined _ => ""
  | .text s => s
  | .markup s => s
  | .real d => realText plainReal d
  | v => nestedText v

/-! ## Reading -/

/-- The items of a list or series. -/
def sequence? : Value → Option (List Value)
  | .list items => some items
  | .series items => some items
  | _ => Option.none

/-- Whether a value counts as true. -/
def isTrue : Value → Bool
  | .undefined _ => false
  | .none => false
  | .bool b => b
  | .int i => i ≠ 0
  | .real d => !(d.toFloat == 0.0)
  | .text s => !s.isEmpty
  | .markup s => !s.isEmpty
  | .list items => !items.isEmpty
  | .series items => !items.isEmpty
  | .map pairs => !pairs.isEmpty
  | .view v => !v.keys.isEmpty
  | .loop _ _ _ => true
  | .function _ => true

/-- The characters of a text, each a text. -/
def characters (s : String) : List Value :=
  s.toList.map (fun c => .text (String.ofList [c]))

/-- What a loop over the value meets: the items of a list, the keys of a map, the characters of a
text, and nothing for what is absent. -/
def items? : Value → Option (List Value)
  | .undefined _ => some []
  | .none => some []
  | .text s => some (characters s)
  | .markup s => some (characters s)
  | .list items => some items
  | .series items => some items
  | .map pairs => some (pairs.map Prod.fst)
  | .view v => some (v.keys.map .text)
  | .loop _ _ _ => some (LoopPlace.keys.map .text)
  | _ => Option.none

/-- Whether the count of items is known before a loop has gone through them; it is not for the
characters of a text. -/
def isCounted (v : Value) : Bool :=
  v.text?.isNone

/-- How many items, keys or characters there are. -/
def size? : Value → Option Nat
  | .text s => some s.length
  | .markup s => some s.length
  | .list items => some items.length
  | .series items => some items.length
  | .map pairs => some pairs.length
  | .view v => some v.keys.length
  | .loop _ _ _ => some LoopPlace.keys.length
  | _ => Option.none

/-- A value as a whole number, booleans being zero and one. -/
def whole? : Value → Option Int
  | .int i => some i
  | .bool b => some b.toNat
  | _ => Option.none

/-- A value as a float. -/
def float? : Value → Option Float
  | .real d => some d.toFloat
  | .int i => some (Float.ofInt i)
  | .bool b => some (Float.ofNat b.toNat)
  | _ => Option.none

/-- A value as a whole number of sixty-four bits, also one given as boolean or as float; the float
just above the largest stands for the largest. -/
def index? (v : Value) : Option Int :=
  let largest : Int := 9223372036854775807
  let within := fun (i : Int) => if -largest - 1 ≤ i ∧ i ≤ largest then some i else Option.none
  match v with
  | .real d => d.whole?.bind (fun i => if i = largest + 1 then some largest else within i)
  | v => v.whole?.bind within

/-- The place that an index names in a sequence; a negative index counts from the end. -/
def place? (index : Int) (size : Nat) : Option Nat :=
  if 0 ≤ index then some index.toNat
  else if index.natAbs ≤ size then some (size - index.natAbs)
  else Option.none

end Value

end AvroCodegen
