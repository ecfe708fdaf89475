import AvroCodegen.Template.View

set_option autoImplicit false

/-! # Order and equality of values

Values have an order in which the kind counts first. Numbers are compared exactly, a whole number
with a float too; floats among themselves have a total order. Maps, views and loops are compared by
their pairs, in the order in which they list them, but views of one entity are not looked into.
Equality compares across the kinds of numbers, booleans counting as zero and one, and across lists
and series; maps and what looks like one are equal when the one shows under every key what the other
does.

What a view shows may hold views again; how deep they are looked into is bounded, beyond what a
model needs. The order of values is the order of the keys of a map. -/

namespace AvroCodegen

namespace Value

/-! ## Order -/

/-- The order of two texts. -/
def compareTexts (a b : String) : Ordering :=
  if a < b then .lt else if a = b then .eq else .gt

/-- The order of a float and a whole number. -/
def compareReal (x : Decimal.Double) (n : Int) : Ordering :=
  match x.compareWhole n with
  | .eq => if n = 0 then compare x.place 0 else .eq
  | o => o

mutual

/-- The order of two values, where `shown` orders what shows pairs and is no plain map. -/
def compareBy (shown : Value → Value → Ordering) : Value → Value → Ordering
  | .int a, .int b => Ord.compare a b
  | .int a, .real b => (compareReal b a).swap
  | .real a, .int b => compareReal a b
  | .real a, .real b => Ord.compare a.place b.place
  | .bool a, .bool b => Ord.compare a.toNat b.toNat
  | .list as, .list bs => compareAllBy shown as bs
  | .series as, .series bs => compareAllBy shown as bs
  | .map as, .map bs => comparePairsBy shown as bs
  | .function a, .function b => compareTexts a.text b.text
  | a, b =>
    match a.text?, b.text? with
    | some s, some t => compareTexts s t
    | _, _ => if a.rank = 6 ∧ b.rank = 6 then shown a b else Ord.compare a.rank b.rank

/-- The order of two lists of values. -/
def compareAllBy (shown : Value → Value → Ordering) : List Value → List Value → Ordering
  | [], [] => .eq
  | [], _ :: _ => .lt
  | _ :: _, [] => .gt
  | a :: as, b :: bs =>
    match compareBy shown a b with
    | .eq => compareAllBy shown as bs
    | o => o

/-- The order of two lists of pairs. -/
def comparePairsBy (shown : Value → Value → Ordering) :
    List (Value × Value) → List (Value × Value) → Ordering
  | [], [] => .eq
  | [], _ :: _ => .lt
  | _ :: _, [] => .gt
  | (k, v) :: as, (l, w) :: bs =>
    match compareBy shown k l with
    | .eq =>
      match compareBy shown v w with
      | .eq => comparePairsBy shown as bs
      | o => o
    | o => o

end

/-- By what views of entities are told apart. -/
def entityIdentity? (v : Value) : Option (List String) :=
  match v with
  | .view (.entity store id) =>
    (store.get? id).map
      (fun (e : Entity) => [e.naming.space, e.naming.name, e.naming.fullname, e.schema.fullname])
  | _ => Option.none

/-- Whether two values are views of one entity. -/
def isSameEntity (a b : Value) : Bool :=
  (entityIdentity? a).isSome && entityIdentity? a == entityIdentity? b

/-- How deep views are looked into. -/
def viewDepth : Nat := 8

/-- The order of two values by their pairs, where views are looked into so many times. -/
def compareShown : Nat → Value → Value → Ordering
  | 0, _, _ => .eq
  | n + 1, a, b =>
    if isSameEntity a b then .eq
    else comparePairsBy (compareShown n) (a.pairs?.getD []) (b.pairs?.getD [])

/-- The order of two values: first by kind, then by content. -/
def compare (a b : Value) : Ordering :=
  compareBy (compareShown viewDepth) a b

/-! ## Maps -/

/-- Writes a key, in key order. -/
def insertPair (key value : Value) : List (Value × Value) → List (Value × Value)
  | [] => [(key, value)]
  | (k, v) :: rest =>
    match compare key k with
    | .lt => (key, value) :: (k, v) :: rest
    | .eq => (k, value) :: rest
    | .gt => (k, v) :: insertPair key value rest

/-- The map of some pairs; of equal keys the last pair counts. -/
def ofPairs (pairs : List (Value × Value)) : Value :=
  .map (pairs.foldl (fun m p => insertPair p.1 p.2 m) [])

/-- The value of a key. -/
def lookup (key : Value) : List (Value × Value) → Option Value
  | [] => Option.none
  | (k, v) :: rest => if compare key k = .eq then some v else lookup key rest

/-- The attribute of a value, by name. -/
def attribute? (v : Value) (name : String) : Option Value :=
  match v with
  | .map pairs => lookup (.text name) pairs
  | v => v.shown? name

/-- The item of a value: by key in a map, by place in a list, series or text. -/
def item? (v key : Value) : Option Value :=
  match v with
  | .map pairs => lookup key pairs
  | v =>
    if v.rank = 6 then key.text?.bind v.shown?
    else
      let items := match v.text? with
        | some s => characters s
        | Option.none => v.sequence?.getD []
      (key.index?.bind (fun i => place? i items.length)).bind (fun n => items[n]?)

/-! ## Equality -/

/-- Whether two values that are neither lists nor show pairs are equal. -/
def sameScalar (a b : Value) : Bool :=
  match a, b with
  | .undefined _, .undefined _ => true
  | .none, .none => true
  | .function f, .function g => f = g
  | .real x, .real y => x.toFloat == y.toFloat
  | a, b =>
    match a.text?, b.text? with
    | some s, some t => s = t
    | _, _ =>
      match a, b, a.whole?, b.whole? with
      | _, _, some i, some j => i = j
      | .real x, _, _, some j => x.whole? = some j
      | _, .real y, some i, _ => y.whole? = some i
      | _, _, _, _ => false

mutual

/-- Whether two values are equal, where `shown` compares what shows pairs and is no plain map. -/
def sameBy (shown : Value → Value → Bool) : Value → Value → Bool
  | .list as, .list bs => sameAllBy shown as bs
  | .list as, .series bs => sameAllBy shown as bs
  | .series as, .list bs => sameAllBy shown as bs
  | .series as, .series bs => sameAllBy shown as bs
  | .map as, .map bs => samePairsBy shown as bs
  | a, b => if a.rank = 6 ∧ b.rank = 6 then shown a b else sameScalar a b

/-- Whether two lists hold equal values. -/
def sameAllBy (shown : Value → Value → Bool) : List Value → List Value → Bool
  | [], [] => true
  | a :: as, b :: bs => sameBy shown a b && sameAllBy shown as bs
  | _, _ => false

/-- Whether two maps hold equal pairs. -/
def samePairsBy (shown : Value → Value → Bool) : List (Value × Value) → List (Value × Value) → Bool
  | [], [] => true
  | (k, v) :: as, (l, w) :: bs => sameBy shown k l && sameBy shown v w && samePairsBy shown as bs
  | _, _ => false

end

/-- Whether two values show equal pairs, where views are looked into so many times. -/
def sameShown : Nat → Value → Value → Bool
  | 0, _, _ => true
  | n + 1, a, b =>
    let as := a.pairs?.getD []
    isSameEntity a b
      || (as.length = (b.pairs?.getD []).length
        && as.all (fun p => (b.item? p.1).any (fun w => sameBy (sameShown n) p.2 w)))

/-- Whether two values are equal. -/
def same (a b : Value) : Bool :=
  sameBy (sameShown viewDepth) a b

/-- Whether two lists hold equal values. -/
def sameAll (as bs : List Value) : Bool :=
  sameAllBy (sameShown viewDepth) as bs

end Value

end AvroCodegen
