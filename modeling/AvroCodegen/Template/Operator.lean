import AvroCodegen.Fault
import AvroCodegen.Template.Basic
import AvroCodegen.Template.Order

set_option autoImplicit false

/-! # Operators

Arithmetic is exact on whole numbers, booleans being zero and one, as long as the result fits one
hundred and twenty-eight bits with a sign; as soon as a float takes part it is done on floats.
Division with a whole quotient leaves a remainder that is not negative. Texts, lists and series are
joined by `+` and repeated by `*`, where lists give series. Everything else is an invalid operation,
and an ordinary undefined value is no operand of any operator. -/

namespace AvroCodegen

/-- Fails with a problem of the template language. -/
def complain {α : Type} (problem : TemplateProblem) : Outcome α :=
  .error (.template problem)

namespace Value

/-- Fails with an invalid operation. -/
def invalid {α : Type} : Outcome α :=
  complain .invalidOperation

/-- The value of a float. -/
def ofFloat (x : Float) : Value :=
  .real (.ofFloat x)

/-- The value of a whole number that is not too large. -/
def ofWhole (n : Int) : Outcome Value :=
  if -(Nat.pow 2 127 : Int) ≤ n ∧ n < Nat.pow 2 127 then .ok (.int n) else invalid

/-- The two operands of an arithmetic operator. -/
inductive Operands where
  | wholes (a b : Int)
  | floats (a b : Float)
  | texts (a b : String)

/-- Two whole numbers as operands. A number too large for a sign is one only beside another, and
then both stand for what their bits mean with a sign. -/
def wholeOperands? (i j : Int) : Option Operands :=
  let large := fun (n : Int) => decide ((Nat.pow 2 127 : Int) ≤ n)
  match large i, large j with
  | false, false => some (.wholes i j)
  | true, true => some (.wholes (i - Nat.pow 2 128) (j - Nat.pow 2 128))
  | _, _ => Option.none

/-- Two values on common ground. -/
def operands? (a b : Value) : Option Operands :=
  match a.text?, b.text? with
  | some s, some t => some (.texts s t)
  | _, _ =>
    match a.whole?, b.whole? with
    | some i, some j => wholeOperands? i j
    | _, _ =>
      match a.float?, b.float? with
      | some x, some y => some (.floats x y)
      | _, _ => Option.none

/-- The part of a float before the point. -/
def towardZero (x : Float) : Float :=
  if x < 0.0 then x.ceil else x.floor

/-- What a float division leaves, with the sign of the dividend. -/
def floatRemainder (a b : Float) : Float :=
  ((Decimal.Double.ofFloat a).remainder (.ofFloat b)).toFloat

/-- The whole quotient of floats whose remainder is not negative. -/
def floatQuotient (a b : Float) : Float :=
  let q := towardZero (a / b)
  if floatRemainder a b < 0.0 then (if b > 0.0 then q - 1.0 else q + 1.0) else q

/-- A text, list or series some times over. -/
def times (v count : Value) : Outcome Value :=
  match count.index?, v.text?, v.sequence? with
  | some (.ofNat n), some s, _ => .ok (.text (String.join (List.replicate n s)))
  | some (.ofNat n), _, some items => .ok (.series (List.replicate n items).flatten)
  | _, _, _ => invalid

/-- The sum of two values. -/
def add (a b : Value) : Outcome Value :=
  match a.sequence?, b.sequence? with
  | some as, some bs => .ok (.series (as ++ bs))
  | _, _ =>
    match operands? a b with
    | some (.wholes i j) => ofWhole (i + j)
    | some (.floats x y) => .ok (ofFloat (x + y))
    | some (.texts s t) => .ok (.text (s ++ t))
    | Option.none => invalid

/-- The product of two values. -/
def multiply (a b : Value) : Outcome Value :=
  if a.rank = 4 then times a b
  else if b.rank = 4 then times b a
  else if a.sequence?.isSome then times a b
  else if b.sequence?.isSome then times b a
  else
    match operands? a b with
    | some (.wholes i j) => ofWhole (i * j)
    | some (.floats x y) => .ok (ofFloat (x * y))
    | _ => invalid

/-- The power of two values. -/
def power (a b : Value) : Outcome Value :=
  match operands? a b with
  | some (.wholes i j) =>
    if j < 0 ∨ 4294967296 ≤ j then invalid
    else if i.natAbs ≤ 1 then ofWhole (Int.pow i (j.toNat % 2 + (if j = 0 then 0 else 2)))
    else if 128 ≤ j then invalid
    else ofWhole (Int.pow i j.toNat)
  | some (.floats x y) => .ok (ofFloat (x.pow y))
  | _ => invalid

/-- An operator on two numbers. -/
def arithmetic (whole : Int → Int → Outcome Value) (float : Float → Float → Float) (a b : Value) :
    Outcome Value :=
  match operands? a b with
  | some (.wholes i j) => whole i j
  | some (.floats x y) => .ok (ofFloat (float x y))
  | _ => invalid

/-- The quotient of two numbers, always a float. -/
def divide (a b : Value) : Outcome Value :=
  match a.float?, b.float? with
  | some x, some y => .ok (ofFloat (x / y))
  | _, _ => invalid

/-- Whether a text stands inside another. -/
def isInside (part : List Char) : List Char → Bool
  | [] => part.isEmpty
  | c :: rest => part.isPrefixOf (c :: rest) || isInside part rest

/-- Whether a value is found in another: a text in a text, a key in a map, an item in a list, in
what looks like a map whatever it shows, listed or not, and in a function nothing. -/
def holds (container v : Value) : Outcome Bool :=
  match container with
  | .undefined _ => .ok false
  | .list items => .ok (items.any (fun item => item.same v))
  | .series items => .ok (items.any (fun item => item.same v))
  | .function _ => .ok false
  | container =>
    match container.text? with
    | some s => .ok (isInside v.toText.toList s.toList)
    | Option.none => if container.rank = 6 then .ok (container.item? v).isSome else invalid

/-- The opposite of a number; the smallest number too large for a sign has none but itself. -/
def negate (v : Value) : Outcome Value :=
  match v with
  | .int i =>
    if i = Nat.pow 2 127 then .ok v
    else if (Nat.pow 2 127 : Int) < i then invalid
    else ofWhole (-i)
  | .real d => .ok (ofFloat (-d.toFloat))
  | .undefined false => complain .undefinedValue
  | _ => invalid

/-! ## Slices -/

/-- The bound of a slice: absent, or a whole number. -/
def bound? (v : Value) : Outcome (Option Int) :=
  match v with
  | .none => .ok Option.none
  | v =>
    match v.index? with
    | some i => .ok (some i)
    | Option.none => invalid

/-- A bound counted from the start, between the ends of a sequence. -/
def clamp (bound : Int) (size : Nat) : Nat :=
  if 0 ≤ bound then min bound.toNat size
  else size - min bound.natAbs size

/-- Every item at a distance of `step` from the one before, beginning with the first. -/
def everyNth {α : Type} (step : Nat) (xs : List α) : List α :=
  (xs.zipIdx.filter (fun p => p.2 % step = 0)).map Prod.fst

/-- The items from one bound up to the other, without the last bound. -/
def upward {α : Type} (start stop : Option Int) (step : Nat) (xs : List α) : List α :=
  let size := xs.length
  let first := clamp (start.getD 0) size
  let last := (stop.map (fun b => clamp b size)).getD size
  everyNth step ((xs.take last).drop first)

/-- The items from one bound down to the other. The last bound does not belong to them, except that
nought does: it is what an absent bound stands for. -/
def downward {α : Type} (start stop : Option Int) (step : Nat) (xs : List α) : List α :=
  let size := xs.length
  let first := (start.map (fun b => min (clamp b size) (size - 1))).getD (size - 1)
  let last := (stop.map (fun b => if 0 ≤ b then b.toNat else size - min b.natAbs size)).getD 0
  if size = 0 || first < last then []
  else
    let count := if last = 0 then (first + step) / step else (first - last + step - 1) / step
    ((List.range count).filterMap (fun i => xs[first - i * step]?))

/-- The items between two bounds; a negative step goes through them from the end. -/
def between {α : Type} (start stop : Option Int) (step : Int) (xs : List α) : List α :=
  if 0 < step then upward start stop step.toNat xs else downward start stop step.natAbs xs

/-- A slice of a text, list or series; nothing of what is absent. -/
def slice (v start stop step : Value) : Outcome Value := do
  if v.isUndefined then complain .undefinedValue
  else
    let start ← bound? start
    let stop ← bound? stop
    let step ← bound? step
    let step := step.getD 1
    if step = 0 then invalid
    else match v, v.text?, v.sequence? with
      | .none, _, _ => return .list []
      | _, some s, _ => return .text (String.ofList (between start stop step s.toList))
      | _, _, some items => return .series (between start stop step items)
      | _, _, _ => invalid

/-! ## All binary operators -/

/-- Applies a binary operator to operands that are defined. -/
def operateOn (op : BinaryOp) (a b : Value) : Outcome Value :=
  match op with
  | .add => add a b
  | .subtract => arithmetic (fun i j => ofWhole (i - j)) (· - ·) a b
  | .multiply => multiply a b
  | .divide => divide a b
  | .floorDivide =>
    arithmetic (fun i j => if j = 0 then invalid else ofWhole (i / j)) floatQuotient a b
  | .remainder =>
    arithmetic (fun i j => if j = 0 then invalid else ofWhole (i % j)) floatRemainder a b
  | .power => power a b
  | .concat => .ok (.text (a.toText ++ b.toText))
  | .equal => .ok (.bool (a.same b))
  | .unequal => .ok (.bool (!a.same b))
  | .less => .ok (.bool (a.compare b == .lt))
  | .lessEqual => .ok (.bool (a.compare b != .gt))
  | .greater => .ok (.bool (a.compare b == .gt))
  | .greaterEqual => .ok (.bool (a.compare b != .lt))
  | .contains => do return .bool (← holds b a)

/-- Applies a binary operator to evaluated operands; neither may be ordinarily undefined. -/
def operate (op : BinaryOp) (a b : Value) : Outcome Value :=
  match a, b with
  | .undefined false, _ => complain .undefinedValue
  | _, .undefined false => complain .undefinedValue
  | a, b => operateOn op a b

/-- The value of a unary operator. -/
def operateUnary (op : UnaryOp) (v : Value) : Outcome Value :=
  match op, v with
  | .not, .undefined false => complain .undefinedValue
  | .not, v => .ok (.bool (!v.isTrue))
  | .negate, v => negate v

end Value

end AvroCodegen
