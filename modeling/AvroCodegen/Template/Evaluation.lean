import AvroCodegen.Template.ModelFilter

set_option autoImplicit false

/-! # Evaluation

The value of an expression in a scope. A scope is a stack of frames; a name has the value that the
innermost frame with the name gives it; where none does it is a function that every template can
name, or else undefined. Evaluation is strict: an undefined value has no attributes, no items and no
truth. `and`, `or`, choices and chains of comparisons evaluate only what they need; arguments are
evaluated before the filter, test or function is looked for.

What evaluation leaves behind is a memory: a loop can be asked whether something has changed since
it was last asked. -/

namespace AvroCodegen

/-- The frames of names, the innermost first. -/
abbrev Scope : Type := List (Keyed Value)

namespace Scope

/-- The value of a name, if a frame has it. -/
def find? (s : Scope) (name : String) : Option Value :=
  s.findSome? (Keyed.get? name)

/-- The value of a name. -/
def value (s : Scope) (name : String) : Value :=
  match s.find? name with
  | some v => v
  | none => ((GlobalFunction.ofName? name).map .function).getD .missing

/-- Gives a name a value in the innermost frame. -/
def bind (name : String) (v : Value) : Scope → Scope
  | [] => [[(name, v)]]
  | frame :: rest => Keyed.put name v frame :: rest

end Scope

/-- What loops are remembered by: how many there were, and what each was last asked about. -/
structure Memory where
  loops : Nat
  asked : List (Nat × List Value)

namespace Memory

/-- No loop was there yet. -/
def start : Memory := ⟨0, []⟩

/-- The number of a new loop. -/
def newLoop (m : Memory) : Nat × Memory :=
  (m.loops, { m with loops := m.loops + 1 })

/-- Whether values differ from those that a loop was last asked about; they are what it was last
asked about from now on. -/
def changed (loop : Nat) (values : List Value) (m : Memory) : Bool × Memory :=
  let isSame := ((m.asked.find? (fun p => p.1 = loop)).map
    (fun p => Value.sameAll p.2 values)).getD false
  let others := m.asked.filter (fun p => p.1 ≠ loop)
  (!isSame, { m with asked := (loop, values) :: others })

end Memory

/-- A step of evaluation. -/
abbrev Evaluating (α : Type) : Type := StateT Memory (Except Fault) α

namespace Expr

/-- A result that needs no memory. -/
def plainly {α : Type} (o : Outcome α) : Evaluating α :=
  liftM o

/-- Whether a value counts as true; the ordinary undefined value does not tell. -/
def truth (v : Value) : Outcome Bool :=
  match v with
  | .undefined false => complain .undefinedValue
  | v => .ok v.isTrue

/-- The arguments of a call: those with keywords are one argument at the end. -/
def arguments (args : List (Option String × Value)) : List Arg :=
  let plain := args.filterMap (fun a => if a.1.isNone then some (Arg.value a.2) else none)
  let keyed := args.filterMap (fun a => a.1.map (fun k => (k, a.2)))
  if keyed.isEmpty then plain else plain ++ [.keywords keyed]

/-- Applies the filter of a name: one that every template knows, or one of the table. -/
def applyFilter (table : FilterTable) (name : String) (v : Value) (args : List Arg) :
    Outcome Value :=
  match Keyed.get? name (Filter.all ++ table) with
  | none => complain .unknownFilter
  | some f => f.call (.value v :: args)

/-- Applies the test of a name. -/
def applyTest (name : String) (v : Value) (args : List Arg) : Outcome Value :=
  match Keyed.get? name Filter.tests with
  | none => complain .unknownTest
  | some f => Value.bool <$> f.call (.value v :: args)

/-- Calls a value, which must be a function. -/
def applyValue (v : Value) (args : List Arg) : Outcome Value :=
  match v with
  | .function f => (Filter.function f).call args
  | _ => complain .invalidOperation

/-- Calls what a name stands for. Loops and blocks, which have names of their own, are not
called. -/
def applyFunction (s : Scope) (name : String) (args : List Arg) : Outcome Value :=
  if name = "loop" || name = "super" then complain .invalidOperation
  else if (s.find? name).isNone && (GlobalFunction.ofName? name).isNone then
    complain .unknownFunction
  else applyValue (s.value name) args

/-- Calls a method. A loop gives one argument after the other in turn, and tells whether arguments
have changed. -/
def applyMethod (v : Value) (name : String) (args : List Arg) : Evaluating Value :=
  match v with
  | .loop place _ _ =>
    let values := args.map Taking.ofArg
    match name with
    | "cycle" => return (values[place.index % values.length]?).getD .missing
    | "changed" => return .bool (← modifyGet (Memory.changed place.loop values))
    | _ => plainly (complain .unknownMethod)
  | v => plainly ((Filter.method v name).call args)

/-- The attribute of a value that is not undefined. -/
def attributeOf (v : Value) (name : String) : Outcome Value :=
  if v.isUndefined then complain .undefinedValue
  else .ok ((v.attribute? name).getD .missing)

/-- The item of a value that is not undefined. -/
def itemOf (v key : Value) : Outcome Value :=
  if v.isUndefined then complain .undefinedValue
  else .ok ((v.item? key).getD .missing)

/-- Whether a comparison holds. -/
def holds (c : Comparison) (a b : Value) : Outcome Bool := do
  return (← Value.operate c.op a b).isTrue != c.negated

mutual

/-- The value of an expression. -/
def eval (table : FilterTable) (s : Scope) : Expr → Evaluating Value
  | .value v => return v
  | .name word => return s.value word
  | .list items => do return .list (← evalAll table s items)
  | .map pairs => do return Value.ofPairs (← evalPairs table s pairs)
  | .attribute owner key => do plainly (attributeOf (← eval table s owner) key)
  | .item owner key => do
    let v ← eval table s owner
    let k ← eval table s key
    plainly (itemOf v k)
  | .slice owner start stop step => do
    let v ← eval table s owner
    let start ← eval table s start
    let stop ← eval table s stop
    let step ← eval table s step
    plainly (Value.slice v start stop step)
  | .unary op operand => do
    let v ← eval table s operand
    plainly (Value.operateUnary op v)
  | .binary op left right => do
    let a ← eval table s left
    let b ← eval table s right
    plainly (Value.operate op a b)
  | .chain first steps => do
    let a ← eval table s first
    return .bool (← evalChain table s a steps)
  | .both left right => do
    let a ← eval table s left
    if ← plainly (truth a) then eval table s right else return a
  | .either left right => do
    let a ← eval table s left
    if ← plainly (truth a) then return a else eval table s right
  | .choice condition whenTrue whenFalse => do
    let c ← eval table s condition
    if ← plainly (truth c) then eval table s whenTrue
    else eval table s whenFalse
  | .filter word operand args => do
    let v ← eval table s operand
    let args ← evalArgs table s args
    plainly (applyFilter table word v (arguments args))
  | .test word operand args => do
    let v ← eval table s operand
    let args ← evalArgs table s args
    plainly (applyTest word v (arguments args))
  | .call (.name word) args => do
    let args ← evalArgs table s args
    plainly (applyFunction s word (arguments args))
  | .call (.attribute owner key) args => do
    let v ← eval table s owner
    let args ← evalArgs table s args
    applyMethod v key (arguments args)
  | .call callee args => do
    let v ← eval table s callee
    let args ← evalArgs table s args
    plainly (applyValue v (arguments args))

/-- Whether all comparisons of a chain hold; what stands behind one that does not is not
evaluated. -/
def evalChain (table : FilterTable) (s : Scope) (a : Value) :
    List (Comparison × Expr) → Evaluating Bool
  | [] => return true
  | (c, e) :: rest => do
    let b ← eval table s e
    if ← plainly (holds c a b) then evalChain table s b rest else return false

/-- The values of expressions, in order. -/
def evalAll (table : FilterTable) (s : Scope) : List Expr → Evaluating (List Value)
  | [] => return []
  | e :: rest => do
    let v ← eval table s e
    return v :: (← evalAll table s rest)

/-- The values of pairs, in order. -/
def evalPairs (table : FilterTable) (s : Scope) :
    List (Expr × Expr) → Evaluating (List (Value × Value))
  | [] => return []
  | (k, e) :: rest => do
    let key ← eval table s k
    let v ← eval table s e
    return (key, v) :: (← evalPairs table s rest)

/-- The values of arguments, in order. -/
def evalArgs (table : FilterTable) (s : Scope) :
    List (Option String × Expr) → Evaluating (List (Option String × Value))
  | [] => return []
  | (k, e) :: rest => do
    let v ← eval table s e
    return (k, v) :: (← evalArgs table s rest)

end

end Expr

end AvroCodegen
