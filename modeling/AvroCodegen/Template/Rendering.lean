import AvroCodegen.Template.Engine
import AvroCodegen.Template.Evaluation
import AvroCodegen.Template.Markup
import AvroCodegen.Template.Reader

set_option autoImplicit false

/-! # Rendering

What a template writes. Statements run one after the other on a `Page`, the text written so far and
the scope. A loop runs its body in a frame of its own, which is dropped behind it; everything else
binds names where it stands, an included template in the scope that includes it. A template whose
name says that it writes markup escapes what it prints.

Includes and loops nest to a limit: each loop counts one and each include ten. So there is a bound
on how deep includes go, and rendering always ends. A fault of the template language inside an
include is reported as a bad include; faults of the model come through as they are. -/

namespace AvroCodegen

/-- The text written so far, the names in scope, and what loops are remembered by. -/
structure Page where
  scope : Scope
  text : String
  memory : Memory

/-- Where statements run: how deep loops and includes nest, the depth that a loop tells its body,
and whether markup is written. -/
structure Place where
  depth : Nat
  loopDepth : Nat
  inMarkup : Bool
  deriving DecidableEq, Repr

/-- A step of rendering. -/
abbrev Rendering (α : Type) : Type := StateT Page (Except Fault) α

namespace Page

/-- An empty page over a context. -/
def start (context : Keyed Value) : Page := ⟨[context], "", .start⟩

/-- Writes a text. -/
def write (content : String) (p : Page) : Page :=
  { p with text := p.text ++ content }

end Page

/-- Everything that a template can refer to beside its scope. -/
structure Environment where
  filters : FilterTable
  templates : Keyed Template

namespace Rendering

/-- Fails with a problem of the template language. -/
def refuse {α : Type} (problem : TemplateProblem) : Rendering α :=
  throw (.template problem)

/-- A step of evaluation on a page. -/
def evaluating {α : Type} (step : Scope → Evaluating α) : Rendering α := do
  let p ← get
  match (step p.scope).run p.memory with
  | .ok (a, memory) => set { p with memory := memory }; return a
  | .error fault => throw fault

/-- The value of an expression. -/
def value (table : FilterTable) (e : Expr) : Rendering Value :=
  evaluating (fun s => e.eval table s)

/-- Whether an expression counts as true. -/
def truth (table : FilterTable) (e : Expr) : Rendering Bool :=
  evaluating (fun s => do
    let v ← e.eval table s
    Expr.plainly (Expr.truth v))

/-- Runs a step in a frame of its own. -/
def inFrame {α : Type} (r : Rendering α) : Rendering α := do
  modify (fun p => { p with scope := [] :: p.scope })
  let a ← r
  modify (fun p => { p with scope := p.scope.tail })
  return a

end Rendering

namespace Statement

open Rendering

/-- How deep loops and includes may nest. -/
def depthLimit : Nat := 500

/-- What an include adds to the depth. -/
def includeCost : Nat := 10

/-- The items that a list of targets is bound to. -/
def unpack? (v : Value) : Option (List Value) :=
  if v.isCounted && v.rank ≥ 5 then v.items? else none

mutual

/-- Binds a target to a value. -/
def bind (table : FilterTable) (v : Value) : Target → Rendering Unit
  | .name name => modify (fun p => { p with scope := Scope.bind name v p.scope })
  | .list targets => do
    match unpack? v with
    | none => refuse .cannotUnpack
    | some items =>
      if items.length = targets.length then bindAll table items targets
      else refuse .cannotUnpack
  | .attribute owner => do
    let _ ← value table owner
    refuse .invalidOperation

/-- Binds targets to values, one to one. -/
def bindAll (table : FilterTable) (items : List Value) : List Target → Rendering Unit
  | [] => return ()
  | t :: rest => do
    bind table (items.headD .missing) t
    bindAll table items.tail rest

end

/-- What a loop goes over. -/
def itemsOf (v : Value) : Outcome (List Value) :=
  match v with
  | .undefined false => complain .undefinedValue
  | v =>
    match v.items? with
    | some items => .ok items
    | none => complain .invalidOperation

/-- Loops nest to the limit. -/
def checkDepth (place : Place) : Rendering Unit := do
  if depthLimit < place.depth then refuse .invalidOperation

/-- The items that pass the condition of a loop, in a frame of its own. -/
def passing (table : FilterTable) (place : Place) (target : Target) (only : Expr)
    (items : List Value) : Rendering (List Value) := do
  checkDepth place
  inFrame (items.filterM (fun item => do
    bind table item target
    truth table only))

/-- Applies filters in order. -/
def filtered (table : FilterTable) (filters : List FilterCall) (v : Value) : Rendering Value :=
  filters.foldlM
    (fun v f => evaluating (fun s => do
      let args ← Expr.evalArgs table s f.args
      Expr.plainly (Expr.applyFilter table f.name v (Expr.arguments args))))
    v

/-- The names of templates that a value gives; a function gives none. -/
def choices (v : Value) : List Value :=
  match v with
  | .function _ => []
  | v => (unpack? v).getD [v]

/-- The first of some templates that exists, with its name. -/
def choose (templates : Keyed Template) : List Value → Outcome (Option (String × Template))
  | [] => .ok none
  | v :: rest =>
    match v.text? with
    | none => complain .invalidOperation
    | some name =>
      match Keyed.get? name templates with
      | some t => .ok (some (name, t))
      | none => choose templates rest

/-- A fault as it is reported from inside an include. -/
def fromInclude : Fault → Fault
  | .template _ => .template .badInclude
  | f => f

/-- Items with the item before and the item behind each. -/
def withNeighbours (previous : Value) : List Value → List (Value × Value × Value)
  | [] => []
  | v :: rest => (previous, v, rest.headD .missing) :: withNeighbours v rest

mutual

/-- Runs a statement. `visit` renders a template at a place. -/
def render (env : Environment) (visit : Place → Template → Rendering Unit) (place : Place) :
    Statement → Rendering Unit
  | .text content => modify (Page.write content)
  | .print e => do
    match ← value env.filters e with
    | .undefined false => refuse .undefinedValue
    | v => modify (Page.write (Markup.printed place.inMarkup v))
  | .branch test body otherwise => do
    if ← truth env.filters test then renderAll env visit place body
    else renderAll env visit place otherwise
  | .repeat target source only recursive body otherwise => do
    let v ← value env.filters source
    let items ← liftM (itemsOf v)
    let items ← match only with
      | none => pure items
      | some e => passing env.filters place target e items
    checkDepth place
    let size := if v.isCounted || only.isSome then some items.length else none
    let loop ← modifyGet (fun p =>
      let (loop, memory) := p.memory.newLoop
      (loop, { p with memory := memory }))
    let inner : Place :=
      ⟨place.depth + 1, if recursive then place.loopDepth + 1 else 0, place.inMarkup⟩
    inFrame ((withNeighbours .missing items).zipIdx.forM (fun ((previous, item, next), i) => do
      let here : LoopPlace := ⟨loop, i, size, place.loopDepth⟩
      modify (fun p => { p with scope := Scope.bind "loop" (.loop here previous next) p.scope })
      bind env.filters item target
      renderAll env visit inner body))
    if items.isEmpty then renderAll env visit place otherwise
  | .assign target e => do
    let v ← value env.filters e
    bind env.filters v target
  | .capture target filters body => do
    let before := (← get).text
    modify (fun p => { p with text := "" })
    renderAll env visit place body
    let content := (← get).text
    modify (fun p => { p with text := before })
    let v ← filtered env.filters filters (Markup.captured place.inMarkup content)
    bind env.filters v target
  | .include names ignoreMissing => do
    let names := choices (← value env.filters names)
    match ← liftM (choose env.templates names) with
    | some (name, t) =>
      if depthLimit < place.depth + includeCost then refuse .invalidOperation
      else
        let inner : Place := ⟨place.depth + includeCost, place.loopDepth, Markup.isNamed name⟩
        fun p => (visit inner t p).mapError fromInclude
    | none =>
      if ignoreMissing || names.isEmpty then return ()
      else refuse .templateNotFound

/-- Runs statements in order. -/
def renderAll (env : Environment) (visit : Place → Template → Rendering Unit) (place : Place) :
    List Statement → Rendering Unit
  | [] => return ()
  | s :: rest => do
    render env visit place s
    renderAll env visit place rest

end

end Statement

namespace Environment

/-- Renders a template; `levels` bounds how deep includes nest. -/
def renderAt (env : Environment) : Nat → Place → Template → Rendering Unit
  | 0, _, _ => Rendering.refuse .invalidOperation
  | levels + 1, place, t => Statement.renderAll env (renderAt env levels) place t

/-- The text of a template over a context, as markup or not. -/
def renderTemplate (env : Environment) (inMarkup : Bool) (t : Template) (context : Keyed Value) :
    Outcome String := do
  let levels := Statement.depthLimit / Statement.includeCost + 1
  return (← (env.renderAt levels ⟨1, 0, inMarkup⟩ t).run (.start context)).2.text

/-- No templates yet, and the filters of the model over the stores published so far. -/
def start (registry : Registry) : Environment := ⟨Filter.ofModel registry, []⟩

/-- Adds a template under a name, in the stead of one that has the name. -/
def add (env : Environment) (name source : String) : Outcome Environment :=
  match Template.read source with
  | .ok t => .ok { env with templates := Keyed.put name t env.templates }
  | .error problem => complain problem

/-- The text of the template of a name. -/
def render (env : Environment) (name : String) (context : Keyed Value) : Outcome String :=
  match Keyed.get? name env.templates with
  | some t => env.renderTemplate (Markup.isNamed name) t context
  | none => complain .templateNotFound

instance : TemplateEngine Environment where
  start filters := ⟨filters, []⟩
  add := add
  render := render

/-- The text of a template that has no name. -/
def renderText (env : Environment) (source : String) (context : Keyed Value) : Outcome String :=
  match Template.read source with
  | .ok t => env.renderTemplate false t context
  | .error problem => complain problem

end Environment

end AvroCodegen
