import AvroCodegen.Command
import AvroCodegen.Entity.Build
import AvroCodegen.Generator.Basic
import AvroCodegen.Generator.Output

set_option autoImplicit false

/-! # A run of a generator

A generator goes over the scope of work three times. First it decides for each node whether it is
rendered, and with which role, and what it is named; from the names it builds its store; then it
renders the nodes chosen, one file each, in scope order. Only when all files are written is the
store published, and only then is the command after the run called.

A node that is not rendered is named all the same, for others may mention it: by the generator that
this one overrides, if there is one, and else by the templates of naming. The stores that templates
can look into are those published before the run.

What compiles and renders templates, where files go and what carries commands out are parameters: a
`TemplateEngine`, a `Sink` and a `Runner`. A run knows of them only what they answer. -/

namespace AvroCodegen

/-- What the runs of generators share and do not change. The engine `E` renders their templates, and
they act on an output `σ`; the program has its own of both. -/
structure RunContext (E : Type := Environment) (σ : Type := Output) where
  catalog : Catalog
  graph : Graph
  scope : List Nat
  values : Keyed Value
  base : Path
  runner : Runner σ
  sink : Sink σ
  skipPostCalls : Bool

/-- What the runs of generators change. -/
structure Workshop (σ : Type := Output) where
  registry : Registry
  output : σ

/-- A step of a run: it answers or fails, and either way leaves what was done. -/
abbrev Running (σ α : Type) : Type := Acting (Workshop σ) α

/-- A step on the output alone. -/
def Running.onOutput {σ α : Type} (step : Acting σ α) : Running σ α :=
  ExceptT.mk fun w =>
    let (answer, output) := step.run w.output
    (answer, { w with output := output })

/-- Why a node is not rendered. -/
inductive SkipReason where
  | filtered
  | noTemplate
  deriving DecidableEq, Repr

/-- The wording of a reason. -/
def SkipReason.message : SkipReason → String
  | .filtered => "by filter"
  | .noTemplate => "no proper template"

/-- What a run did. -/
structure RunReport where
  name : String
  entities : Nat
  files : List Path
  skipped : List (String × SkipReason)
  postCall : Option String

/-- A node with the decision on it. -/
structure Planned where
  node : Nat
  type : NamedType
  role : Except SkipReason Role
  naming : Naming

namespace Generator

variable {E σ : Type} [TemplateEngine E]

/-! ## Templates of a run -/

/-- The inline templates by their names. -/
def inlineTemplates (c : GeneratorConfig) : List (String × String) :=
  [("@naming/namespace", c.naming.space), ("@naming/name", c.naming.name),
   ("@naming/fullname", c.naming.fullname), ("@naming/folder", c.naming.folder),
   ("@naming/filename", c.naming.filename), ("@post-call", c.postCall)].filterMap
    (fun t => t.2.map (fun source => (t.1, source)))

/-- The templates of a generator, with the filters of the model over the stores published so far. -/
def environment (g : Generator) (registry : Registry) : Outcome E := do
  let env ← g.templates.addTo (TemplateEngine.start (Filter.ofModel registry))
  (inlineTemplates g.config).foldlM (fun env t => TemplateEngine.add env t.1 t.2) env

/-- Some values with others over them. -/
def extend (values : Keyed Value) (upper : List (String × Value)) : Keyed Value :=
  upper.foldl (fun m p => Keyed.put p.1 p.2 m) values

/-- The text of an inline template, trimmed; a given text where the template is not declared. -/
def inline (env : E) (declared : Option String) (key : String) (context : Keyed Value)
    (otherwise : String) : Outcome String :=
  match declared with
  | none => .ok otherwise
  | some _ => do return Text.trimString (← TemplateEngine.render env key context)

/-! ## Deciding -/

/-- What the graph knows of a node. -/
def factsOf (graph : Graph) (i : Nat) (t : NamedType) : RoleFacts :=
  ⟨t.kind = .enum, graph.isRoot i, graph.isOwner i, graph.isDependent i⟩

/-- The role that a node is rendered with, or why it is not. -/
def eligibility (g : Generator) (graph : Graph) (i : Nat) (t : NamedType) :
    Except SkipReason Role :=
  let admitted := match g.config.filters with
    | some f => f.admits t.fullname
    | none => true
  if !admitted then .error .filtered
  else match Role.choose (factsOf graph i t) g.roles with
    | some r => .ok r
    | none => .error .noTemplate

/-- The namespace and name that the own templates of a generator give. -/
def ownNames (g : Generator) (env : E) (context : Keyed Value) (t : NamedType) :
    Outcome (String × String) := do
  let space ← inline env g.config.naming.space "@naming/namespace" context t.spaceText
  let name ← inline env g.config.naming.name "@naming/name" context t.name
  return (space, name)

/-- The namespace and name of a node: a node that is not rendered takes them from the generator that
is overridden. -/
def namesOf (g : Generator) (env : E) (registry : Registry) (context : Keyed Value)
    (t : NamedType) (rendered : Bool) : Outcome (String × String) :=
  match g.config.overrides with
  | some target =>
    if rendered then ownNames g env context t
    else do
      let (store, id) ← registry.lookup target t.fullname
      match store.get? id with
      | some e => return (e.naming.space, e.naming.name)
      | none => throw (.noSuchEntity id)
  | none => ownNames g env context t

/-- A namespace and a name joined by a point. -/
def pointed (space name : String) : String :=
  if space.isEmpty then name else space ++ "." ++ name

/-- All names of a node. -/
def namingOf (g : Generator) (env : E) (registry : Registry) (values : Keyed Value)
    (t : NamedType) (rendered : Bool) : Outcome Naming := do
  let context := extend values [("schema", .view (.schema t))]
  let (space, name) ← namesOf g env registry context t rendered
  let fullname ← inline env g.config.naming.fullname "@naming/fullname"
    (extend context [("namespace", .text space), ("name", .text name)]) (pointed space name)
  return ⟨space, name, fullname⟩

/-- The nodes of the scope that are records or enums. -/
def nodesOf (graph : Graph) (scope : List Nat) : List (Nat × NamedType) :=
  scope.filterMap fun i =>
    match graph.type? i with
    | some t => if t.kind = .fixed then none else some (i, t)
    | none => none

/-- Decides on every node of the scope. -/
def plan (g : Generator) (ctx : RunContext E σ) (env : E) (registry : Registry) :
    Outcome (List Planned) :=
  (nodesOf ctx.graph ctx.scope).mapM fun (i, t) => do
    let role := g.eligibility ctx.graph i t
    let naming ← g.namingOf env registry ctx.values t role.toOption.isSome
    return ⟨i, t, role, naming⟩

/-- The nodes that are not rendered. -/
def skippedIn (planned : List Planned) : List (String × SkipReason) :=
  planned.filterMap fun p =>
    match p.role with
    | .ok _ => none
    | .error reason => some (p.type.fullname, reason)

/-- The nodes that are rendered, with their roles. -/
def chosenIn (planned : List Planned) : List (NamedType × Role) :=
  planned.filterMap fun p =>
    match p.role with
    | .ok role => some (p.type, role)
    | .error _ => none

/-! ## Rendering -/

/-- The file of an entity. -/
def pathOf (g : Generator) (ctx : RunContext E σ) (env : E) (store : Store) (id : Nat)
    (e : Entity) : Outcome Path := do
  let n := e.naming
  let context := extend ctx.values
    [("schema", .view (.schema e.schema)), ("namespace", .text n.space), ("name", .text n.name),
     ("fullname", .text n.fullname), ("entity", .view (.entity store id))]
  let folder ← inline env g.config.naming.folder "@naming/folder" context n.space
  let filename ← inline env g.config.naming.filename "@naming/filename" context n.name
  return Path.join (Path.join ctx.base folder) filename

/-- What the template of a role is rendered over. -/
def contentContext (g : Generator) (ctx : RunContext E σ) (store : Store) (id : Nat) (e : Entity) :
    Keyed Value :=
  let n := e.naming
  let symbols := match e with
    | .enum e => [("symbols", Value.ofTexts e.symbols)]
    | .record _ => []
  extend ctx.values
    ([("namespace", .text n.space), ("name", .text n.name), ("fullname", .text n.fullname),
      ("entity", .view (.entity store id)), ("generator", .text g.name)] ++ symbols)

/-- The file of a type and what it holds. -/
def fileOf (g : Generator) (ctx : RunContext E σ) (env : E) (store : Store) (t : NamedType)
    (role : Role) : Outcome (Path × String) :=
  match store.find? t.fullname with
  | none => .error (.relation t.fullname (.notBuilt g.name))
  | some id =>
    match store.get? id with
    | none => .error (.noSuchEntity id)
    | some e => do
      let path ← g.pathOf ctx env store id e
      let content ← TemplateEngine.render env role.name (g.contentContext ctx store id e)
      return (path, content)

/-- Renders a type and writes its file. -/
def renderType (g : Generator) (ctx : RunContext E σ) (env : E) (store : Store)
    (t : NamedType) (role : Role) : Running σ Path := do
  let (path, content) ← liftM (g.fileOf ctx env store t role)
  Running.onOutput (ctx.sink.write path content)
  return path

/-- Renders types in order. -/
def renderTypes (g : Generator) (ctx : RunContext E σ) (env : E) (store : Store) :
    List (NamedType × Role) → Running σ (List Path)
  | [] => return []
  | (t, role) :: rest => do
    let path ← g.renderType ctx env store t role
    return path :: (← renderTypes g ctx env store rest)

/-! ## After the files -/

/-- Publishes the store of a run. -/
def publish (g : Generator) (store : Store) : Running σ Unit := do
  let w ← get
  let registry ← liftM (w.registry.publish g.name store)
  set { w with registry := registry }

/-- The command of a run. -/
def commandOf (g : Generator) (ctx : RunContext E σ) (env : E) (files : List Path) :
    Outcome String := do
  let context := extend ctx.values [("files", Value.ofTexts files), ("generator", .text g.name)]
  return Command.resolve (← inline env g.config.postCall "@post-call" context "") ctx.base

/-- Calls the command of a run, unless calls are to be skipped. -/
def callAfter (g : Generator) (ctx : RunContext E σ) (env : E) (files : List Path) :
    Running σ (Option String) := do
  if g.config.postCall.isNone then return none
  else
    let command ← liftM (g.commandOf ctx env files)
    if ctx.skipPostCalls then return some command
    else
      let result ← Running.onOutput (ctx.runner.run command ctx.base)
      match Command.problem? result with
      | some problem => throw (.postCall command problem)
      | none => return some command

/-- Runs a generator. -/
def run (g : Generator) (ctx : RunContext E σ) : Running σ RunReport := do
  let registry := (← get).registry
  if let some target := g.config.overrides then
    let _ ← liftM (registry.store target)
  let env : E ← liftM (g.environment registry)
  let planned ← liftM (g.plan ctx env registry)
  let store ← liftM (Store.build g.name ctx.graph ctx.catalog
    (planned.map (fun p => (p.node, p.naming))))
  let files ← g.renderTypes ctx env store (chosenIn planned)
  g.publish store
  let command ← g.callAfter ctx env files
  return ⟨g.name, store.size, files, skippedIn planned, command⟩

end Generator

end AvroCodegen
