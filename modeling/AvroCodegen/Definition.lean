import AvroCodegen.Generator.Basic

set_option autoImplicit false

/-! # Definitions

The definition of a run: where the schemas are, shared values, and generators in the order of their
running. Paths in it are relative to the directory it stands in. The names of its generators differ,
and a generator takes over names only from one that runs before it; `Definition.check` says so. -/

namespace AvroCodegen

/-- What a run is to do. -/
structure Definition where
  schemas : List Path
  values : Keyed String
  generators : List GeneratorConfig

namespace Definition

/-- Checks generators given the names of those before them, in order. -/
def checkFrom (seen : List String) : List GeneratorConfig → Outcome Unit
  | [] => .ok ()
  | g :: rest =>
    match g.overrides.filter (fun target => !seen.contains target) with
    | some target => .error (.unknownGenerator target seen)
    | none =>
      if seen.contains g.name then .error (.setup (.nameTwice g.name))
      else checkFrom (seen ++ [g.name]) rest

/-- The names of the generators differ, and each takes over names from an earlier one only. -/
def check (d : Definition) : Outcome Unit :=
  checkFrom [] d.generators

/-- The directory of a definition, given the directory that relative paths start from. -/
def baseOf (current definition : Path) : Path :=
  (Path.parent? (Path.join current definition)).getD "/"

/-- The places of the schemas. -/
def schemaPaths (d : Definition) (base : Path) : List Path :=
  d.schemas.map (Path.join base)

/-- A text cut at every comma. -/
def commaPieces (s : List Char) : List (List Char) :=
  s.foldr
    (fun c pieces =>
      match pieces with
      | [] => [[c]]
      | p :: ps => if c = ',' then [] :: p :: ps else (c :: p) :: ps)
    [[]]

/-- The paths of definitions in the arguments of a command: each argument may hold several, with
commas between; white space around a path and empty paths do not count. -/
def splitPaths (arguments : List String) : List Path :=
  ((arguments.flatMap (fun a => commaPieces a.toList)).map
    (fun p => String.ofList (Text.trim p))).filter (fun p => !p.isEmpty)

/-- Evaluates shared values in order; each sees the ones before it and the base path. -/
def evaluate (values : Keyed String) (base : Path) : Outcome (Keyed Value) :=
  values.foldlM
    (fun context v => do
      let text ← (Environment.start Registry.empty).renderText v.2 context
      return Keyed.put v.1 (.text text) context)
    [("basePath", .text base)]

end Definition

end AvroCodegen
