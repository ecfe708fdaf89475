import AvroCodegen.Definition.Reader
import AvroCodegen.Generator.Run
import AvroCodegen.Graph.Picture
import AvroCodegen.Schema.Files
import AvroCodegen.Settings

set_option autoImplicit false

/-! # Production

A production carries out definitions, one after the other. Everything that a definition needs is
read and checked before its first generator runs: its schemas and their graph, the key rule, the
shared values, and the templates of all generators. Its generators then run in order over a registry
of their own; the first failure of any kind ends the production, and what was written until then
stays. -/

namespace AvroCodegen

/-- The catalog and graph of a definition's schemas. -/
structure LoadedDefinition where
  definition : Definition
  base : Path
  schemas : LoadedCatalog
  graph : Graph

namespace LoadedDefinition

/-- Reads a definition and what it says of schemas. -/
def load (files : FileTree) (current path : Path) : Outcome LoadedDefinition := do
  let source ← (files.readText path).mapError (.file path)
  let definition ← Definition.read source
  let base := Definition.baseOf current path
  let schemas ← SchemaFiles.load files (definition.schemaPaths base)
  let graph ← Graph.ofCatalog schemas.catalog
  return ⟨definition, base, schemas, graph⟩

/-- The picture of the graph. -/
def picture (d : LoadedDefinition) : String :=
  d.graph.picture

end LoadedDefinition

/-- How definitions are carried out. -/
structure Production where
  settings : Settings
  sink : Sink Output
  runner : Runner Output
  current : Path

/-- What a definition's run did. -/
structure DefinitionReport where
  definition : Path
  base : Path
  digest : String
  roots : List String
  scope : List String
  generators : List RunReport

/-- Every file written, generator by generator. -/
def DefinitionReport.files (r : DefinitionReport) : List Path :=
  r.generators.flatMap RunReport.files

/-- A step of a production: it answers or fails, and either way leaves what was written. -/
abbrev Producing (α : Type) : Type := Acting Output α

namespace Production

/-- What the generators of a definition share, and the generators. -/
def prepare (p : Production) (files : FileTree) (d : LoadedDefinition) :
    Outcome (RunContext × List Generator) := do
  d.graph.checkKeys
  let values ← Definition.evaluate d.definition.values d.base
  let generators ← d.definition.generators.mapM fun c =>
    Generator.load files c d.base p.settings.templateExtension
  return (⟨d.schemas.catalog, d.graph, d.graph.scope, values, d.base, p.runner, p.sink,
    p.settings.skipPostCalls⟩, generators)

/-- Runs generators in order. -/
def runGenerators {E σ : Type} [TemplateEngine E] (ctx : RunContext E σ) :
    List Generator → Running σ (List RunReport)
  | [] => return []
  | g :: rest => do
    let report ← g.run ctx
    return report :: (← runGenerators ctx rest)

/-- Runs generators in order over a registry of their own. -/
def produce (ctx : RunContext) (generators : List Generator) : Producing (List RunReport) :=
  ExceptT.mk fun output =>
    let (answer, w) := (runGenerators ctx generators).run ⟨Registry.empty, output⟩
    (answer, w.output)

/-- Carries out a definition. -/
def run (p : Production) (definition : Path) : Producing DefinitionReport := do
  let files := (← get).disk
  let d ← liftM (LoadedDefinition.load files p.current definition)
  let (ctx, generators) ← liftM (p.prepare files d)
  let reports ← produce ctx generators
  return ⟨definition, d.base, d.schemas.digest, d.graph.fullnames d.graph.roots,
    d.graph.fullnames ctx.scope, reports⟩

/-- Carries out definitions in order. -/
def runAll (p : Production) : List Path → Producing (List DefinitionReport)
  | [] => return []
  | definition :: rest => do
    let report ← p.run definition
    return report :: (← p.runAll rest)

end Production

end AvroCodegen
