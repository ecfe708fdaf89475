import AvroCodegen.Generator.Role
import AvroCodegen.Path
import AvroCodegen.Template.Set

set_option autoImplicit false

/-! # Generators

A generator is a configuration with the templates it names. It renders the entities that its filters
admit and for whose role it has a template; the templates of its naming decide under which names
and into which file. -/

namespace AvroCodegen

/-- The templates of names and files; what is not given is taken from the schema. -/
structure NamingTemplates where
  space : Option String
  name : Option String
  fullname : Option String
  folder : Option String
  filename : Option String
  deriving DecidableEq, Repr

/-- No templates given. -/
def NamingTemplates.none : NamingTemplates :=
  ⟨Option.none, Option.none, Option.none, Option.none, Option.none⟩

/-- Which schemas are rendered, by fullname. -/
structure Filters where
  allow : Option (List String)
  deny : Option (List String)
  deriving DecidableEq, Repr

/-- Whether a fullname passes: it is on the list of the allowed, unless that list is absent or
empty, and not on the list of the denied. -/
def Filters.admits (f : Filters) (fullname : String) : Bool :=
  let allowed := match f.allow with
    | some (a :: rest) => (a :: rest).contains fullname
    | _ => true
  let denied := match f.deny with
    | some names => names.contains fullname
    | none => false
  allowed && !denied

/-- The configuration of a generator. -/
structure GeneratorConfig where
  path : String
  givenName : Option String
  naming : NamingTemplates
  overrides : Option String
  filters : Option Filters
  postCall : Option String
  deriving DecidableEq, Repr

/-- The name of a generator: the given one, or the path of its templates. -/
def GeneratorConfig.name (c : GeneratorConfig) : String :=
  c.givenName.getD c.path

/-- A generator. -/
structure Generator where
  config : GeneratorConfig
  templates : TemplateSet

namespace Generator

/-- The name of a generator. -/
def name (g : Generator) : String :=
  g.config.name

/-- The roles that the generator has templates for. -/
def roles (g : Generator) : List Role :=
  Role.all.filter (fun r => g.templates.has r.name)

/-- The generator of a configuration, with the templates that its path names. -/
def load (files : FileTree) (config : GeneratorConfig) (base : Path) (extension : String) :
    Outcome Generator := do
  return ⟨config, ← TemplateSet.load files config.path base extension⟩

end Generator

end AvroCodegen
