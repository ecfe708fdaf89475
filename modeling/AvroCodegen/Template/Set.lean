import AvroCodegen.Template.Builtin
import AvroCodegen.Template.Rendering

set_option autoImplicit false

/-! # Template sets

The templates of a generator, by name in the order of the names. A set is a directory of files with
the extension of templates, each named by its path inside the directory without the extension; or,
where there is no such directory, a built-in set. -/

namespace AvroCodegen

/-- The templates of a generator and where they came from. -/
structure TemplateSet where
  origin : String
  templates : Keyed String

namespace TemplateSet

/-- The set of some texts with names; of equal names the last text counts. -/
def ofSources (origin : String) (sources : List (String × String)) : TemplateSet :=
  ⟨origin, sources.foldl (fun m s => Keyed.insert s.1 s.2 m) []⟩

/-- The names of the templates. -/
def names (s : TemplateSet) : List String :=
  Keyed.keys s.templates

/-- Whether there is a template of the name. -/
def has (s : TemplateSet) (name : String) : Bool :=
  Keyed.has name s.templates

/-! ## Built-in sets -/

/-- The names of the built-in sets. -/
def builtinNames : List String :=
  Builtin.sets.map Prod.fst

/-- The built-in set of a name, which may be spelled as any path of that one step. -/
def builtin? (name : String) : Option TemplateSet :=
  (Builtin.sets.find? (fun s => Path.same s.1 name)).map
    (fun s => ofSources ("builtin:" ++ name) s.2)

/-! ## Sets of files -/

/-- The names of the files below a directory that have an extension, without it. -/
def namesBelow (files : FileTree) (directory : Path) (extension : String) : List String :=
  (files.filesBelow directory).filterMap fun names =>
    match Path.splitName (names.getLastD "") with
    | (stem, some found) =>
      if found = extension then some (String.intercalate "/" (names.dropLast ++ [stem])) else none
    | (_, none) => none

/-- The templates of a directory. -/
def ofDirectory (files : FileTree) (directory : Path) (extension : String) :
    Outcome TemplateSet := do
  let sources ← (namesBelow files directory extension).mapM fun name => do
    let file := Path.join directory (name ++ "." ++ extension)
    let text ← (files.readText file).mapError (.file file)
    return (name, text)
  return ofSources directory sources

/-- The set that a path names: a directory below the base, or a built-in set. -/
def load (files : FileTree) (path : String) (base : Path) (extension : String) :
    Outcome TemplateSet :=
  let directory := Path.join base path
  if files.isDirectory directory then ofDirectory files directory extension
  else match builtin? path with
    | some s => .ok s
    | none => .error (.setup (.noTemplateSet path directory builtinNames))

/-! ## Sets in an engine -/

/-- Adds the templates of a set to an engine in the order of their names. -/
def addTo {E : Type} [TemplateEngine E] (s : TemplateSet) (env : E) : Outcome E :=
  s.templates.foldlM
    (fun env t => (TemplateEngine.add env t.1 t.2).mapError
      (fun _ => .setup (.brokenTemplate t.1 s.origin)))
    env

end TemplateSet

/-- Adds the templates of a set in the order of their names. -/
def Environment.addSet (env : Environment) (s : TemplateSet) : Outcome Environment :=
  s.addTo env

end AvroCodegen
