import AvroCodegen.Definition
import AvroCodegen.Yaml.Document
import AvroCodegen.Yaml.Reading

set_option autoImplicit false

/-! # Reading definitions

A definition is written as a YAML map. Each part of it reads the keys that it knows and passes over
all others; a key that it knows may not come twice, under whichever spelling. Keys may be missing,
except the path of a generator.

A text that is no definition is a fault without details; one that is a definition is then
checked. -/

namespace AvroCodegen

namespace Definition

/-- A list that may be missing and is then empty. -/
def listAt (key : String) (pairs : List (String × Yaml)) : Yaml.Reading (List Yaml) := do
  match ← Yaml.member [key] pairs with
  | none => return []
  | some node => node.items

/-- Something that may be missing or null, under several spellings. -/
def optionalAt {α : Type} (read : Yaml → Yaml.Reading α) (spellings : List String)
    (pairs : List (String × Yaml)) : Yaml.Reading (Option α) := do
  match ← Yaml.member spellings pairs with
  | none => return none
  | some node => node.orNull read

/-- A text that may be missing or null. -/
def textAt (key : String) (pairs : List (String × Yaml)) : Yaml.Reading (Option String) :=
  optionalAt Yaml.text [key] pairs

/-- The templates of names and files. -/
def namingOf (node : Yaml) : Yaml.Reading NamingTemplates := do
  let pairs ← node.pairs
  return ⟨← textAt "namespace" pairs, ← textAt "name" pairs, ← textAt "fullname" pairs,
    ← textAt "folder" pairs, ← textAt "filename" pairs⟩

/-- The filters, each list under either of two names. -/
def filtersOf (node : Yaml) : Yaml.Reading Filters := do
  let pairs ← node.pairs
  return ⟨← optionalAt Yaml.texts ["allow", "white"] pairs,
    ← optionalAt Yaml.texts ["deny", "black"] pairs⟩

/-- One generator. -/
def generatorOf (node : Yaml) : Yaml.Reading GeneratorConfig := do
  let pairs ← node.pairs
  let path ← match ← Yaml.member ["path"] pairs with
    | none => Yaml.Reading.fail
    | some node => node.text
  let naming ← match ← Yaml.member ["templates"] pairs with
    | none => pure NamingTemplates.none
    | some node => namingOf node
  return ⟨path, ← textAt "name" pairs, naming, ← textAt "overrides" pairs,
    ← optionalAt filtersOf ["filters"] pairs, ← textAt "postCall" pairs⟩

/-- The shared values; of equal keys the last value counts, in the place of the first. -/
def valuesOf (node : Yaml) : Yaml.Reading (Keyed String) := do
  let pairs ← node.pairs
  pairs.foldlM (fun m (key, value) => do return Keyed.put key (← value.text) m) []

/-- The definition that a node is, not yet checked. -/
def ofYaml (node : Yaml) : Yaml.Reading Definition := do
  let pairs ← node.pairs
  let schemas ← (← listAt "schemas" pairs).mapM Yaml.text
  let values ← match ← Yaml.member ["values"] pairs with
    | none => pure []
    | some node => valuesOf node
  let generators ← (← listAt "generators" pairs).mapM generatorOf
  return ⟨schemas, values, generators⟩

/-- The definition in a text, not yet checked. -/
def ofText? (source : String) : Option Definition := do
  let document ← Yaml.Document.read? source
  ofYaml document.root document.anchors

/-- Reads and checks a definition. -/
def read (source : String) : Outcome Definition :=
  match ofText? source with
  | none => .error .definition
  | some d => do
    d.check
    return d

end Definition

end AvroCodegen
