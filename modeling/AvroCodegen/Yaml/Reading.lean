import AvroCodegen.Yaml.Basic

set_option autoImplicit false

/-! # Reading YAML nodes

What a node is taken for where one kind is wanted: any scalar is a text, and an empty scalar without
quotes is an empty list and an empty map, too. A reading knows the anchors of the document, so it
reads a reference as the node that it leads to. -/

namespace AvroCodegen

namespace Yaml

/-- A reading of a node in a document, which may fail. -/
abbrev Reading : Type → Type := ReaderT Anchors Option

namespace Reading

/-- The reading that fails. -/
def fail {α : Type} : Reading α := fun _ => none

end Reading

/-- The node itself, or the one that it leads to. -/
def follow : Yaml → Reading Yaml
  | .reference anchor => fun anchors => anchors.node? anchor
  | node => pure node

/-- The node as a text. -/
def text (node : Yaml) : Reading String := do
  match ← node.follow with
  | .scalar text _ _ => return text
  | _ => Reading.fail

/-- The node as a list. -/
def items (node : Yaml) : Reading (List Yaml) := do
  match ← node.follow with
  | .list items => return items
  | node => if node.isEmpty then return [] else Reading.fail

/-- The node as a list of texts. -/
def texts (node : Yaml) : Reading (List String) := do
  (← node.items).mapM text

/-- The node as a map whose keys are texts. -/
def pairs (node : Yaml) : Reading (List (String × Yaml)) := do
  match ← node.follow with
  | .map pairs => pairs.mapM (fun (key, value) => do return (← key.text, value))
  | node => if node.isEmpty then return [] else Reading.fail

/-! ## Nodes that may be missing -/

/-- The tag of nodes that say that there is no value. -/
def nullKind : String := "tag:yaml.org,2002:null"

/-- The words that say that there is no value. -/
def nullWords : List String := ["null", "Null", "NULL", "~"]

/-- Whether a node says that there is no value: it is empty, or a word without quotes says so. A tag
makes every node a value, but for the tag of null, which allows only the words. -/
def isNull : Yaml → Reading Bool
  | .scalar text true none => return text.isEmpty || nullWords.contains text
  | .scalar text true (some kind) =>
    if kind != nullKind then return false
    else if nullWords.contains text then return true
    else Reading.fail
  | _ => return false

/-- The node as something that may be missing. -/
def orNull {α : Type} (read : Yaml → Reading α) (node : Yaml) : Reading (Option α) := do
  let node ← node.follow
  if ← node.isNull then return none
  return some (← read node)

/-- The value of a key, which may have several spellings, among pairs; the pairs may hold it only
once, and need not hold it. -/
def member (spellings : List String) (pairs : List (String × Yaml)) : Reading (Option Yaml) :=
  match pairs.filter (fun p => spellings.contains p.1) with
  | [] => return none
  | [p] => return some p.2
  | _ => Reading.fail

end Yaml

end AvroCodegen
