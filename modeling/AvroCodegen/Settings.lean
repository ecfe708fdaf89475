import AvroCodegen.Fault
import AvroCodegen.Toml.Reader

set_option autoImplicit false

/-! # Settings

What holds for all runs. Settings are kept in a TOML document; those that it does not give have
their defaults, and what else it holds does not count. The names of settings may be written in any
case. A quoted key may be a path that leads into a setting; then the setting is no longer a single
value, and cannot be read. -/

namespace AvroCodegen

/-- The settings of the program. -/
structure Settings where
  log : String
  skipPostCalls : Bool
  templateExtension : String
  deriving DecidableEq, Repr

namespace Settings

/-- The settings where none are given. -/
def standard : Settings := ⟨"info", false, "jinja"⟩

/-! ## Paths in keys -/

/-- A character of a name in a path. -/
def isPathChar (c : Char) : Bool :=
  c.isAlphanum || c = ' ' || c = '_' || c = '-'

/-- A step of a path at the head of a text: a name behind a point, or a place in brackets. -/
def step? (s : List Char) : Option (List Char) :=
  match s with
  | '.' :: rest =>
    if (rest.takeWhile isPathChar).isEmpty then none else some (rest.dropWhile isPathChar)
  | '[' :: rest =>
    let place := rest.dropWhile Char.isWhitespace
    let place := if place.head? = some '-' then place.tail else place
    if (place.takeWhile Char.isDigit).isEmpty then none
    else match (place.dropWhile Char.isDigit).dropWhile Char.isWhitespace with
      | ']' :: rest => some rest
      | _ => none
  | _ => none

/-- Whether a text is a row of steps. The number bounds the steps. -/
def isSteps : Nat → List Char → Bool
  | _, [] => true
  | 0, _ => false
  | n + 1, s => (step? s).any (isSteps n)

/-- Whether a key is a path that leads into the setting of a name. -/
def leadsInto (name : String) (key : String) : Bool :=
  let s := key.toList
  let steps := s.dropWhile isPathChar
  Text.lower (String.ofList (s.takeWhile isPathChar)) = name
    && !steps.isEmpty && isSteps steps.length steps

/-! ## Reading -/

/-- A setting among the entries of a document, in a reading of its own, or its default. -/
def setting {α : Type} (read : Toml → Option α) (name : String) (otherwise : α)
    (entries : Keyed Toml) : Option α :=
  if entries.any (fun e => leadsInto name e.1) then none
  else match entries.find? (fun e => Text.lower e.1 = name) with
    | none => some otherwise
    | some e => read e.2

/-- The settings of the entries of a document. -/
def ofEntries? (entries : Keyed Toml) : Option Settings := do
  return ⟨← setting Toml.asText? "log" standard.log entries,
    ← setting Toml.asFlag? "skip_post_calls" standard.skipPostCalls entries,
    ← setting Toml.asText? "template_extension" standard.templateExtension entries⟩

/-- Reads settings. -/
def read (source : String) : Outcome Settings :=
  match (Toml.read? source).bind ofEntries? with
  | some s => .ok s
  | none => .error .settings

/-- Reads settings from a file. -/
def load (files : FileTree) (path : Path) : Outcome Settings :=
  match files.readText path with
  | .ok source => read source
  | .error _ => .error .settings

/-! ## Writing -/

/-- The settings as a document. -/
def toml (s : Settings) : String :=
  "log = " ++ Toml.written s.log
    ++ "\nskip_post_calls = " ++ (if s.skipPostCalls then "true" else "false")
    ++ "\ntemplate_extension = " ++ Toml.written s.templateExtension ++ "\n"

end Settings

end AvroCodegen
