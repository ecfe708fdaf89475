import AvroCodegen.Production

set_option autoImplicit false

/-! # The command line

The arguments of the program say which definitions are to be carried out, or that only the settings
or the picture of a definition's schemas are wanted. The texts that the program answers with stand
here, too. -/

namespace AvroCodegen

/-- What the arguments ask for. -/
structure CommandLine where
  definitions : List String
  settings : Option String
  saveSettings : Option String
  picture : Option String
  output : Option String
  printSettings : Bool
  skipPostCalls : Bool
  dryRun : Bool

namespace CommandLine

/-- Nothing asked for. -/
def start : CommandLine := ⟨[], none, none, none, none, false, false, false⟩

/-- An option cut from the value that follows an equals sign. -/
def cutOption (argument : String) : List String :=
  let s := argument.toList
  let name := s.takeWhile (fun c => c != '=')
  match s with
  | '-' :: '-' :: _ =>
    if name.length < s.length then [String.ofList name, String.ofList (s.drop (name.length + 1))]
    else [argument]
  | _ => [argument]

/-- Adds what one word after another asks for. -/
def readFrom (c : CommandLine) : List String → Except String CommandLine
  | [] => .ok c
  | "--print-settings" :: rest => readFrom { c with printSettings := true } rest
  | "--skip-post-calls" :: rest => readFrom { c with skipPostCalls := true } rest
  | "--dry-run" :: rest => readFrom { c with dryRun := true } rest
  | "--settings" :: file :: rest => readFrom { c with settings := some file } rest
  | "--save-settings" :: file :: rest => readFrom { c with saveSettings := some file } rest
  | "--picture" :: file :: rest => readFrom { c with picture := some file } rest
  | "--output" :: file :: rest => readFrom { c with output := some file } rest
  | word :: rest =>
    if word.toList.head? = some '-' then .error ("unexpected argument '" ++ word ++ "'")
    else readFrom { c with definitions := c.definitions ++ [word] } rest

/-- The reading of arguments. -/
def read (arguments : List String) : Except String CommandLine :=
  readFrom start (arguments.flatMap cutOption)

/-- The settings with what the arguments say of them: a dry run calls nothing. -/
def adjust (c : CommandLine) (s : Settings) : Settings :=
  { s with skipPostCalls := s.skipPostCalls || c.skipPostCalls || c.dryRun }

/-- The paths of the definitions. -/
def definitionPaths (c : CommandLine) : List Path :=
  Definition.splitPaths c.definitions

/-! ## Which files are needed -/

/-- What a definition needs besides itself: the places of its schemas and templates. -/
def needsOf (current path : Path) (source : String) : List Path :=
  match Definition.read source with
  | .error _ => []
  | .ok d =>
    let base := Definition.baseOf current path
    d.schemaPaths base ++ d.generators.map (fun g => Path.join base g.path)

/-! ## Answers -/

/-- Where there is no definition. -/
def nothingGiven : String := "Path to generator definition file is missed"

/-- What a dry run tells of a file. -/
def dryLine (file : Path × String) : String :=
  file.1 ++ " (" ++ toString file.2.utf8ByteSize ++ " bytes)"

/-- What a dry run tells at its end. -/
def dryEnd (files : List (Path × String)) : String :=
  "✅ Dry run rendered " ++ toString files.length ++ " files"

/-- What a run tells at its end. -/
def runEnd (reports : List DefinitionReport) : String :=
  "✅ Generated " ++ toString (reports.flatMap DefinitionReport.files).length ++ " files from "
    ++ toString reports.length ++ " definition(s)"

/-- What is told when settings are saved. -/
def saved (file : Path) : String :=
  "✅ Settings saved to " ++ file

end CommandLine

end AvroCodegen
