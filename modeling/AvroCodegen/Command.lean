import AvroCodegen.Fault
import AvroCodegen.Text.Blank

set_option autoImplicit false

/-! # Commands

After its files are written a generator may call a command. The command is a text; its words are
what stands between white space, without any quoting. A program given by a relative path of several
steps is looked for below the directory of the run, and every other program is left to the search
path.

A `Runner` carries commands out, and what a command does to files and all else is up to it. A
`CommandRunner` only answers. `CommandRunner.basic` knows a few programs that print or answer;
everything else does not exist for it. -/

namespace AvroCodegen

/-- What a command left behind; no status when a signal ended it. -/
structure CommandResult where
  stdout : String
  stderr : String
  status : Option Int
  deriving DecidableEq, Repr

/-- Whether the command went well. -/
def CommandResult.succeeded (r : CommandResult) : Bool :=
  r.status = some 0

/-- What carries out a command in a directory. A command may change whatever there is. -/
structure Runner (σ : Type) where
  run : String → Path → Acting σ CommandResult

/-- What answers a command in a directory and touches nothing. -/
structure CommandRunner where
  run : String → Path → Outcome CommandResult

namespace Command

/-- The words of a command. -/
def words (command : String) : List String :=
  (Text.words command.toList).map String.ofList

/-- Whether a program is given by a relative path of several steps. -/
def isRelative (program : List Char) : Bool :=
  program.head? ≠ some '/' && program.contains '/'

/-- Trims a command and puts the directory before a program that is given by a relative path. -/
def resolve (command : String) (base : Path) : String :=
  let trimmed := Text.trim command.toList
  if isRelative ((Text.words trimmed).headD []) then base ++ "/" ++ String.ofList trimmed
  else String.ofList trimmed

/-- The failure that a result means, if it means one. -/
def problem? (r : CommandResult) : Option CommandProblem :=
  match r.status with
  | none => some .killed
  | some 0 => none
  | some code => some (.exitStatus code (Text.trimEndString r.stderr))

end Command

namespace CommandRunner

/-- The programs that the basic runner knows. -/
def basicProgram (program : String) (args : List String) (directory : Path) :
    Option CommandResult :=
  match program with
  | "echo" =>
    match args with
    | "-n" :: args => some ⟨String.intercalate " " args, "", some 0⟩
    | args => some ⟨String.intercalate " " args ++ "\n", "", some 0⟩
  | "true" => some ⟨"", "", some 0⟩
  | "false" => some ⟨"", "", some 1⟩
  | "pwd" => some ⟨directory ++ "\n", "", some 0⟩
  | _ => none

/-- Runs the known programs and finds no other. -/
def basic : CommandRunner where
  run command directory :=
    match Command.words command with
    | [] => .error (.postCall command .empty)
    | program :: args =>
      match basicProgram program args directory with
      | some result => .ok result
      | none => .error (.postCall command (.notStarted FileProblem.notFound.message))

end CommandRunner

end AvroCodegen
