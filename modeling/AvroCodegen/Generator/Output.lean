import AvroCodegen.Command

set_option autoImplicit false

/-! # Output

Where the files of a run go is a parameter: a `Sink` makes directories and writes files in whatever it
has, and may fail at that. Two sinks act on an `Output`. `Sink.memory` keeps files in memory, where each
place has one file with the spelling under which it first came and the content that came last;
`Sink.disk` writes to a tree of files. A `CommandRunner` leaves an output alone but for a note that it
was called. -/

namespace AvroCodegen

/-- Where files go. -/
structure Sink (σ : Type) where
  /-- Makes a directory, if it is not there. -/
  makeDirectory : Path → Acting σ Unit
  /-- Writes a file, for which there should be a directory. -/
  writeFile : Path → String → Acting σ Unit

/-- Writes a file and before that its directory. What is made of the directory stays. -/
def Sink.write {σ : Type} (s : Sink σ) (path : Path) (content : String) : Acting σ Unit :=
  match Path.parent? path with
  | none => s.writeFile path content
  | some directory => do
    s.makeDirectory directory
    s.writeFile path content

/-- The disk, the files in memory in the order of their places, and the commands with the
directories they were called in. -/
structure Output where
  disk : FileTree
  memory : List (Path × String)
  calls : List (String × Path)

namespace Output

/-- Nothing written yet, over a disk. -/
def start (disk : FileTree) : Output := ⟨disk, [], []⟩

/-- Puts a file among others, which are in the order of their places. -/
def place (path : Path) (content : String) : List (Path × String) → List (Path × String)
  | [] => [(path, content)]
  | (p, c) :: rest =>
    if Path.same p path then (p, content) :: rest
    else if Path.before path p then (path, content) :: (p, c) :: rest
    else (p, c) :: place path content rest

/-- Notes a call. -/
def note (command : String) (directory : Path) (o : Output) : Output :=
  { o with calls := o.calls ++ [(command, directory)] }

/-- Changes the disk, unless that fails. -/
def changing (path : Path) (change : FileTree → Except FileProblem FileTree) : Acting Output Unit :=
  ExceptT.mk fun o =>
    match change o.disk with
    | .error problem => (.error (.file path problem), o)
    | .ok disk => (.ok (), { o with disk := disk })

end Output

/-- Files in memory. -/
def Sink.memory : Sink Output where
  makeDirectory _ := return
  writeFile path content := modify fun o => { o with memory := Output.place path content o.memory }

/-- Files on the disk, which is a tree. -/
def Sink.disk : Sink Output where
  makeDirectory directory := Output.changing directory fun disk => disk.makeDirectories directory
  writeFile path content := Output.changing path fun disk => disk.writeFile path content.toUTF8

/-- Notes each call and answers it. -/
def CommandRunner.noting (r : CommandRunner) : Runner Output where
  run command directory := do
    modify (Output.note command directory)
    liftM (r.run command directory)

instance : Coe CommandRunner (Runner Output) :=
  ⟨CommandRunner.noting⟩

end AvroCodegen
