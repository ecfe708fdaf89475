import AvroCodegen.CommandLine

set_option autoImplicit false

/-! # The program

Reads the files that the definitions need, carries the definitions out in memory, and writes what
came of it. -/

namespace AvroCodegen.Program

/-- Takes what stands at a place of the disk, with everything below it, into a tree of files. -/
partial def gather (path : String) (tree : FileTree) : IO FileTree := do
  let place := (← IO.currentDir) / path
  if ← place.isDir then
    let mut tree := (tree.makeDirectories path).toOption.getD tree
    for entry in ← place.readDir do
      tree ← gather (Path.join path entry.fileName) tree
    return tree
  else if ← place.pathExists then
    let above := (Path.parent? path).getD "/"
    let tree := (tree.makeDirectories above).toOption.getD tree
    return (tree.writeFile path (← IO.FS.readBinFile place)).toOption.getD tree
  else return tree

/-- Takes definitions and all that they need into a tree of files. -/
def gatherAll (current : Path) (definitions : List Path) : IO FileTree := do
  let mut tree := FileTree.empty
  for definition in definitions do
    let path := Path.join current definition
    tree ← gather path tree
    if let .ok source := tree.readText path then
      for place in CommandLine.needsOf current path source do
        tree ← gather place tree
  return tree

/-- Writes a file and before that its directory. -/
def write (path content : String) : IO Unit := do
  let place := (← IO.currentDir) / path
  if let some above := place.parent then IO.FS.createDirAll above
  IO.FS.writeFile place content

/-- Tells of a failure. -/
def fail (message : String) : IO UInt32 := do
  IO.eprintln ("Error: " ++ message)
  return 1

/-- The picture of a definition's schemas, printed or written. -/
def picture (current definition : Path) (output : Option Path) : IO UInt32 := do
  let tree ← gatherAll current [definition]
  match LoadedDefinition.load tree current (Path.join current definition) with
  | .error e => fail e.message
  | .ok d =>
    match output with
    | none => IO.print d.picture
    | some file => write file d.picture
    return 0

/-- Carries definitions out. -/
def produce (c : CommandLine) (s : Settings) (current : Path) : IO UInt32 := do
  let tree ← gatherAll current c.definitionPaths
  let p : Production := ⟨s, .memory, CommandRunner.basic, current⟩
  let definitions := c.definitionPaths.map (Path.join current)
  let (reports, output) := (p.runAll definitions).run (Output.start tree)
  if !c.dryRun then
    for (path, content) in output.memory do write path content
  match reports with
  | .error e => fail e.message
  | .ok reports =>
    if c.dryRun then
      for file in output.memory do IO.println (CommandLine.dryLine file)
      IO.println (CommandLine.dryEnd output.memory)
    else IO.println (CommandLine.runEnd reports)
    return 0

/-- The settings that hold. -/
def settings (c : CommandLine) (current : Path) : IO (Outcome Settings) := do
  match c.settings with
  | none => return .ok (c.adjust Settings.standard)
  | some file =>
    let path := Path.join current file
    let tree ← gather path FileTree.empty
    return (Settings.load tree path).map c.adjust

/-- Does what the arguments ask for. -/
def answer (c : CommandLine) : IO UInt32 := do
  let current := (← IO.currentDir).toString
  match ← settings c current with
  | .error _ => fail "Failed to load settings"
  | .ok s =>
    if c.printSettings then
      IO.print s.toml
      return 0
    else match c.saveSettings, c.picture with
      | some file, _ =>
        write file s.toml
        IO.println (CommandLine.saved file)
        return 0
      | none, some definition => picture current definition c.output
      | none, none =>
        if c.definitionPaths.isEmpty then fail CommandLine.nothingGiven
        else produce c s current

end AvroCodegen.Program

/-- Runs the program. -/
def main (arguments : List String) : IO UInt32 := do
  match AvroCodegen.CommandLine.read arguments with
  | .error message => AvroCodegen.Program.fail message
  | .ok c => AvroCodegen.Program.answer c
