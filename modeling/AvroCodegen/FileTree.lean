import AvroCodegen.Path

set_option autoImplicit false

/-! # A tree of files

Files and directories as a value: a list of places, each the names that lead to it from the root,
with what is there. The root is always a directory. Reading, listing, making directories and
writing follow the rules of a file system, and fail with the cause that a file system gives. But a
tree is an ideal one: there is always room, everything may be read and written, any text is a name,
and no place is a link to another. -/

namespace AvroCodegen

/-- Why an access to a file failed; `other` is for causes that a tree does not know. -/
inductive FileProblem where
  | notFound
  | fileExists
  | notDirectory
  | isDirectory
  | notText
  | noSchemaPath
  | other (reason : String)
  deriving DecidableEq, Repr

/-- The wording of a cause. -/
def FileProblem.message : FileProblem → String
  | .notFound => "No such file or directory (os error 2)"
  | .fileExists => "File exists (os error 17)"
  | .notDirectory => "Not a directory (os error 20)"
  | .isDirectory => "Is a directory (os error 21)"
  | .notText => "stream did not contain valid UTF-8"
  | .noSchemaPath => "schema path does not exist"
  | .other reason => reason

/-- What is at a place. -/
inductive FileEntry where
  | file (content : ByteArray)
  | directory

/-- Places and what is there. -/
structure FileTree where
  entries : List (List String × FileEntry)

namespace FileTree

/-- A tree with nothing but its root. -/
def empty : FileTree := ⟨[]⟩

/-- What is at a place. -/
def entry? (tree : FileTree) (place : List String) : Option FileEntry :=
  if place = [] then some .directory
  else (tree.entries.find? (fun e => e.1 = place)).map Prod.snd

/-- Puts an entry at a place, in the stead of one that is there. -/
def set (tree : FileTree) (place : List String) (entry : FileEntry) : FileTree :=
  ⟨tree.entries.filter (fun e => e.1 ≠ place) ++ [(place, entry)]⟩

/-- One step from a place, which must be a directory. -/
def move (tree : FileTree) (place : List String) (step : Path.Step) :
    Except FileProblem (List String) :=
  match step with
  | .root => .ok []
  | step =>
    match tree.entry? place with
    | none => .error .notFound
    | some (.file _) => .error .notDirectory
    | some .directory =>
      match step with
      | .name n => .ok (place ++ [n])
      | .up => .ok place.dropLast
      | _ => .ok place

/-- The place that a path names, whether or not something is there. -/
def locate (tree : FileTree) (p : Path) : Except FileProblem (List String) :=
  (Path.steps p).foldlM (fun place step => tree.move place step) []

/-- What a path names. -/
def find (tree : FileTree) (p : Path) : Except FileProblem FileEntry := do
  let place ← tree.locate p
  match tree.entry? place with
  | none => .error .notFound
  | some (.file content) =>
    if Path.wantsDirectory p then .error .notDirectory else .ok (.file content)
  | some .directory => .ok .directory

/-- Whether the path names a file. -/
def isFile (tree : FileTree) (p : Path) : Bool :=
  match tree.find p with
  | .ok (.file _) => true
  | _ => false

/-- Whether the path names a directory. -/
def isDirectory (tree : FileTree) (p : Path) : Bool :=
  match tree.find p with
  | .ok .directory => true
  | _ => false

/-- The text of a file. -/
def readText (tree : FileTree) (p : Path) : Except FileProblem String := do
  match ← tree.find p with
  | .directory => .error .isDirectory
  | .file content =>
    match String.fromUTF8? content with
    | some text => .ok text
    | none => .error .notText

/-! ## Listing -/

/-- Whether names come before others, the first difference deciding. -/
def namesBefore : List String → List String → Bool
  | [], [] => false
  | [], _ :: _ => true
  | _ :: _, [] => false
  | a :: as, b :: bs => if a = b then namesBefore as bs else decide (a < b)

/-- The files below a directory, each by the names that lead to it, a directory's files standing
where the directory's name stands among its siblings. -/
def filesBelow (tree : FileTree) (p : Path) : List (List String) :=
  match tree.locate p with
  | .error _ => []
  | .ok place =>
    let found := tree.entries.filterMap fun e =>
      match e.2 with
      | .file _ => if place.isPrefixOf e.1 then some (e.1.drop place.length) else none
      | .directory => none
    found.mergeSort (fun a b => !namesBefore b a)

/-! ## Writing -/

/-- Goes on from a place by the steps left, making directories where nothing is. A file in the way
is no directory; but when it is where the last directory should be, or when some directory was
missing before it, it is a file that exists already. -/
def makeFrom (tree : FileTree) (made : Bool) (place : List String) :
    List Path.Step → Except FileProblem FileTree
  | [] => .ok tree
  | step :: rest => do
    let next ← tree.move place step
    match tree.entry? next with
    | some .directory => makeFrom tree made next rest
    | some (.file _) => .error (if rest.isEmpty || made then .fileExists else .notDirectory)
    | none => makeFrom (tree.set next .directory) true next rest

/-- Makes a directory and all directories above it. -/
def makeDirectories (tree : FileTree) (p : Path) : Except FileProblem FileTree :=
  tree.makeFrom false [] (Path.steps p)

/-- Writes a file into a directory that exists, in the stead of a file that is there. -/
def writeFile (tree : FileTree) (p : Path) (content : ByteArray) :
    Except FileProblem FileTree := do
  let place ← tree.locate p
  if Path.wantsDirectory p then .error .isDirectory
  else match tree.entry? place with
    | some .directory => .error .isDirectory
    | _ =>
      match tree.entry? place.dropLast with
      | some .directory => .ok (tree.set place (.file content))
      | some (.file _) => .error .notDirectory
      | none => .error .notFound

end FileTree

end AvroCodegen
