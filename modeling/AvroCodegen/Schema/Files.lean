import AvroCodegen.Digest
import AvroCodegen.Schema.Reader

set_option autoImplicit false

/-! # Schemas in files

A path names a file, which is read whatever it is called, or a directory, all of whose schema files
at any depth are read in the order of their names. The files are read one after the other by one
reader; the digest is that of their contents in this order. -/

namespace AvroCodegen

/-- A catalog with the files it was read from. -/
structure LoadedCatalog where
  catalog : Catalog
  sources : List Path
  digest : String

namespace SchemaFiles

/-- The extension of schema files. -/
def extension : String := "avsc"

/-- The schema files that a path names. -/
def filesOf (files : FileTree) (path : Path) : Outcome (List Path) :=
  if files.isFile path then .ok [path]
  else if files.isDirectory path then
    .ok (((files.filesBelow path).map (fun names => names.foldl Path.join path)).filter
      (fun p => Path.extension? p = some extension))
  else .error (.file path .noSchemaPath)

/-- Reads the files in order and answers with their contents. -/
def readFiles (files : FileTree) : List Path → Reading (List String)
  | [] => return []
  | file :: rest => do
    let content ← liftM ((files.readText file).mapError (Fault.file file) : Outcome String)
    let _ ← Reader.readSource file content
    return content :: (← readFiles files rest)

/-- Reads what the paths name in order, and answers with the files and their contents. -/
def readPaths (files : FileTree) : List Path → Reading (List (Path × String))
  | [] => return []
  | path :: rest => do
    let found ← liftM (filesOf files path)
    let contents ← readFiles files found
    return found.zip contents ++ (← readPaths files rest)

/-- The digest of some contents. -/
def digestOf (contents : List String) : String :=
  Digest.sha256 (contents.flatMap (fun c => c.toUTF8.toList))

/-- The catalog of what the paths name. -/
def load (files : FileTree) (paths : List Path) : Outcome LoadedCatalog :=
  match (readPaths files paths).run Reader.start with
  | (.error fault, _) => .error fault
  | (.ok sources, r) => do
    let catalog ← r.finish
    return ⟨catalog, sources.map Prod.fst, digestOf (sources.map Prod.snd)⟩

end SchemaFiles

end AvroCodegen
