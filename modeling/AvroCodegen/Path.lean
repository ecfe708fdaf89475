set_option autoImplicit false

/-! # Paths

A path is a text whose parts are separated by slashes. It is kept as it was spelled; what it means
is its list of `Step`s, in which repeated slashes, a slash at the end and inner points do not count.
Two spellings of the same steps are the same place, and places are ordered step by step.

Joining puts a part behind a path, except that an absolute part stands alone. -/

namespace AvroCodegen

/-- A path, as it was spelled. -/
abbrev Path : Type := String

namespace Path

/-- One part of a path. -/
inductive Step where
  | root
  | here
  | up
  | name (text : String)
  deriving DecidableEq, Repr

/-- Cuts a text at every slash; there is one more piece than slashes. -/
def pieces : List Char → List (List Char)
  | [] => [[]]
  | c :: cs =>
    match pieces cs with
    | [] => [[c]]
    | p :: ps => if c = '/' then [] :: p :: ps else (c :: p) :: ps

/-- Whether a piece adds nothing to the path. -/
def isIdle (piece : List Char) : Bool :=
  piece = [] || piece = ['.']

/-- The head of a path that is not cut into pieces, a slash or a first point, and the rest. -/
def front (p : List Char) : List Char × List Char :=
  match p with
  | '/' :: rest => (['/'], rest)
  | ['.'] => (['.'], [])
  | '.' :: '/' :: rest => (['.'], '/' :: rest)
  | p => ([], p)

/-- What a piece stands for. -/
def stepOf (piece : List Char) : Step :=
  if piece = ['.', '.'] then .up else .name (String.ofList piece)

/-- The steps of a path. -/
def steps (p : Path) : List Step :=
  let (head, body) := front p.toList
  let first := if head = ['/'] then [Step.root] else if head = ['.'] then [Step.here] else []
  first ++ ((pieces body).filter (fun piece => !isIdle piece)).map stepOf

/-- Whether the path starts at the root. -/
def isAbsolute (p : Path) : Bool :=
  match p.toList with
  | '/' :: _ => true
  | _ => false

/-- Whether the spelling asks for a directory: it ends with a slash or a point step. -/
def wantsDirectory (p : Path) : Bool :=
  match (pieces p.toList).reverse with
  | last :: _ :: _ => isIdle last
  | _ => false

/-- Puts `part` behind `base`. -/
def join (base part : Path) : Path :=
  if isAbsolute part then part
  else match base.toList.getLast? with
    | none => part
    | some c => if c = '/' then base ++ part else base ++ "/" ++ part

/-- Pieces joined by slashes. -/
def spell (ps : List (List Char)) : List Char :=
  (List.intercalate ['/'] ps)

/-- The pieces without those at the end that add nothing. -/
def dropIdle (ps : List (List Char)) : List (List Char) :=
  (ps.reverse.dropWhile isIdle).reverse

/-- The path without its last step; nothing for the root and for the empty path. -/
def parent? (p : Path) : Option Path :=
  let (head, body) := front p.toList
  match (dropIdle (pieces body)).reverse with
  | _ :: before => some (String.ofList (head ++ spell (dropIdle before.reverse)))
  | [] => if head = ['.'] then some "" else none

/-- The last step, when it is a name. -/
def fileName? (p : Path) : Option String :=
  match (steps p).reverse with
  | .name n :: _ => some n
  | _ => none

/-- A file name cut at its last point; a name that only begins with a point has no extension. -/
def splitName (name : String) : String × Option String :=
  let r := name.toList.reverse
  let ext := (r.takeWhile (fun c => c != '.')).reverse
  match r.dropWhile (fun c => c != '.') with
  | [] => (name, none)
  | [_] => (name, none)
  | _ :: stem => (String.ofList stem.reverse, some (String.ofList ext))

/-- The part of the last name behind its last point. -/
def extension? (p : Path) : Option String :=
  (fileName? p).bind (fun n => (splitName n).2)

/-! ## Order -/

/-- Where a kind of step stands among the others. -/
def Step.rank : Step → Nat
  | .root => 0
  | .here => 1
  | .up => 2
  | .name _ => 3

/-- Whether a step comes before another. -/
def Step.before (a b : Step) : Bool :=
  match a, b with
  | .name x, .name y => decide (x < y)
  | a, b => a.rank < b.rank

/-- Whether a list of steps comes before another, the first difference deciding. -/
def stepsBefore : List Step → List Step → Bool
  | [], [] => false
  | [], _ :: _ => true
  | _ :: _, [] => false
  | a :: as, b :: bs => if a = b then stepsBefore as bs else a.before b

/-- Whether a path comes before another. -/
def before (p q : Path) : Bool :=
  stepsBefore (steps p) (steps q)

/-- Whether two spellings mean the same place. -/
def same (p q : Path) : Bool :=
  steps p = steps q

end Path

end AvroCodegen
