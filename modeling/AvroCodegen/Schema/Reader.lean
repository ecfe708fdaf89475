import AvroCodegen.Fault
import AvroCodegen.Json.Reader
import AvroCodegen.Schema.Basic

set_option autoImplicit false

/-! # Reading schemas

A `Reader` takes sources one after the other and collects the named types they define, at any depth.
A name without a point is completed by the namespace around it; a reference that no definition
answers yet is remembered and judged by `Reader.finish`, so that definitions may come later or in
another source.

A definition is refused when its fullname is already taken as it opens, and stored when it closes:
what it contains is stored before it. The namespace of a definition holds inside it only, whether
its reading succeeds or fails. A failure keeps all that was stored before it. -/

namespace AvroCodegen

/-- What the sources read so far have given. -/
structure Reader where
  named : Keyed NamedType
  topLevel : List String
  space : Option String
  location : String
  pending : List (String × String)

/-- A step of reading: it answers or fails, and either way leaves a state. -/
abbrev Reading (α : Type) : Type := ExceptT Fault (StateM Reader) α

namespace Reader

/-- Nothing read yet. -/
def start : Reader := ⟨[], [], none, "", []⟩

/-! ## Names -/

/-- Attributes of a type that have a meaning; all others are properties. -/
def typeAttributes : List String :=
  ["type", "name", "namespace", "fields", "symbols", "items", "values", "size", "doc", "aliases",
   "default", "logicalType"]

/-- Attributes of a field that have a meaning; all others are properties. -/
def fieldAttributes : List String :=
  ["name", "type", "doc", "default", "order", "aliases"]

/-- The members of an object without a meaning. -/
def extras (meaningful : List String) (members : Properties) : Properties :=
  members.filter (fun m => !meaningful.contains m.1)

/-- A text attribute. -/
def text? (key : String) (members : Properties) : Option String :=
  (Keyed.get? key members).bind Json.string?

/-- The texts in a list attribute; everything else in it is passed over. -/
def texts (key : String) (members : Properties) : List String :=
  (((Keyed.get? key members).bind Json.array?).getD []).filterMap Json.string?

/-- Puts a namespace, if there is one, before a name. -/
def inSpace (space : Option String) (name : String) : String :=
  match space with
  | none => name
  | some s => if s.isEmpty then name else s ++ "." ++ name

/-- The fullname of a declared name: a name with a point is one already; otherwise the namespace
given with it counts before the one around it. -/
def qualify (around given : Option String) (name : String) : String :=
  if name.toList.contains '.' then name
  else inSpace (given <|> around) name

/-- A fullname cut at its last point. -/
def splitFullname (fullname : String) : Option String × String :=
  let r := fullname.toList.reverse
  match r.dropWhile (fun c => c != '.') with
  | [] => (none, fullname)
  | _ :: before =>
    (some (String.ofList before.reverse),
     String.ofList (r.takeWhile (fun c => c != '.')).reverse)

/-! ## Steps -/

/-- Fails with a problem at the present source. -/
def complain {α : Type} (problem : SchemaProblem) : Reading α := do
  throw (.schema (← get).location problem)

/-- Runs a step inside a namespace and restores the one before, also after a failure. -/
def within {α : Type} (space : Option String) (step : Reading α) : Reading α :=
  ExceptT.mk fun r =>
    let (answer, r') := step.run { r with space := space }
    (answer, { r' with space := r.space })

/-- The fullname that a reference stands for: the completed name if it is defined, else the bare
name if that is defined, else the completed name, to be judged at the end. -/
def refer (name : String) : Reading String := do
  let r ← get
  let qualified := qualify r.space none name
  if Keyed.has qualified r.named then return qualified
  else if Keyed.has name r.named then return name
  else
    set { r with pending := r.pending ++ [(qualified, r.location)] }
    return qualified

/-- The node of a word that is no structure: a primitive or a reference. -/
def wordNode (word : String) (marks : Annotations) : Reading Schema := do
  match Primitive.ofWord? word with
  | some p => return .primitive p marks
  | none => return .named (← refer word) marks

/-- What a word after `type` announces. -/
inductive Word where
  | definition (kind : Kind)
  | array
  | map
  | other
  deriving DecidableEq, Repr

/-- The meaning of a word after `type`. -/
def Word.of (word : String) : Word :=
  if word = "record" then .definition .record
  else if word = "error" then .definition .record
  else if word = "enum" then .definition .enum
  else if word = "fixed" then .definition .fixed
  else if word = "array" then .array
  else if word = "map" then .map
  else .other

/-- The annotations written in an object. -/
def annotations (members : Properties) : Annotations :=
  ⟨text? "logicalType" members, extras typeAttributes members⟩

/-- The annotations of a node inside an object that has no shape of its own: the outer attributes
win over the inner ones. -/
def annotate (members : Properties) (s : Schema) : Schema :=
  s.withMarks
    { logicalType := text? "logicalType" members <|> s.marks.logicalType
      props := Keyed.overlay s.marks.props (extras typeAttributes members) }

/-- Opens a definition: it needs a name that is not taken. -/
def openType (word : String) (members : Properties) : Reading String := do
  match text? "name" members with
  | none => complain (.missingName word)
  | some name =>
    let r ← get
    let fullname := qualify r.space (text? "namespace" members) name
    if Keyed.has fullname r.named then complain (.redefined fullname)
    else return fullname

/-- The symbols of an enum, all of them texts. -/
def symbolsOf (fullname : String) : List Json → Reading (List String)
  | [] => return []
  | .str s :: rest => return s :: (← symbolsOf fullname rest)
  | _ :: _ => complain (.symbolNotString fullname)

/-- The body of an enum. -/
def enumBody (fullname : String) (members : Properties) : Reading NamedBody := do
  match (Keyed.get? "symbols" members).bind Json.array? with
  | none => complain (.missingSymbols fullname)
  | some symbols => return .enum (← symbolsOf fullname symbols)

/-- The body of a fixed type. -/
def fixedBody (fullname : String) (members : Properties) : Reading NamedBody := do
  match (Keyed.get? "size" members).bind Json.nat? with
  | none => complain (.missingSize fullname)
  | some size => return .fixed size

/-- Closes a definition: stores it and answers with a reference to it. -/
def closeType (fullname : String) (members : Properties) (body : NamedBody) :
    Reading Schema := do
  let (space, name) := splitFullname fullname
  let type : NamedType :=
    { fullname := fullname
      name := name
      space := space
      doc := text? "doc" members
      aliases := texts "aliases" members
      logicalType := text? "logicalType" members
      props := extras typeAttributes members
      body := body }
  modify fun r => { r with named := Keyed.put fullname type r.named }
  return .named fullname .none

/-! ## Nodes -/

mutual

/-- Reads a schema: a word, a list of alternatives, or an object. -/
def readNode (value : Json) : Reading Schema :=
  match value with
  | .str word => wordNode word .none
  | .arr members => do return .union (← readNodes members) .none
  | .obj members =>
    match _ht : Keyed.get? "type" members with
    | none => complain .missingType
    | some (.str word) =>
      match Word.of word with
      | .definition kind => do
        let fullname ← openType word members
        let body ← within (splitFullname fullname).1 (match kind with
          | .enum => enumBody fullname members
          | .fixed => fixedBody fullname members
          | .record =>
            match _hf : Keyed.get? "fields" members with
            | some (.arr fields) => do return .record (← readFields fullname fields)
            | _ => complain (.missingFields fullname))
        closeType fullname members body
      | .array =>
        match _hi : Keyed.get? "items" members with
        | none => complain .missingItems
        | some items => do return .array (← readNode items) (annotations members)
      | .map =>
        match _hv : Keyed.get? "values" members with
        | none => complain .missingValues
        | some values => do return .map (← readNode values) (annotations members)
      | .other => wordNode word (annotations members)
    | some nested => do return annotate members (← readNode nested)
  | other => complain (.notASchema other)
termination_by sizeOf value
decreasing_by
  all_goals simp only [Json.arr.sizeOf_spec, Json.obj.sizeOf_spec]
  · omega
  · have := Keyed.sizeOf_get?_lt _hf
    simp only [Json.arr.sizeOf_spec] at this
    omega
  · have := Keyed.sizeOf_get?_lt _hi
    omega
  · have := Keyed.sizeOf_get?_lt _hv
    omega
  · have := Keyed.sizeOf_get?_lt _ht
    omega

/-- Reads schemas one after the other. -/
def readNodes (values : List Json) : Reading (List Schema) :=
  match values with
  | [] => return []
  | value :: rest => do
    let node ← readNode value
    return node :: (← readNodes rest)
termination_by sizeOf values

/-- Reads the fields of a record one after the other. -/
def readFields (record : String) (values : List Json) : Reading (List FieldDecl) :=
  match values with
  | [] => return []
  | value :: rest => do
    let field ← readField record value
    return field :: (← readFields record rest)
termination_by sizeOf values

/-- Reads one field of a record. -/
def readField (record : String) (value : Json) : Reading FieldDecl :=
  match value with
  | .obj members =>
    match text? "name" members with
    | none => complain (.fieldMissingName record)
    | some name =>
      match _ht : Keyed.get? "type" members with
      | none => complain (.fieldMissingType record name)
      | some type => do
        let schema ← readNode type
        return { name := name
                 doc := text? "doc" members
                 schema := schema
                 default := Keyed.get? "default" members
                 props := extras fieldAttributes members }
  | _ => complain (.fieldNotObject record)
termination_by sizeOf value
decreasing_by
  have := Keyed.sizeOf_get?_lt _ht
  simp only [Json.obj.sizeOf_spec]
  omega

end

/-! ## Sources -/

/-- Reads the members of a source, each of which must define or name a type. -/
def readDeclared : List Json → Reading (List String)
  | [] => return []
  | value :: rest => do
    let node ← readNode value
    match node.reference? with
    | none => complain .topLevelNotNamed
    | some fullname => return fullname :: (← readDeclared rest)

/-- Reads one source and answers with the fullnames it declares. A list declares each member. -/
def readSource (origin source : String) : Reading (List String) := do
  modify fun r => { r with location := origin, space := none }
  match Json.read? source with
  | none => complain .invalidJson
  | some value =>
    let members := match value with
      | .arr items => items
      | other => [other]
    let declared ← readDeclared members
    modify fun r => { r with topLevel := r.topLevel ++ declared }
    return declared

/-- A list with every member kept at its first place only. -/
def firstOnly : List String → List String → List String
  | _, [] => []
  | seen, s :: rest =>
    if seen.contains s then firstOnly seen rest else s :: firstOnly (s :: seen) rest

/-- Judges the references that were open when they were met, and hands over what was read. -/
def finish (r : Reader) : Outcome Catalog :=
  match r.pending.find? (fun p => !Keyed.has p.1 r.named) with
  | some (fullname, location) => .error (.schema location (.undefinedReference fullname))
  | none => .ok ⟨r.named, firstOnly [] r.topLevel⟩

/-- Reads sources in order, stopping at the first failure. -/
def readSources : List (String × String) → Reading Unit
  | [] => return ()
  | (origin, source) :: rest => do
    let _ ← readSource origin source
    readSources rest

end Reader

/-- The catalog of a list of sources, each an origin and a text. -/
def Catalog.ofSources (sources : List (String × String)) : Outcome Catalog :=
  match (Reader.readSources sources).run Reader.start with
  | (.error fault, _) => .error fault
  | (.ok _, r) => r.finish

end AvroCodegen
