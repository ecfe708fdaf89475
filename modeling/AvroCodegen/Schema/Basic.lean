import AvroCodegen.Json.Basic

set_option autoImplicit false

/-! # Schemas

A schema describes the values of a field. It is a `Schema` node: a primitive, an array, a map, a
union of schemas, or a reference by fullname to a named type. Named types are records, enums and
fixed types; a `Catalog` holds all of them, in the order in which they were defined, together with
the names that the sources declare at their top level.

Every node carries its `Annotations`: the logical type that refines it and the attributes without a
meaning of their own. -/

namespace AvroCodegen

/-- The types without structure. -/
inductive Primitive where
  | null
  | boolean
  | int
  | long
  | float
  | double
  | bytes
  | string
  deriving DecidableEq, Repr

/-- The word for a primitive type. -/
def Primitive.word : Primitive → String
  | .null => "null"
  | .boolean => "boolean"
  | .int => "int"
  | .long => "long"
  | .float => "float"
  | .double => "double"
  | .bytes => "bytes"
  | .string => "string"

/-- All primitive types. -/
def Primitive.all : List Primitive :=
  [.null, .boolean, .int, .long, .float, .double, .bytes, .string]

/-- The primitive type that a word names. -/
def Primitive.ofWord? (word : String) : Option Primitive :=
  Primitive.all.find? (fun p => p.word = word)

/-- What is written on a node besides its shape. -/
structure Annotations where
  logicalType : Option String
  props : Properties

/-- Whether attributes mark a primary key. -/
def Properties.isPrimary (props : Properties) : Bool :=
  match Keyed.get? "primary" props with
  | some (.bool b) => b
  | _ => false

/-- Nothing written. -/
def Annotations.none : Annotations := ⟨Option.none, []⟩

/-- A node of a schema. -/
inductive Schema where
  | primitive (type : Primitive) (marks : Annotations)
  | array (items : Schema) (marks : Annotations)
  | map (values : Schema) (marks : Annotations)
  | union (members : List Schema) (marks : Annotations)
  | named (fullname : String) (marks : Annotations)

namespace Schema

/-- The annotations of the node itself. -/
def marks : Schema → Annotations
  | .primitive _ m => m
  | .array _ m => m
  | .map _ m => m
  | .union _ m => m
  | .named _ m => m

/-- The same node with other annotations. -/
def withMarks (m : Annotations) : Schema → Schema
  | .primitive p _ => .primitive p m
  | .array s _ => .array s m
  | .map s _ => .map s m
  | .union ss _ => .union ss m
  | .named n _ => .named n m

/-- The fullname that the node refers to. -/
def reference? : Schema → Option String
  | .named fullname _ => some fullname
  | _ => none

/-- What an array holds once all arrays directly around it are taken off. -/
def core : Schema → Schema
  | .array items _ => core items
  | s => s

/-- The innermost items of an array. -/
def element? : Schema → Option Schema
  | .array items _ => some items.core
  | _ => none

theorem marks_withMarks (m : Annotations) (s : Schema) : (s.withMarks m).marks = m := by
  cases s <;> rfl

end Schema

/-! ## Named types -/

/-- A field of a record. -/
structure FieldDecl where
  name : String
  doc : Option String
  schema : Schema
  default : Option Json
  props : Properties

/-- The three kinds of named types. -/
inductive Kind where
  | record
  | enum
  | fixed
  deriving DecidableEq, Repr

/-- The word for a kind. -/
def Kind.word : Kind → String
  | .record => "record"
  | .enum => "enum"
  | .fixed => "fixed"

/-- What a named type consists of. -/
inductive NamedBody where
  | record (fields : List FieldDecl)
  | enum (symbols : List String)
  | fixed (size : Nat)

/-- A record, an enum or a fixed type. -/
structure NamedType where
  fullname : String
  name : String
  space : Option String
  doc : Option String
  aliases : List String
  logicalType : Option String
  props : Properties
  body : NamedBody

namespace NamedType

/-- The kind of a named type. -/
def kind (t : NamedType) : Kind :=
  match t.body with
  | .record _ => .record
  | .enum _ => .enum
  | .fixed _ => .fixed

/-- The fields of a record; other types have none. -/
def fields (t : NamedType) : List FieldDecl :=
  match t.body with
  | .record fields => fields
  | _ => []

/-- The symbols of an enum; other types have none. -/
def symbols (t : NamedType) : List String :=
  match t.body with
  | .enum symbols => symbols
  | _ => []

/-- The namespace, empty when there is none. -/
def spaceText (t : NamedType) : String :=
  t.space.getD ""

/-- Only a record has fields. -/
theorem kind_of_mem_fields {t : NamedType} {f : FieldDecl} (hf : f ∈ t.fields) :
    t.kind = .record := by
  cases hb : t.body with
  | record fields => simp [kind, hb]
  | enum symbols => simp [fields, hb] at hf
  | fixed size => simp [fields, hb] at hf

end NamedType

/-- All named types of a run, by fullname in the order of their definition. -/
structure Catalog where
  named : Keyed NamedType
  topLevel : List String

namespace Catalog

/-- The named type of a fullname. -/
def get? (c : Catalog) (fullname : String) : Option NamedType :=
  Keyed.get? fullname c.named

/-- How many named types there are. -/
def size (c : Catalog) : Nat :=
  c.named.length

end Catalog

end AvroCodegen
