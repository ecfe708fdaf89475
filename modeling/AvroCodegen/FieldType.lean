import AvroCodegen.Fault
import AvroCodegen.Schema.Basic

set_option autoImplicit false

/-! # Types of fields

A `FieldType` is what a generator knows about the values of a field: one of the plain types, an
array of a type, or a union of types. `FieldType.close` never comes out of a schema; it ends the
span of a nested record in an expanded list of fields.

`FieldType.resolve` reads a type off a schema. A logical type that fits its primitive refines it,
and any other is passed over. The attributes of a type are those of its node under those of its
field, and below both, for a reference, those of the definition. Records and enums are known by
number: a reference to one without a number is refused, while a fixed type needs none. -/

namespace AvroCodegen

/-- A type without types inside. -/
inductive PlainType where
  | string
  | uuid
  | datetime (format : String)
  | bytes
  | decimal (precision scale : Nat)
  | fixed (size : Nat)
  | int
  | date
  | timeMillis
  | timeMicros
  | long
  | timestampMillis
  | timestampMicros
  | localTimestampMillis
  | localTimestampMicros
  | float
  | double
  | boolean
  | null
  | map
  | record (id : Nat)
  | enum (id : Nat)
  deriving DecidableEq, Repr

/-- The name of a plain type. -/
def PlainType.name : PlainType → String
  | .string => "string"
  | .uuid => "uuid"
  | .datetime _ => "datetime"
  | .bytes => "bytes"
  | .decimal _ _ => "decimal"
  | .fixed _ => "fixed"
  | .int => "int"
  | .date => "date"
  | .timeMillis => "time-millis"
  | .timeMicros => "time-micros"
  | .long => "long"
  | .timestampMillis => "timestamp-millis"
  | .timestampMicros => "timestamp-micros"
  | .localTimestampMillis => "local-timestamp-millis"
  | .localTimestampMicros => "local-timestamp-micros"
  | .float => "float"
  | .double => "double"
  | .boolean => "boolean"
  | .null => "null"
  | .map => "map"
  | .record _ => "record"
  | .enum _ => "enum"

/-- The type of a field, with its attributes. -/
inductive FieldType where
  | plain (type : PlainType) (props : Properties)
  | array (element : FieldType) (props : Properties)
  | union (members : List FieldType) (props : Properties)
  | close (opened : FieldType)

namespace FieldType

/-- The name of a type. -/
def name : FieldType → String
  | .plain p _ => p.name
  | .array _ _ => "array"
  | .union _ _ => "union"
  | .close _ => "record-close"

/-- The attributes of a type. -/
def props : FieldType → Properties
  | .plain _ props => props
  | .array _ props => props
  | .union _ props => props
  | .close _ => []

/-- Whether the attributes mark a primary key. -/
def isPrimary (t : FieldType) : Bool :=
  t.props.isPrimary

/-- The items of an array. -/
def element? : FieldType → Option FieldType
  | .array element _ => some element
  | _ => none

/-- The record that the type stands for. -/
def record? : FieldType → Option Nat
  | .plain (.record id) _ => some id
  | _ => none

/-- The record or enum that the type stands for. -/
def entity? : FieldType → Option Nat
  | .plain (.record id) _ => some id
  | .plain (.enum id) _ => some id
  | _ => none

/-- Whether the type is an array directly of records. -/
def isRecordList (t : FieldType) : Bool :=
  (t.element?.bind record?).isSome

/-! ## Reading a type off a schema -/

/-- A bound of a decimal must fit thirty-two bits. -/
def bound (key : String) (value : Nat) : Except SchemaProblem Nat :=
  if value < 4294967296 then .ok value else .error (.boundTooLarge key value)

/-- The decimal type that attributes describe; the scale is zero unless given. -/
def decimal (props : Properties) : Except SchemaProblem PlainType :=
  match (Keyed.get? "precision" props).bind Json.nat? with
  | none => .error .missingPrecision
  | some precision => do
    let scale := ((Keyed.get? "scale" props).bind Json.nat?).getD 0
    return .decimal (← bound "precision" precision) (← bound "scale" scale)

/-- The type of a formatted date and time, which needs its format. -/
def datetime (props : Properties) : Except SchemaProblem PlainType :=
  match (Keyed.get? "datetime-format" props).bind Json.string? with
  | none => .error .missingFormat
  | some format => .ok (.datetime format)

/-- How a logical type refines an `int`. -/
def refineInt : Option String → PlainType
  | some "date" => .date
  | some "time-millis" => .timeMillis
  | some "time-micros" => .timeMicros
  | _ => .int

/-- How a logical type refines a `long`. -/
def refineLong : Option String → PlainType
  | some "time-micros" => .timeMicros
  | some "timestamp-millis" => .timestampMillis
  | some "timestamp-micros" => .timestampMicros
  | some "local-timestamp-millis" => .localTimestampMillis
  | some "local-timestamp-micros" => .localTimestampMicros
  | _ => .long

/-- How a logical type refines a primitive. -/
def refine (p : Primitive) (logical : Option String) (props : Properties) :
    Except SchemaProblem PlainType :=
  match p with
  | .null => .ok .null
  | .boolean => .ok .boolean
  | .int => .ok (refineInt logical)
  | .long => .ok (refineLong logical)
  | .float => .ok .float
  | .double => .ok .double
  | .bytes => if logical = some "decimal" then decimal props else .ok .bytes
  | .string =>
    if logical = some "uuid" then .ok .uuid
    else if logical = some "datetime-str" then datetime props
    else .ok .string

/-- The plain type of a reference. -/
def refer (catalog : Catalog) (idOf : String → Option Nat) (fullname : String)
    (props : Properties) : Except SchemaProblem FieldType :=
  match catalog.get? fullname with
  | none => .error (.undefinedReference fullname)
  | some t =>
    let props := Keyed.underlay props t.props
    match t.body, idOf fullname with
    | .fixed size, _ => .ok (.plain (.fixed size) props)
    | _, none => .error (.outOfScope fullname)
    | .record _, some id => .ok (.plain (.record id) props)
    | .enum _, some id => .ok (.plain (.enum id) props)

mutual

/-- The type that a schema describes, under the attributes of its field. -/
def resolve (catalog : Catalog) (idOf : String → Option Nat) (extra : Properties) :
    Schema → Except SchemaProblem FieldType
  | .primitive p marks => do
    let props := Keyed.overlay marks.props extra
    return .plain (← refine p marks.logicalType props) props
  | .array items marks => do
    return .array (← resolve catalog idOf [] items) (Keyed.overlay marks.props extra)
  | .map _ marks => .ok (.plain .map (Keyed.overlay marks.props extra))
  | .union members marks => do
    return .union (← resolveAll catalog idOf members) (Keyed.overlay marks.props extra)
  | .named fullname marks => refer catalog idOf fullname (Keyed.overlay marks.props extra)

/-- The types of several schemas without fields of their own. -/
def resolveAll (catalog : Catalog) (idOf : String → Option Nat) :
    List Schema → Except SchemaProblem (List FieldType)
  | [] => .ok []
  | s :: rest => do
    let t ← resolve catalog idOf [] s
    return t :: (← resolveAll catalog idOf rest)

end

/-- The type that a schema describes, where the place of the schema is not known. -/
def ofSchema (catalog : Catalog) (idOf : String → Option Nat) (extra : Properties) (s : Schema) :
    Outcome FieldType :=
  (resolve catalog idOf extra s).mapError (.schema "type")

end FieldType

end AvroCodegen
