import AvroCodegen.Convert.Converter
import AvroCodegen.Entity.Basic

set_option autoImplicit false

/-! # Tokens

What the converters make of a type: a word of the target, or for `fbIsPrimitive` a flag. For each
converter a table over the plain types tells the word, and nothing where the target has none; arrays
are treated apart. A refusal names the type that has no word: inside an array, that is the
element. -/

namespace AvroCodegen

/-- What a converter answers. -/
inductive Token where
  | text (value : String)
  | flag (value : Bool)
  deriving DecidableEq, Repr

namespace PlainType

/-- Whether a type is a number, a boolean, or a point in time kept as a number. -/
def isScalar : PlainType → Bool
  | .int | .date | .timeMillis | .timeMicros | .long | .timestampMillis | .timestampMicros
  | .localTimestampMillis | .localTimestampMicros | .float | .double | .boolean => true
  | _ => false

/-- The FlatBuffers type of what is not a record or enum. -/
def fbType? : PlainType → Option String
  | .string | .uuid | .datetime _ => some "string"
  | .bytes | .decimal _ _ => some "[byte]"
  | .int | .date | .timeMillis => some "int"
  | .long | .timeMicros | .timestampMillis | .timestampMicros | .localTimestampMillis
  | .localTimestampMicros => some "long"
  | .float => some "float"
  | .double => some "double"
  | .boolean => some "bool"
  | .fixed size => some ("[byte:" ++ toString size ++ "]")
  | .map | .null | .record _ | .enum _ => none

/-- The FlatBuffers builder call. -/
def fbFactory? : PlainType → Option String
  | .string | .uuid | .datetime _ => some "String"
  | .bytes | .decimal _ _ | .fixed _ => some "CreateArray"
  | .int | .date | .timeMillis | .timeMicros => some "int"
  | .long | .timestampMillis | .timestampMicros | .localTimestampMillis
  | .localTimestampMicros => some "long"
  | .float => some "float"
  | .double => some "double"
  | .boolean => some "bool"
  | .record _ => some "CreateRecord"
  | .enum _ => some "CreateEnum"
  | .map | .null => none

/-- Whether FlatBuffers stores the type inline. -/
def fbIsPrimitive? : PlainType → Option Bool
  | .map | .null => none
  | p => some p.isScalar

/-- The Java type of what is not a record or enum. -/
def javaType? : PlainType → Option String
  | .string | .uuid | .datetime _ => some "String"
  | .bytes | .decimal _ _ => some "byte[]"
  | .int | .date | .timeMillis | .timeMicros => some "int"
  | .long | .timestampMillis | .timestampMicros | .localTimestampMillis
  | .localTimestampMicros => some "long"
  | .float => some "float"
  | .double => some "double"
  | .boolean => some "boolean"
  | .fixed _ | .map | .null | .record _ | .enum _ => none

/-- The Connect schema constant. -/
def connectSchemaType? : PlainType → Option String
  | .string | .uuid | .datetime _ | .enum _ => some "Schema.OPTIONAL_STRING_SCHEMA"
  | .bytes | .decimal _ _ => some "Schema.OPTIONAL_BYTES_SCHEMA"
  | .int | .date | .timeMillis => some "Schema.INT32_SCHEMA"
  | .long | .timeMicros | .timestampMillis | .timestampMicros | .localTimestampMillis
  | .localTimestampMicros => some "Schema.INT64_SCHEMA"
  | .float => some "Schema.FLOAT32_SCHEMA"
  | .double => some "Schema.FLOAT64_SCHEMA"
  | .boolean => some "Schema.BOOLEAN_SCHEMA"
  | .fixed _ | .map | .null | .record _ => none

/-- The Connect getter. -/
def connectStructGetter? : PlainType → Option String
  | .string | .uuid | .datetime _ | .enum _ => some "getString"
  | .bytes | .decimal _ _ => some "getBytes"
  | .int | .date | .timeMillis | .timeMicros => some "getInt32"
  | .long | .timestampMillis | .timestampMicros | .localTimestampMillis
  | .localTimestampMicros => some "getInt64"
  | .float => some "getFloat32"
  | .double => some "getFloat64"
  | .boolean => some "getBoolean"
  | .fixed _ | .map | .null | .record _ => none

/-- The Liquibase column type. -/
def liquidBaseType? : PlainType → Option String
  | .uuid => some "uuid"
  | .datetime _ => some "datetime"
  | .string | .enum _ => some "varchar2(255)"
  | .decimal precision scale =>
    some ("decimal(" ++ toString precision ++ "," ++ toString scale ++ ")")
  | .bytes => some "blob"
  | .date => some "date"
  | .int | .timeMillis => some "int"
  | .long | .timeMicros | .timestampMillis | .timestampMicros | .localTimestampMillis
  | .localTimestampMicros => some "bigint"
  | .float => some "float"
  | .double => some "double"
  | .boolean => some "boolean"
  | .fixed _ | .map | .null | .record _ => none

end PlainType

namespace Converter

/-- A word, or the refusal of the type that has none. -/
def wordOr (c : Converter) (name : String) : Option String → Outcome String
  | some word => .ok word
  | none => .error (.unsupported c (.type name))

/-- The names of an entity that a type mentions. -/
def namingOf (s : Store) (id : Nat) : Outcome Naming :=
  match s.get? id with
  | some e => .ok e.naming
  | none => .error (.noSuchEntity id)

/-- The FlatBuffers type: entities by their fullname, arrays in brackets. -/
def fbTypeText (s : Store) : FieldType → Outcome String
  | .plain (.record id) _ => do return (← namingOf s id).fullname
  | .plain (.enum id) _ => do return (← namingOf s id).fullname
  | .plain p _ => fbType.wordOr p.name p.fbType?
  | .array element _ => do return "[" ++ (← fbTypeText s element) ++ "]"
  | t => fbType.wordOr t.name none

/-- Whether an array of the type would hold unboxed values. -/
def isUnboxed : FieldType → Bool
  | .plain p _ => p.isScalar
  | _ => false

/-- The Java type: entities by their name, arrays as lists, which hold no unboxed values. -/
def javaTypeText (s : Store) : FieldType → Outcome String
  | .plain (.record id) _ => do return (← namingOf s id).name
  | .plain (.enum id) _ => do return (← namingOf s id).name
  | .plain p _ => javaType.wordOr p.name p.javaType?
  | .array element _ =>
    if isUnboxed element then .error (.unsupported javaType (.arrayOf element.name))
    else do return "java.util.List<" ++ (← javaTypeText s element) ++ ">"
  | t => javaType.wordOr t.name none

/-- The word of a converter that treats all arrays alike. -/
def flatText (c : Converter) (table : PlainType → Option String) (array : String) :
    FieldType → Outcome String
  | .plain p _ => c.wordOr p.name (table p)
  | .array _ _ => .ok array
  | t => c.wordOr t.name none

/-- Whether the type is stored inline; arrays and closing fields are not. -/
def fbFlag : FieldType → Outcome Bool
  | .plain p _ =>
    match p.fbIsPrimitive? with
    | some b => .ok b
    | none => .error (.unsupported fbIsPrimitive (.type p.name))
  | .array _ _ => .ok false
  | .close _ => .ok false
  | t => .error (.unsupported fbIsPrimitive (.type t.name))

/-- The token of a type. -/
def token (c : Converter) (s : Store) (t : FieldType) : Outcome Token :=
  match c with
  | .fbType => .text <$> fbTypeText s t
  | .fbFactory => .text <$> flatText .fbFactory PlainType.fbFactory? "CreateArray" t
  | .fbIsPrimitive => .flag <$> fbFlag t
  | .javaType => .text <$> javaTypeText s t
  | .connectSchemaType =>
    .text <$> flatText .connectSchemaType PlainType.connectSchemaType?
      "Schema.OPTIONAL_STRING_SCHEMA" t
  | .connectStructGetter =>
    .text <$> flatText .connectStructGetter PlainType.connectStructGetter? "getString" t
  | .liquidBaseType =>
    .text <$> flatText .liquidBaseType PlainType.liquidBaseType? "varchar2(255)" t

end Converter

end AvroCodegen
