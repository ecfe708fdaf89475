set_option autoImplicit false

/-! # Names of the converters

A converter turns a field type into a token of some target. Templates call each by its name. -/

namespace AvroCodegen

/-- The converters, in the order in which they are listed. -/
inductive Converter where
  | fbType
  | fbFactory
  | fbIsPrimitive
  | javaType
  | connectSchemaType
  | connectStructGetter
  | liquidBaseType
  deriving DecidableEq, Repr

namespace Converter

/-- All converters. -/
def all : List Converter :=
  [.fbType, .fbFactory, .fbIsPrimitive, .javaType, .connectSchemaType, .connectStructGetter,
   .liquidBaseType]

/-- The name that a template uses. -/
def name : Converter → String
  | .fbType => "fbType"
  | .fbFactory => "fbFactory"
  | .fbIsPrimitive => "fbIsPrimitive"
  | .javaType => "javaType"
  | .connectSchemaType => "connectSchemaType"
  | .connectStructGetter => "connectStructGetter"
  | .liquidBaseType => "liquidBaseType"

/-- The converter of a name. -/
def ofName? (name : String) : Option Converter :=
  all.find? (fun c => c.name = name)

theorem ofName?_name (c : Converter) : ofName? c.name = some c := by
  cases c <;> decide

end Converter

end AvroCodegen
