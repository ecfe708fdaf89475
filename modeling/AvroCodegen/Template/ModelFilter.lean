import AvroCodegen.Convert.Token
import AvroCodegen.Entity.Closure
import AvroCodegen.Entity.Expansion
import AvroCodegen.Generator.Registry
import AvroCodegen.Template.Filter
import AvroCodegen.Text.Identifier

set_option autoImplicit false

/-! # Filters and methods of the model

Filters that follow relations, expand records, pick fields, look into the stores of earlier
generators, or convert types. Each understands views of one sort, and gives back unchanged what it
does not understand. -/

namespace AvroCodegen

namespace Filter

open Taking

/-- A result of the model inside a call. -/
def lift {α : Type} (o : Outcome α) : Taking α :=
  liftM o

/-- The record that a value is a view of. -/
def record? (v : Value) : Option (Store × Nat) :=
  match v with
  | .view (.entity store id) => (store.record? id).map (fun _ => (store, id))
  | _ => none

/-- Follows the dependencies of a record. -/
def following (closure : Store → Nat → List Nat) : Taking Value := do
  let v ← anything
  finish
  match record? v with
  | some (store, id) => return View.entities store (closure store id)
  | none => return v

/-- Expands a record; names are joined by an underscore unless a joiner is given. -/
def expanding (shown : Shown) : Taking Value := do
  let v ← anything
  let joiner ← text?
  finish
  match record? v with
  | some (store, id) =>
    return View.fields store (← lift (store.expand shown (joiner.getD "_") id))
  | none => return v

/-- Keeps some items of a list. -/
def keeping (keep : Value → Bool) : Taking Value := do
  let v ← anything
  finish
  match v with
  | .list items => return .list (items.filter keep)
  | v => return v

/-- Whether a value is a view of an enum. -/
def isEnum (v : Value) : Bool :=
  match v with
  | .view (.entity store id) => ((store.get? id).bind Entity.enum?).isSome
  | _ => false

/-- Whether a field is a list of records; nothing for other values. -/
def isRecordList? (v : Value) : Option Bool :=
  match v with
  | .view (.field _ f) => some f.type.isRecordList
  | _ => none

/-- The entity that another generator made of the same schema. -/
def counterpart (registry : Registry) : Taking Value := do
  let v ← anything
  let generator ← text
  finish
  match v with
  | .view (.entity store id) =>
    let (other, id) ← lift (registry.lookup generator (store.schemaName id))
    return .view (.entity other id)
  | v => return v

/-- The value of a token. -/
def ofToken : Token → Value
  | .text s => .text s
  | .flag b => .bool b

/-- Converts a type. -/
def converting (c : Converter) : Taking Value := do
  let v ← anything
  finish
  match v with
  | .view (.type store t) => return ofToken (← lift (c.token store t))
  | v => return v

/-- The filters of the model by name. -/
def ofModel (registry : Registry) : FilterTable :=
  [("toSnakeCase", rewriting Text.snakeCase),
   ("toCamelCase", rewriting Text.camelCase),
   ("dependenciesRecursiveAll", following Store.allDependencies),
   ("dependenciesRecursiveUpToClosestDependent", following Store.dependenciesWithinBoundary),
   ("dependenciesRecursiveToClosestDependent", following Store.dependenciesToBoundary),
   ("flattenFields", expanding .leaves),
   ("flattenRecords", expanding .records),
   ("flattenFieldsWithRecords", expanding .bracketed),
   ("enums", keeping isEnum),
   ("recordLists", keeping (fun v => (isRecordList? v).getD false)),
   ("noRecordLists", keeping (fun v => !(isRecordList? v).getD true)),
   ("from", counterpart registry)]
    ++ Converter.all.map (fun c => (c.name, converting c))

/-! ## Methods -/

/-- A text that is an argument as it stands. -/
def plainText : Taking String := do
  match ← next? with
  | none => refuse .missingArgument
  | some arg =>
    match (ofArg arg).text? with
    | some s => return s
    | none => invalid

/-- The methods of entities: the key of a record, the alias of a symbol. -/
def entityMethod (store : Store) (e : Entity) (name : String) : Taking Value :=
  match e, name with
  | .record r, "primary_key" => do
    finish
    return .view (.field store (← lift r.primaryKey))
  | .enum e, "alias" => do
    let symbol ← plainText
    finish
    return .text (← lift (e.aliasOf symbol))
  | _, _ => refuse .unknownMethod

/-- Calls a method. What a map or view shows under the name is no method. -/
def method (v : Value) (name : String) : Taking Value :=
  match v with
  | .view (.entity store id) =>
    match store.get? id with
    | some e => entityMethod store e name
    | none => refuse .unknownMethod
  | v => if (v.attribute? name).isSome then invalid else refuse .unknownMethod

end Filter

end AvroCodegen
