import AvroCodegen.Template.Value

set_option autoImplicit false

/-! # What views show

The attributes of the parts of a model, as a template reads them. A view may show more than the keys
it lists: the symbols of an enum definition, and what belongs to one sort of type only. A loop shows
where it is in the same way. -/

namespace AvroCodegen

namespace View

/-- Views of entities. -/
def entities (store : Store) (ids : List Nat) : Value :=
  .list (ids.map (fun id => .view (.entity store id)))

/-- Views of fields. -/
def fields (store : Store) (fs : List Field) : Value :=
  .list (fs.map (fun f => .view (.field store f)))

/-- A text or none. -/
def optional (s : Option String) : Value :=
  match s with
  | some s => .text s
  | none => .none

/-- What a definition shows. -/
def schemaAttribute? (t : NamedType) (key : String) : Option Value :=
  match key with
  | "name" => some (.text t.name)
  | "namespace" => some (.text t.spaceText)
  | "fullname" => some (.text t.fullname)
  | "doc" => some (optional t.doc)
  | "kind" => some (.text t.kind.word)
  | "props" => some (Value.ofJson (.obj t.props))
  | "symbols" => if t.kind = .enum then some (Value.ofTexts t.symbols) else none
  | _ => none

/-- What every entity shows. -/
def commonAttribute? (e : Entity) (key : String) : Option Value :=
  match key with
  | "namespace" => some (.text e.naming.space)
  | "name" => some (.text e.naming.name)
  | "fullname" => some (.text e.naming.fullname)
  | "kind" => some (.text e.kindWord)
  | "schema" => some (.view (.schema e.schema))
  | _ => none

/-- What a record shows. -/
def recordAttribute? (store : Store) (r : RecordEntity) (key : String) : Option Value :=
  match key with
  | "fields" => some (fields store r.fields)
  | "dependencies" => some (entities store r.dependencies)
  | "parents" => some (entities store r.parents)
  | "owners" => some (entities store r.owners)
  | "is_root" => some (.bool r.isRoot)
  | "is_owner" => some (.bool r.isOwner)
  | "is_dependent" => some (.bool r.isDependent)
  | _ => none

/-- What an enum shows. -/
def enumAttribute? (e : EnumEntity) (key : String) : Option Value :=
  match key with
  | "symbols" => some (Value.ofTexts e.symbols)
  | "aliases" =>
    match e.aliases with
    | some aliases => some (Value.ofTexts aliases)
    | none => some .none
  | _ => none

/-- What an entity shows. -/
def entityAttribute? (store : Store) (e : Entity) (key : String) : Option Value :=
  match commonAttribute? e key with
  | some v => some v
  | none =>
    match e with
    | .record r => recordAttribute? store r key
    | .enum e => enumAttribute? e key

/-- What a field shows. -/
def fieldAttribute? (store : Store) (f : Field) (key : String) : Option Value :=
  match key with
  | "name" => some (.text f.name)
  | "type" => some (.view (.type store f.type))
  | "is_primary" => some (.bool f.isPrimary)
  | _ => none

/-- What one sort of plain type shows. -/
def plainAttribute? (store : Store) (p : PlainType) (key : String) : Option Value :=
  match p, key with
  | .record id, "entity" => some (.view (.entity store id))
  | .enum id, "entity" => some (.view (.entity store id))
  | .datetime format, "format" => some (.text format)
  | .decimal precision _, "precision" => some (.int precision)
  | .decimal _ scale, "scale" => some (.int scale)
  | .fixed size, "size" => some (.int size)
  | _, _ => none

/-- What one sort of type shows. -/
def sortAttribute? (store : Store) (t : FieldType) (key : String) : Option Value :=
  match t, key with
  | .plain p _, key => plainAttribute? store p key
  | .array element _, "element" => some (.view (.type store element))
  | .union members _, "members" => some (.list (members.map (fun m => .view (.type store m))))
  | .close opened, "of" => some (.view (.type store opened))
  | _, _ => none

/-- What a type shows. -/
def typeAttribute? (store : Store) (t : FieldType) (key : String) : Option Value :=
  match key with
  | "name" => some (.text t.name)
  | "props" => some (Value.ofJson (.obj t.props))
  | "is_primary" => some (.bool t.isPrimary)
  | key => sortAttribute? store t key

/-- What a view shows under a key. -/
def attribute? (v : View) (key : String) : Option Value :=
  match v with
  | .schema t => schemaAttribute? t key
  | .entity store id => (store.get? id).bind (fun e => entityAttribute? store e key)
  | .field store f => fieldAttribute? store f key
  | .type store t => typeAttribute? store t key

end View

namespace LoopPlace

/-- What a loop shows of where it is; what depends on a size that is not known is undefined. -/
def attribute? (p : LoopPlace) (previous next : Value) (key : String) : Option Value :=
  let count := fun (n : Nat) => Value.int n
  let sized := fun (f : Nat → Nat) => (p.size.map (fun n => count (f n))).getD .missing
  match key with
  | "index0" => some (count p.index)
  | "index" => some (count (p.index + 1))
  | "length" => some (sized id)
  | "revindex" => some (sized (fun n => n - p.index))
  | "revindex0" => some (sized (fun n => n - p.index - 1))
  | "first" => some (.bool (p.index = 0))
  | "last" => some (.bool (p.size = some (p.index + 1)))
  | "depth" => some (count (p.depth + 1))
  | "depth0" => some (count p.depth)
  | "previtem" => some previous
  | "nextitem" => some next
  | _ => none

end LoopPlace

namespace Value

/-- What is shown under a key by what is no plain map but looks like one. -/
def shown? (v : Value) (key : String) : Option Value :=
  match v with
  | .view w => w.attribute? key
  | .loop place previous next => place.attribute? previous next key
  | _ => Option.none

/-- The pairs of a map, and those that a view or a loop lists of itself. -/
def pairs? (v : Value) : Option (List (Value × Value)) :=
  let listed := fun (keys : List String) =>
    keys.map (fun k => (Value.text k, (v.shown? k).getD .missing))
  match v with
  | .map pairs => some pairs
  | .view w => some (listed w.keys)
  | .loop _ _ _ => some (listed LoopPlace.keys)
  | _ => Option.none

end Value

end AvroCodegen
