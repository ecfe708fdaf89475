import AvroCodegen.Dependency
import AvroCodegen.FieldType

set_option autoImplicit false

/-! # Entities

An entity is a record or an enum as one generator sees it: under the names that this generator
gives it, with its fields resolved and its relations known. A `Store` numbers the entities of a
generator from zero; wherever an entity is mentioned, it is mentioned by its number.

The dependencies of a record are what its fields need, its parents the records that need it, and its
owners the records that hold it in an array. -/

namespace AvroCodegen

/-- The names that a generator gives to a schema. -/
structure Naming where
  space : String
  name : String
  fullname : String
  deriving DecidableEq, Repr

/-- A field with its type. -/
structure Field where
  name : String
  type : FieldType

/-- Whether a field is marked as primary key. -/
def Field.isPrimary (f : Field) : Bool :=
  f.type.isPrimary

/-- A record of a generator. -/
structure RecordEntity where
  naming : Naming
  schema : NamedType
  fields : List Field
  dependencies : List Nat
  parents : List Nat
  owners : List Nat
  isRoot : Bool

namespace RecordEntity

/-- Whether some field is an array of records or enums. -/
def isOwner (r : RecordEntity) : Bool :=
  r.fields.any (fun f => (f.type.element?.bind FieldType.entity?).isSome)

/-- Whether some record holds this one in an array. -/
def isDependent (r : RecordEntity) : Bool :=
  !r.owners.isEmpty

/-- Whether some field is an array of the record with the given number. -/
def owns (r : RecordEntity) (id : Nat) : Bool :=
  r.fields.any (fun f => f.type.element?.bind FieldType.record? == some id)

/-- The one field marked as primary key. -/
def primaryKey (r : RecordEntity) : Outcome Field :=
  match r.fields.filter Field.isPrimary with
  | [field] => .ok field
  | [] => .error (.relation r.schema.fullname .noKey)
  | _ => .error (.relation r.schema.fullname .severalKeys)

end RecordEntity

/-- An enum of a generator; aliases, when there are any, pair up with the symbols. -/
structure EnumEntity where
  naming : Naming
  schema : NamedType
  symbols : List String
  aliases : Option (List String)

namespace EnumEntity

/-- The texts of a list that must hold nothing else. -/
def allTexts (fullname : String) : List Json → Outcome (List String)
  | [] => .ok []
  | .str s :: rest => do return s :: (← allTexts fullname rest)
  | _ :: _ => .error (.schema fullname .aliasesNotStrings)

/-- The aliases that the attributes of an enum declare, one for each symbol. -/
def aliasesOf (t : NamedType) : Outcome (Option (List String)) :=
  match Keyed.get? "symbol_aliases" t.props with
  | none => .ok none
  | some (.arr items) => do
    let aliases ← allTexts t.fullname items
    if aliases.length = t.symbols.length then return some aliases
    else throw (.schema t.fullname (.aliasCount aliases.length t.symbols.length))
  | some _ => .error (.schema t.fullname .aliasesNotList)

/-- The enum of a definition. -/
def ofType (naming : Naming) (t : NamedType) : Outcome EnumEntity := do
  return ⟨naming, t, t.symbols, ← aliasesOf t⟩

/-- What stands for a symbol: its alias, or itself when no aliases are declared. -/
def aliasOf (e : EnumEntity) (symbol : String) : Outcome String :=
  match e.symbols.findIdx? (fun s => s = symbol) with
  | none => .error (.schema e.schema.fullname (.unknownSymbol symbol))
  | some i => .ok ((e.aliases.bind (fun aliases => aliases[i]?)).getD symbol)

end EnumEntity

/-- A record or an enum. -/
inductive Entity where
  | record (r : RecordEntity)
  | enum (e : EnumEntity)

namespace Entity

/-- The names of an entity. -/
def naming : Entity → Naming
  | .record r => r.naming
  | .enum e => e.naming

/-- The definition of an entity. -/
def schema : Entity → NamedType
  | .record r => r.schema
  | .enum e => e.schema

/-- The word for the kind of an entity. -/
def kindWord : Entity → String
  | .record _ => "record"
  | .enum _ => "enum"

/-- The record, if it is one. -/
def record? : Entity → Option RecordEntity
  | .record r => some r
  | .enum _ => none

/-- The enum, if it is one. -/
def enum? : Entity → Option EnumEntity
  | .enum e => some e
  | .record _ => none

end Entity

/-- The entities of a generator, by number. -/
structure Store where
  generator : String
  entities : List Entity

namespace Store

/-- A store without entities. -/
def empty (generator : String) : Store := ⟨generator, []⟩

/-- How many entities there are. -/
def size (s : Store) : Nat :=
  s.entities.length

/-- The numbers of all entities. -/
def ids (s : Store) : List Nat :=
  List.range s.size

/-- The entity of a number. -/
def get? (s : Store) (id : Nat) : Option Entity :=
  s.entities[id]?

/-- The record of a number. -/
def record? (s : Store) (id : Nat) : Option RecordEntity :=
  (s.get? id).bind Entity.record?

theorem record?_eq_some {s : Store} {id : Nat} {r : RecordEntity} :
    s.record? id = some r ↔ s.get? id = some (.record r) := by
  unfold record?
  cases s.get? id with
  | none => simp
  | some e => cases e <;> simp [Entity.record?]

theorem lt_size_of_get? {s : Store} {id : Nat} {e : Entity} (h : s.get? id = some e) :
    id < s.size :=
  (List.getElem?_eq_some_iff.1 h).1

/-- The number of the last entity with a schema of the given fullname. -/
def find? (s : Store) (fullname : String) : Option Nat :=
  s.ids.reverse.find? (fun id => ((s.get? id).map (fun e => e.schema.fullname)) = some fullname)

/-- The fullname of the schema of an entity, empty outside the store. -/
def schemaName (s : Store) (id : Nat) : String :=
  ((s.get? id).map (fun e => e.schema.fullname)).getD ""

theorem schemaName_of_record? {s : Store} {id : Nat} {r : RecordEntity}
    (h : s.record? id = some r) : s.schemaName id = r.schema.fullname := by
  simp [schemaName, record?_eq_some.1 h, Entity.schema]

/-- What an entity depends on; an enum depends on nothing. -/
def dependencies (s : Store) (id : Nat) : List Nat :=
  ((s.record? id).map RecordEntity.dependencies).getD []

/-- The store for walking, keyed by the fullnames of schemas. -/
def walkable (s : Store) : DependencyGraph Nat :=
  ⟨s.ids, s.schemaName, s.dependencies⟩

end Store

end AvroCodegen
