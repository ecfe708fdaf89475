import AvroCodegen.Entity.Basic
import AvroCodegen.Graph.Scope

set_option autoImplicit false

/-! # Building a store

A store is built over a list of graph nodes with names. Fixed types are passed over; every other
node becomes an entity, numbered in list order. If a fullname comes more than once, each
occurrence is an entity and references go to the last.

First every definition is resolved on its own, the fields of records and the aliases of enums. Then
the entities exist and each record in turn takes its relations from the graph: the dependencies and
owners that are in the list become its own, and it becomes a parent of what it depends on, which may
be itself. -/

namespace AvroCodegen

/-- A node of the graph with its type and the names it is to have. -/
structure Placed where
  node : Nat
  type : NamedType
  naming : Naming

namespace Entity

/-- Enters a parent of a record unless it is there; an enum has no parents. -/
def addParent (parent : Nat) : Entity → Entity
  | .record r =>
    .record (if r.parents.contains parent then r else { r with parents := r.parents ++ [parent] })
  | .enum e => .enum e

/-- Enters what a record depends on and what owns it; an enum has no relations. -/
def setRelations (dependencies owners : List Nat) : Entity → Entity
  | .record r => .record { r with dependencies := dependencies, owners := owners }
  | .enum e => .enum e

end Entity

namespace Store

/-- The nodes that become entities. -/
def placed (g : Graph) (scope : List (Nat × Naming)) : List Placed :=
  scope.filterMap fun (i, naming) =>
    match g.type? i with
    | some t => if t.kind = .fixed then none else some ⟨i, t, naming⟩
    | none => none

/-- The number of the last placed node with the given fullname. -/
def idAmong (ps : List Placed) (fullname : String) : Option Nat :=
  (List.range ps.length).reverse.find?
    (fun id => (ps[id]?.map (fun p => p.type.fullname)) = some fullname)

/-- Resolves the fields of a record; a problem is located at its field. -/
def fieldsOf (catalog : Catalog) (idOf : String → Option Nat) (t : NamedType) :
    Outcome (List Field) :=
  t.fields.mapM fun f => do
    let type ← (FieldType.resolve catalog idOf f.props f.schema).mapError
      (.schema (t.fullname ++ "." ++ f.name))
    return ⟨f.name, type⟩

/-- An entity without its relations. -/
def draft (catalog : Catalog) (g : Graph) (idOf : String → Option Nat) (p : Placed) :
    Outcome Entity := do
  if p.type.kind = .enum then
    return .enum (← EnumEntity.ofType p.naming p.type)
  else
    return .record ⟨p.naming, p.type, ← fieldsOf catalog idOf p.type, [], [], [], g.isRoot p.node⟩

/-- The placed nodes among the nodes that a placed node depends on. -/
def linksOf (g : Graph) (idOf : String → Option Nat) (p : Placed) : List Nat :=
  (g.dependencies p.node).filterMap (fun j => idOf (g.fullname j))

/-- The placed owners of a placed node, all of which must be records. -/
def ownersOf (g : Graph) (idOf : String → Option Nat) (isRecord : Nat → Bool) (p : Placed) :
    Outcome (List Nat) :=
  ((g.owners p.node).filterMap (fun j => (idOf (g.fullname j)).map (fun id => (j, id)))).mapM
    fun (j, id) =>
      if isRecord id then .ok id
      else .error (.relation (g.fullname j) (.ownerNotRecord p.type.fullname))

/-- Whether the entity of a number is a record. -/
def isRecord (entities : List Entity) (id : Nat) : Bool :=
  ((entities[id]?).bind Entity.record?).isSome

/-- Enters the relations of one placed node: its links and owners with itself, and itself as a parent
with each record that it is linked to. An enum has no relations. -/
def wire (g : Graph) (idOf : String → Option Nat) (entities : List Entity) (place : Placed × Nat) :
    Outcome (List Entity) :=
  let (p, id) := place
  if isRecord entities id then do
    let links := linksOf g idOf p
    let owners ← ownersOf g idOf (isRecord entities) p
    let entities := links.foldl (fun es link => es.modify link (Entity.addParent id)) entities
    return entities.modify id (Entity.setRelations links owners)
  else
    return entities

/-- The store of a generator over nodes with names. -/
def build (generator : String) (g : Graph) (catalog : Catalog) (scope : List (Nat × Naming)) :
    Outcome Store := do
  let ps := placed g scope
  let idOf := idAmong ps
  let drafts ← ps.mapM (draft catalog g idOf)
  return ⟨generator, ← ps.zipIdx.foldlM (wire g idOf) drafts⟩

end Store

end AvroCodegen
