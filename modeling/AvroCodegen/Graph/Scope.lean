import AvroCodegen.Dependency
import AvroCodegen.Graph.Basic

set_option autoImplicit false

/-! # Scope and keys

The scope of a run is all that the roots need, dependencies first, and then the roots themselves.

Records in a 1-N relation are found by their keys: the record on either side must mark exactly one
field as `primary`, on the field itself or on its type. -/

namespace AvroCodegen

namespace Graph

/-- The graph for walking, keyed by fullname. -/
def walkable (g : Graph) : DependencyGraph Nat :=
  ⟨g.ids, g.fullname, g.dependencies⟩

/-- What some nodes need, dependencies first. -/
def flatten (g : Graph) (starts : List Nat) : List Nat :=
  g.walkable.flatten starts

/-- All that the roots need and the roots, in the order of work. -/
def scope (g : Graph) : List Nat :=
  let needed := g.flatten g.roots
  needed ++ g.roots.filter (fun i => !needed.contains i)

end Graph

/-! ## Primary keys -/

/-- Whether a field is marked as primary key, on itself or on its type. -/
def FieldDecl.isPrimary (f : FieldDecl) : Bool :=
  f.props.isPrimary || f.schema.marks.props.isPrimary

/-- The fields marked as primary key. -/
def NamedType.primaryFields (t : NamedType) : List FieldDecl :=
  t.fields.filter FieldDecl.isPrimary

/-- A record of a 1-N relation marks exactly one field. -/
def NamedType.checkKey (t : NamedType) : Outcome Unit :=
  match t.primaryFields.length with
  | 0 => .error (.relation t.fullname .noKeyInRelation)
  | 1 => .ok ()
  | n => .error (.relation t.fullname (.keysInRelation n))

namespace Graph

/-- The records whose keys count: each owned record, followed by its owners. -/
def keyed (g : Graph) : List NamedType :=
  g.nodes.flatMap fun n =>
    if n.schema.kind = .record && !n.owners.isEmpty then
      n.schema :: n.owners.filterMap g.type?
    else []

/-- Every record of a 1-N relation marks exactly one field. -/
def checkKeys (g : Graph) : Outcome Unit :=
  g.keyed.forM NamedType.checkKey

end Graph

end AvroCodegen
