import AvroCodegen.Fault
import AvroCodegen.Schema.Basic

set_option autoImplicit false

/-! # The graph of a model

A node stands for a named type, an edge says that the fields of one type need another. A field
needs the record or enum that it names, or the innermost items of its array; in the second case the
record owns the items, a 1-N relation. Maps, unions and fixed types need nothing.

`Graph.add` adds a type with all it reaches. Fields are taken in order and the types they need
are completed first, so the edges of different records interleave; between two nodes there is at
most one edge, the first that was met. Roots are the records that nothing needs, judged by
`Graph.findRoots` when asked. -/

namespace AvroCodegen

/-- Why one type needs another: a plain field, or the items of an array. -/
inductive EdgeKind where
  | field
  | items
  deriving DecidableEq, Repr

/-- One type needs another. -/
structure Edge where
  source : Nat
  target : Nat
  kind : EdgeKind
  deriving DecidableEq, Repr

/-- A named type in a graph, with the nodes that own it. -/
structure Node where
  schema : NamedType
  owners : List Nat
  isRoot : Bool

/-- Nodes by number, edges in the order of their making, and the roots last found. -/
structure Graph where
  nodes : List Node
  edges : List Edge
  roots : List Nat

/-! ## What a field needs -/

/-- A record or enum of the catalog. -/
def Catalog.entity? (catalog : Catalog) (fullname : String) : Option NamedType :=
  (catalog.get? fullname).filter (fun t => t.kind ≠ .fixed)

/-- The record or enum that a schema needs, and how. -/
def Catalog.needed? (catalog : Catalog) : Schema → Option (NamedType × EdgeKind)
  | .named fullname _ => (catalog.entity? fullname).map (fun t => (t, .field))
  | .array items _ => (items.core.reference?.bind catalog.entity?).map (fun t => (t, .items))
  | _ => none

/-- What the fields of a type need, in order. -/
def Catalog.needs (catalog : Catalog) (t : NamedType) : List (NamedType × EdgeKind) :=
  t.fields.filterMap (fun f => catalog.needed? f.schema)

namespace Graph

/-- A graph without nodes. -/
def empty : Graph := ⟨[], [], []⟩

/-! ## Reading -/

/-- The number of the node of a fullname. -/
def find? (fullname : String) (g : Graph) : Option Nat :=
  g.nodes.findIdx? (fun n => n.schema.fullname = fullname)

/-- The type of a node. -/
def type? (g : Graph) (i : Nat) : Option NamedType :=
  g.nodes[i]?.map Node.schema

/-- The fullname of a node, empty outside the graph. -/
def fullname (g : Graph) (i : Nat) : String :=
  ((g.type? i).map NamedType.fullname).getD ""

/-- The fullnames of some nodes. -/
def fullnames (g : Graph) (ids : List Nat) : List String :=
  ids.map g.fullname

/-- The numbers of all nodes. -/
def ids (g : Graph) : List Nat :=
  List.range g.nodes.length

/-- What a node needs, in the order in which the edges were made. -/
def dependencies (g : Graph) (i : Nat) : List Nat :=
  (g.edges.filter (fun e => e.source = i)).map Edge.target

/-- The nodes that need a node, the newest edge first. -/
def dependents (g : Graph) (i : Nat) : List Nat :=
  ((g.edges.filter (fun e => e.target = i)).map Edge.source).reverse

/-- The records that hold a node through an array. -/
def owners (g : Graph) (i : Nat) : List Nat :=
  (g.nodes[i]?.map Node.owners).getD []

/-- Whether a node was found to be a root. -/
def isRoot (g : Graph) (i : Nat) : Bool :=
  (g.nodes[i]?.map Node.isRoot).getD false

/-- Whether some record holds the node through an array. -/
def isDependent (g : Graph) (i : Nat) : Bool :=
  !(g.owners i).isEmpty

/-- Whether a schema is an array directly of a record or enum of the graph. -/
def holdsItems (g : Graph) : Schema → Bool
  | .array (.named fullname _) _ =>
    match (g.find? fullname).bind g.type? with
    | some t => t.kind ≠ .fixed
    | none => false
  | _ => false

/-- Whether some field of the node is an array directly of a record or enum. -/
def isOwner (g : Graph) (i : Nat) : Bool :=
  match g.type? i with
  | some t => t.fields.any (fun f => g.holdsItems f.schema)
  | none => false

/-! ## Adding -/

/-- Adds a node without edges; its number is the count of nodes before. -/
def push (t : NamedType) (g : Graph) : Graph :=
  { g with nodes := g.nodes ++ [⟨t, [], false⟩] }

/-- Enters an owner of a node once. -/
def own (owner item : Nat) (g : Graph) : Graph :=
  { g with
    nodes := g.nodes.modify item (fun n =>
      if n.owners.contains owner then n else { n with owners := n.owners ++ [owner] }) }

/-- Whether an edge leads from one node to another. -/
def hasEdge (source target : Nat) (g : Graph) : Bool :=
  g.edges.any (fun e => e.source = source && e.target = target)

/-- Adds an edge unless one is there. -/
def connect (source target : Nat) (kind : EdgeKind) (g : Graph) : Graph :=
  if g.hasEdge source target then g
  else { g with edges := g.edges ++ [⟨source, target, kind⟩] }

/-- Enters that one node needs another; items also get an owner. -/
def relate (source target : Nat) (kind : EdgeKind) (g : Graph) : Graph :=
  match kind with
  | .field => g.connect source target .field
  | .items => (g.own source target).connect source target .items

/-- Adds a type that has no node yet, with all it reaches. Each nested step adds a node of its own,
so the depth never exceeds the number of types. -/
def grow (catalog : Catalog) : Nat → NamedType → Graph → Graph
  | 0, _, g => g
  | depth + 1, t, g =>
    let i := g.nodes.length
    (catalog.needs t).foldl
      (fun g need =>
        match g.find? need.1.fullname with
        | some j => g.relate i j need.2
        | none =>
          let j := g.nodes.length
          (grow catalog depth need.1 g).relate i j need.2)
      (g.push t)

/-- Adds the type of a fullname with all it reaches, and answers with its number. -/
def add (catalog : Catalog) (fullname : String) (g : Graph) : Outcome (Nat × Graph) :=
  match g.find? fullname with
  | some i => .ok (i, g)
  | none =>
    match catalog.get? fullname with
    | none => .error (.schema fullname .undefinedType)
    | some t => .ok (g.nodes.length, grow catalog (catalog.size + 1) t g)

/-- Adds several types. -/
def addAll (catalog : Catalog) : List String → Graph → Outcome Graph
  | [], g => .ok g
  | fullname :: rest, g => do
    let (_, g) ← g.add catalog fullname
    addAll catalog rest g

/-! ## Roots -/

/-- A record that nothing needs. -/
def isFree (g : Graph) (i : Nat) : Bool :=
  (g.type? i).any (fun t => t.kind = .record) && (g.dependents i).isEmpty

/-- Judges anew which nodes are roots. -/
def findRoots (g : Graph) : Graph :=
  let roots := g.ids.filter g.isFree
  { g with
    nodes := g.nodes.mapIdx (fun i n => { n with isRoot := roots.contains i })
    roots := roots }

/-- The graph of all types that a catalog lists at top level. -/
def ofCatalog (catalog : Catalog) : Outcome Graph := do
  let g ← addAll catalog catalog.topLevel empty
  return g.findRoots

end Graph

end AvroCodegen
