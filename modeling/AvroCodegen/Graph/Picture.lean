import AvroCodegen.Graph.Scope

set_option autoImplicit false

/-! # A picture of the graph

The DOT text of a graph: a box for every node, with the name of the type and its fields, a star
behind each key, and a colour for its role; an arrow for every edge, dashed for a 1-N relation. -/

namespace AvroCodegen

namespace Graph

/-- The identifier of a node: its fullname with points and hyphens turned into underscores. -/
def pictureId (fullname : String) : String :=
  String.ofList (fullname.toList.map (fun c => if c = '.' || c = '-' then '_' else c))

/-- The colour that tells the role of a node. -/
def colour (g : Graph) (i : Nat) (n : Node) : String :=
  if n.schema.kind = .enum then "#FF5722"
  else if n.isRoot then "#4CAF50"
  else if g.isDependent i then "#00BCD4"
  else if g.isOwner i then "#FF9800"
  else "#9E9E9E"

/-- The line of a field inside a box; the line break is written as backslash and letter. -/
def fieldLine (f : FieldDecl) : String :=
  "\\n" ++ f.name ++ (if f.isPrimary then " *" else "")

/-- The statement of a node. -/
def nodeLine (g : Graph) (i : Nat) (n : Node) : String :=
  let label := n.schema.name ++ String.join (n.schema.fields.map fieldLine)
  "  \"" ++ pictureId n.schema.fullname ++ "\" [label=\"" ++ label ++ "\", fillcolor=\""
    ++ g.colour i n ++ "\"];\n"

/-- The statement of an edge. -/
def edgeLine (g : Graph) (e : Edge) : String :=
  let style := match e.kind with
    | .field => ""
    | .items => " [style=dashed, label=\"1..N\"]"
  "  \"" ++ pictureId (g.fullname e.source) ++ "\" -> \"" ++ pictureId (g.fullname e.target)
    ++ "\"" ++ style ++ ";\n"

/-- The lines before the nodes. -/
def pictureHead : String :=
  "digraph SchemaGraph \x7b\n"
    ++ "  rankdir=LR;\n"
    ++ "  node [shape=box, style=\"filled,rounded\", fontname=\"Helvetica\", fontsize=10];\n"
    ++ "  edge [fontname=\"Helvetica\", fontsize=8, fontcolor=\"#808080\"];\n\n"

/-- The DOT text of a graph. -/
def picture (g : Graph) : String :=
  pictureHead ++ String.join (g.nodes.mapIdx g.nodeLine) ++ "\n"
    ++ String.join (g.edges.map g.edgeLine) ++ "\x7d\n"

end Graph

end AvroCodegen
