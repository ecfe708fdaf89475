import AvroCodegen.Keyed

set_option autoImplicit false

/-! # YAML nodes

A YAML node is a scalar, a list or a map. What a scalar means is up to who reads it; so a scalar
keeps its text, whether it was written without quotes, and its tag. Where nothing is written there
is an empty scalar without quotes.

A node may bear an anchor and may then stand in several places, also inside itself. So a place
refers to a node by the number of its anchor, and a document keeps the nodes of all anchors beside
its root. No node with an anchor is itself only a reference; hence one look-up leads to a node. -/

namespace AvroCodegen

/-- A node of a YAML document. -/
inductive Yaml where
  | scalar (text : String) (plain : Bool) (kind : Option String)
  | list (items : List Yaml)
  | map (pairs : List (Yaml × Yaml))
  | reference (anchor : Nat)

namespace Yaml

/-- The node where nothing is written. -/
def absent : Yaml := .scalar "" true none

instance : Inhabited Yaml := ⟨absent⟩

/-- Whether a node is an empty scalar without quotes. -/
def isEmpty : Yaml → Bool
  | .scalar text plain _ => plain && text.isEmpty
  | _ => false

end Yaml

/-- The anchors of a document. A name has the number of the anchor that bore it last. A number has
the last place where it was given away; the places are numbered, too, and each gets its node when
the node is complete. Both lists have the latest entry in front. -/
structure Anchors where
  numbers : Keyed Nat
  places : List (Nat × Nat)
  nodes : List (Nat × Yaml)

namespace Anchors

/-- No anchors. -/
def none : Anchors := ⟨[], [], []⟩

/-- Gives a name to a node that begins, with the place of the node. The number is the number of
names so far. -/
def declare (name : String) (anchors : Anchors) : Nat × Anchors :=
  let place := anchors.places.length
  let number := anchors.numbers.length
  (place, { anchors with
    numbers := anchors.numbers.put name number, places := (number, place) :: anchors.places })

/-- Keeps the node of a place. -/
def complete (place : Nat) (node : Yaml) (anchors : Anchors) : Anchors :=
  { anchors with nodes := (place, node) :: anchors.nodes }

/-- The node of an anchor. -/
def node? (anchor : Nat) (anchors : Anchors) : Option Yaml := do
  anchors.nodes.lookup (← anchors.places.lookup anchor)

end Anchors

/-- A document of one node. -/
structure Yaml.Document where
  root : Yaml
  anchors : Anchors

end AvroCodegen
