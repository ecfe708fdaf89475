set_option autoImplicit false

/-! # Dependencies before dependents

A `DependencyGraph` lists nodes, each with a key and its direct dependencies. `flatten` walks it
depth first from some starts and records what it reaches. A node is entered once; its dependencies
are taken in order, and each is recorded after it has been walked itself, so what a node needs
stands before it. A node without dependencies is recorded without being entered. The starts are not
recorded unless a walk reaches them.

Every entry adds a new key, so a walk never nests deeper than there are nodes; that bounds the
recursion. -/

namespace AvroCodegen

/-- Nodes with keys and direct dependencies. -/
structure DependencyGraph (ι : Type) where
  nodes : List ι
  key : ι → String
  dependencies : ι → List ι

/-- What a walk has entered, by key, and what it has recorded, in order. -/
structure Walk (ι : Type) where
  entered : List String
  recorded : List ι

namespace DependencyGraph

variable {ι : Type} (g : DependencyGraph ι)

/-- Nothing entered and nothing recorded. -/
def start : Walk ι := ⟨[], []⟩

/-- Marks a node as entered. -/
def enter (i : ι) (w : Walk ι) : Walk ι :=
  { w with entered := g.key i :: w.entered }

/-- Whether a node was entered. -/
def isEntered (i : ι) (w : Walk ι) : Bool :=
  w.entered.contains (g.key i)

/-- Whether a node was recorded. -/
def isRecorded (i : ι) (w : Walk ι) : Bool :=
  w.recorded.any (fun j => g.key j = g.key i)

/-- Puts a node at the end of the record, unless it stands there already. -/
def record (i : ι) (w : Walk ι) : Walk ι :=
  if g.isRecorded i w then w else { w with recorded := w.recorded ++ [i] }

/-- Walks what a node depends on. -/
def descend : Nat → ι → Walk ι → Walk ι
  | 0, _, w => w
  | depth + 1, i, w =>
    if g.isEntered i w then w
    else (g.dependencies i).foldl
      (fun w j => g.record j (if (g.dependencies j).isEmpty then w else descend depth j w))
      (g.enter i w)

/-- The nodes reached from the starts, each once, dependencies first. -/
def flatten (starts : List ι) : List ι :=
  (starts.foldl (fun w i => g.descend (g.nodes.length + 1) i w) start).recorded

/-! ## Laws of a step -/

theorem isEntered_enter (i : ι) (w : Walk ι) : g.isEntered i (g.enter i w) = true := by
  simp [isEntered, enter]

end DependencyGraph

end AvroCodegen
