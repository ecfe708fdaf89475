import AvroCodegen.Entity.Basic

set_option autoImplicit false

/-! # The registry

The stores of the generators that have finished, by name in the order of their finishing. A store is
published once and never changed; later generators find in it what an earlier one made of a
schema. -/

namespace AvroCodegen

/-- The published stores, the oldest first. -/
structure Registry where
  stores : Keyed Store

namespace Registry

/-- Nothing published. -/
def empty : Registry := ⟨[]⟩

/-- The names of the published stores. -/
def names (r : Registry) : List String :=
  Keyed.keys r.stores

/-- Whether a store is published under the name. -/
def has (r : Registry) (name : String) : Bool :=
  Keyed.has name r.stores

/-- Publishes a store under a name that is not taken. -/
def publish (r : Registry) (name : String) (store : Store) : Outcome Registry :=
  if r.has name then .error (.setup (.publishedTwice name))
  else .ok ⟨r.stores ++ [(name, store)]⟩

/-- The store of a name. -/
def store (r : Registry) (name : String) : Outcome Store :=
  match Keyed.get? name r.stores with
  | some s => .ok s
  | none => .error (.unknownGenerator name r.names)

/-- The entity that a generator made of a schema. -/
def lookup (r : Registry) (generator fullname : String) : Outcome (Store × Nat) := do
  let s ← r.store generator
  match s.find? fullname with
  | some id => return (s, id)
  | none => throw (.setup (.noEntity generator fullname))

end Registry

end AvroCodegen
