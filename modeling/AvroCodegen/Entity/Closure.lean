import AvroCodegen.Entity.Basic

set_option autoImplicit false

/-! # Closures of dependencies

What a record depends on, followed further. `allDependencies` follows everything. The two bounded
closures stop where a walked record owns what it depends on: they walk through the other records
without collecting them and collect enums; at the boundary, `dependenciesToBoundary` collects the
owned record and `dependenciesWithinBoundary` does not. Each record is walked once.

Whether a dependency is a boundary depends on the record that is walked: the same record may be
owned here and walked through there. -/

namespace AvroCodegen

/-- The records walked and the entities collected, in order. -/
structure Gathering where
  walked : List Nat
  collected : List Nat

namespace Gathering

/-- Collects an entity once. -/
def collect (id : Nat) (b : Gathering) : Gathering :=
  if b.collected.contains id then b else { b with collected := b.collected ++ [id] }

/-- Marks a record as walked. -/
def mark (id : Nat) (b : Gathering) : Gathering :=
  { b with walked := id :: b.walked }

theorem mem_collect (id : Nat) (b : Gathering) : id ∈ (b.collect id).collected := by
  unfold collect
  split
  · rename_i h
    exact List.contains_iff_mem.mp h
  · simp

end Gathering

namespace Store

/-- Gathers from the dependencies of a record. Each nested step marks a record that was not marked,
so the depth never exceeds the number of entities. -/
def gather (s : Store) (inclusive : Bool) : Nat → Nat → Gathering → Gathering
  | 0, _, b => b
  | depth + 1, id, b =>
    match s.record? id with
    | none => b
    | some r =>
      r.dependencies.foldl
        (fun b d =>
          match s.get? d with
          | none => b
          | some (.enum _) => b.collect d
          | some (.record _) =>
            if r.owns d then (if inclusive then b.collect d else b)
            else if b.walked.contains d then b
            else gather s inclusive depth d (b.mark d))
        b

/-- The bounded closure of a record, with or without the records at the boundary. -/
def bounded (s : Store) (inclusive : Bool) (id : Nat) : List Nat :=
  (s.gather inclusive (s.size + 1) id ⟨[id], []⟩).collected

/-- All that a record depends on, dependencies first. -/
def allDependencies (s : Store) (id : Nat) : List Nat :=
  s.walkable.flatten [id]

/-- What a record depends on before the next 1-N relation. -/
def dependenciesWithinBoundary (s : Store) (id : Nat) : List Nat :=
  s.bounded false id

/-- What a record depends on up to the next 1-N relation and including it. -/
def dependenciesToBoundary (s : Store) (id : Nat) : List Nat :=
  s.bounded true id

end Store

end AvroCodegen
