import AvroCodegen.Proofs.ScopeMembers

set_option autoImplicit false

/-! # Roots of a graph that is still growing

A root is entered in the list of the graph and marked on its own node, and both are written only
when the roots are judged. In between the graph grows, so what was a root then may be needed by now.

The other way round there is nothing to fear: types and edges are only ever added (`Keeps`), so what
is needed once is needed for good, and a node that was judged no root is none at any later time
(`Passed`). `edits_rooted` says both of every order in which names are added and roots judged. -/

namespace AvroCodegen

namespace Graph

variable {c : Catalog} {g g' g'' : Graph} {i : Nat}

/-! ## What can be done to a graph -/

/-- A name is added, or the roots are judged anew. -/
inductive Edit where
  | add (fullname : String)
  | findRoots

/-- The graph after an edit. A name that cannot be added changes nothing. -/
def Edit.run (c : Catalog) : Edit → Graph → Graph
  | .add fullname, g =>
    match g.add c fullname with
    | .ok (_, g') => g'
    | .error _ => g
  | .findRoots, g => g.findRoots

/-- The graph after several edits. -/
def afterEdits (c : Catalog) (edits : List Edit) (g : Graph) : Graph :=
  edits.foldl (fun g e => e.run c g) g

/-! ## Types and edges stay -/

/-- A graph has kept the types and edges of one before. -/
structure Keeps (g g' : Graph) : Prop where
  types : g.types <+: g'.types
  edges : g.edges <+: g'.edges

/-- It has not judged its roots since. -/
structure KeepsRoots (g g' : Graph) : Prop extends Keeps g g' where
  marks : ∀ i, g'.isRoot i = g.isRoot i
  roots : g'.roots = g.roots

theorem KeepsRoots.refl (g : Graph) : KeepsRoots g g :=
  ⟨⟨List.prefix_refl _, List.prefix_refl _⟩, fun _ => rfl, rfl⟩

theorem KeepsRoots.trans (h : KeepsRoots g g') (h' : KeepsRoots g' g'') : KeepsRoots g g'' where
  types := h.types.trans h'.types
  edges := h.edges.trans h'.edges
  marks := fun i => (h'.marks i).trans (h.marks i)
  roots := h'.roots.trans h.roots

theorem keepsRoots_push (t : NamedType) (g : Graph) : KeepsRoots g (g.push t) where
  types := (types_push t g).symm ▸ List.prefix_append _ _
  edges := List.prefix_refl _
  marks := by
    intro i
    unfold isRoot push
    rcases Nat.lt_trichotomy i g.nodes.length with hi | hi | hi
    · simp [List.getElem?_append_left hi]
    · simp [hi]
    · rw [List.getElem?_eq_none (by simp; omega), List.getElem?_eq_none (by omega)]
  roots := rfl

theorem isRoot_own (i j k : Nat) (g : Graph) : (g.own i j).isRoot k = g.isRoot k := by
  unfold isRoot own
  rw [List.getElem?_modify]
  by_cases hk : j = k
  · subst hk
    cases g.nodes[j]? with
    | none => rfl
    | some n =>
        simp only [if_true, Option.map_eq_map, Option.map_some]
        split <;> rfl
  · simp [hk]

theorem keepsRoots_connect (i j : Nat) (kind : EdgeKind) (g : Graph) :
    KeepsRoots g (g.connect i j kind) where
  types := (types_connect i j kind g).symm ▸ List.prefix_refl _
  edges := by
    rw [edges_connect]
    split
    · exact List.prefix_refl _
    · exact List.prefix_append _ _
  marks := fun k => by rw [isRoot, nodes_connect, isRoot]
  roots := by
    unfold connect
    split <;> rfl

theorem keepsRoots_relate (i j : Nat) (kind : EdgeKind) (g : Graph) :
    KeepsRoots g (g.relate i j kind) := by
  cases kind with
  | field => exact keepsRoots_connect i j .field g
  | items =>
      have hown : KeepsRoots g (g.own i j) :=
        ⟨⟨(types_own i j g).symm ▸ List.prefix_refl _, List.prefix_refl _⟩,
          fun k => isRoot_own i j k g, rfl⟩
      exact hown.trans (keepsRoots_connect i j .items _)

theorem keepsRoots_foldl {α : Type} {f : Graph → α → Graph} (hf : ∀ g a, KeepsRoots g (f g a))
    (as : List α) : ∀ g, KeepsRoots g (as.foldl f g) := by
  induction as with
  | nil => exact KeepsRoots.refl
  | cons a as ih => exact fun g => (hf g a).trans (ih (f g a))

theorem keepsRoots_grow (c : Catalog) (depth : Nat) :
    ∀ (t : NamedType) (g : Graph), KeepsRoots g (grow c depth t g) := by
  induction depth with
  | zero => exact fun t g => .refl g
  | succ depth ih =>
      intro t g
      rw [grow_succ]
      refine (keepsRoots_push t g).trans (keepsRoots_foldl (fun g need => ?_) _ _)
      unfold takeNeed
      split
      · exact keepsRoots_relate _ _ _ g
      · exact (ih need.1 g).trans (keepsRoots_relate _ _ _ _)

theorem keepsRoots_add (c : Catalog) (fullname : String) (g : Graph) :
    KeepsRoots g ((Edit.add fullname).run c g) := by
  simp only [Edit.run, add]
  cases g.find? fullname with
  | some i => exact .refl g
  | none =>
      cases c.get? fullname with
      | none => exact .refl g
      | some t => exact keepsRoots_grow c _ t g

/-! ## What is needed stays needed -/

theorem Keeps.dependencies_subset (h : Keeps g g') (j : Nat) :
    g.dependencies j ⊆ g'.dependencies j :=
  List.map_subset _ (List.filter_subset _ h.edges.subset)

/-- A node that is free was free before, if it was there. -/
theorem Keeps.isFree (h : Keeps g g') (hi : i < g.nodes.length) (hfree : g'.isFree i = true) :
    g.isFree i = true := by
  rw [isFree_iff, kind?, type?_of_types h.types hi] at hfree
  exact isFree_iff.2 ⟨hfree.1, fun j hj => hfree.2 j (h.dependencies_subset j hj)⟩

/-! ## Judging roots -/

theorem mem_roots_findRoots : i ∈ g.findRoots.roots ↔ g.isFree i = true := by
  show i ∈ g.ids.filter g.isFree ↔ _
  rw [List.mem_filter]
  refine ⟨And.right, fun hfree => ⟨?_, hfree⟩⟩
  exact List.mem_range.2 (lt_of_kind? (isFree_iff.1 hfree).1)

theorem isRoot_findRoots : g.findRoots.isRoot i = true ↔ i ∈ g.findRoots.roots := by
  have hmark : g.findRoots.isRoot i =
      (g.nodes[i]?.map fun _ => g.findRoots.roots.contains i).getD false := by
    simp only [isRoot, findRoots, List.getElem?_mapIdx, Option.map_map]
    rfl
  rw [hmark]
  by_cases hi : i < g.nodes.length
  · rw [List.getElem?_eq_getElem hi, Option.map_some, Option.getD_some, List.contains_iff_mem]
  · rw [List.getElem?_eq_none (Nat.le_of_not_lt hi)]
    refine iff_of_false (by simp) fun hroot => hi ?_
    exact lt_of_kind? (isFree_iff.1 (mem_roots_findRoots.1 hroot)).1

/-- Roots that were just judged are the same when judged again. -/
theorem findRoots_findRoots (g : Graph) : g.findRoots.findRoots = g.findRoots := by
  show (⟨g.findRoots.nodes.mapIdx fun i n =>
      { n with isRoot := (g.findRoots.ids.filter g.findRoots.isFree).contains i }, g.edges,
      g.findRoots.ids.filter g.findRoots.isFree⟩ : Graph) = _
  rw [← roots_findRoots]
  have hnodes : g.findRoots.nodes =
      g.nodes.mapIdx fun i n => { n with isRoot := g.findRoots.roots.contains i } := rfl
  rw [hnodes, List.mapIdx_mapIdx]
  rfl

/-! ## A step and a run -/

/-- A node that is there, is needed or no record, and is not entered as a root. -/
structure Passed (g : Graph) (i : Nat) : Prop where
  lt : i < g.nodes.length
  bound : ¬ g.isFree i = true
  unlisted : i ∉ g.roots

/-- The marks are those of the roots that are entered. -/
def Marked (g : Graph) : Prop :=
  ∀ i, g.isRoot i = true ↔ i ∈ g.roots

theorem keeps_run (c : Catalog) (edit : Edit) (g : Graph) : Keeps g (edit.run c g) := by
  cases edit with
  | add fullname => exact (keepsRoots_add c fullname g).toKeeps
  | findRoots => exact ⟨(types_findRoots g).symm ▸ List.prefix_refl _, List.prefix_refl _⟩

theorem Marked.run (h : g.Marked) (c : Catalog) (edit : Edit) : (edit.run c g).Marked := by
  cases edit with
  | add fullname =>
      intro i
      have hkeeps := keepsRoots_add c fullname g
      rw [hkeeps.marks, hkeeps.roots]
      exact h i
  | findRoots => exact fun i => isRoot_findRoots

theorem Passed.run (h : g.Passed i) (c : Catalog) (edit : Edit) : (edit.run c g).Passed i where
  lt := Nat.lt_of_lt_of_le h.lt (length_le_of_types (keeps_run c edit g).types)
  -- an edit takes away no edge, so what is needed now is needed afterwards
  bound := fun hfree => h.bound ((keeps_run c edit g).isFree h.lt hfree)
  unlisted := by
    cases edit with
    | add fullname =>
        rw [(keepsRoots_add c fullname g).roots]
        exact h.unlisted
    | findRoots => exact fun hroot => h.bound (mem_roots_findRoots.1 hroot)

theorem keeps_afterEdits (c : Catalog) (edits : List Edit) :
    ∀ g : Graph, Keeps g (afterEdits c edits g) := by
  induction edits with
  | nil => exact fun g => (KeepsRoots.refl g).toKeeps
  | cons edit edits ih =>
      intro g
      have hfirst := keeps_run c edit g
      have hrest := ih (edit.run c g)
      exact ⟨hfirst.types.trans hrest.types, hfirst.edges.trans hrest.edges⟩

theorem Marked.afterEdits (c : Catalog) (edits : List Edit) :
    ∀ {g : Graph}, g.Marked → (g.afterEdits c edits).Marked := by
  induction edits with
  | nil => exact fun h => h
  | cons edit edits ih => exact fun h => ih (h.run c edit)

theorem Passed.afterEdits (c : Catalog) (edits : List Edit) :
    ∀ {g : Graph}, g.Passed i → (g.afterEdits c edits).Passed i := by
  induction edits with
  | nil => exact fun h => h
  | cons edit edits ih => exact fun h => ih (h.run c edit)

/-! ## Result -/

/-- What holds of the roots of a graph at any time: those that are entered are those that are
    marked, and how they come out once they are judged. -/
structure Rooted (c : Catalog) (g : Graph) : Prop where
  marked : ∀ i, g.isRoot i = true ↔ i ∈ g.roots
  /-- A root is a record that no node depends on, itself included. -/
  found : ∀ i, i ∈ g.findRoots.roots ↔
    g.findRoots.kind? i = some .record ∧ ∀ j, i ∉ g.findRoots.dependencies j
  ascend : g.findRoots.roots.Pairwise (· < ·)
  again : g.findRoots.findRoots = g.findRoots
  /-- What is there and is no root is the same node later and still no root, whatever is added. -/
  past : ∀ i < g.nodes.length, i ∉ g.findRoots.roots → ∀ later,
    (afterEdits c later g.findRoots).type? i = g.type? i ∧
      i ∉ (afterEdits c later g.findRoots).roots

theorem Marked.rooted (h : g.Marked) (c : Catalog) : g.Rooted c where
  marked := h
  found := fun i => by rw [mem_roots_findRoots, ← isFree_findRoots, isFree_iff]
  ascend := List.pairwise_lt_range.filter _
  again := findRoots_findRoots g
  past := by
    intro i hi hroot later
    have hpassed : g.findRoots.Passed i :=
      ⟨by rwa [length_findRoots],
        fun hfree => hroot (mem_roots_findRoots.2 (by rwa [← isFree_findRoots])), hroot⟩
    refine ⟨?_, (hpassed.afterEdits c later).unlisted⟩
    rw [type?_of_types (keeps_afterEdits c later g.findRoots).types hpassed.lt]
    exact type?_of_types (keeps_run c .findRoots g).types hi

/-- **What is said of roots holds at all times.** In whatever order names are added to an empty
    graph and its roots are judged, marks and list agree; judging finds just the records that nothing
    needs, and finds no others when repeated; and what it has passed over never becomes a root. -/
theorem edits_rooted (c : Catalog) (edits : List Edit) : (afterEdits c edits empty).Rooted c := by
  have hempty : empty.Marked := by simp [Marked, isRoot, empty]
  exact (hempty.afterEdits c edits).rooted c

end Graph

end AvroCodegen
