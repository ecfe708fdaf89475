import AvroCodegen.Proofs.ScopeOfWork

set_option autoImplicit false

/-! # What the scope of work holds

What is not in the scope is never generated. The scope holds the roots and what they reach, so a
record that is neither is lost without a word. Going up from a record, along what depends on it,
only records are met, and the way ends at one on which nothing depends, or it meets a cycle: a root
is found in the first case, and only in the second can a record be lost. -/

namespace AvroCodegen

namespace Graph

variable {c : Catalog} {g : Graph} {i j : Nat}

/-- The kind of the type of a node. -/
def kind? (g : Graph) (i : Nat) : Option Kind := (g.type? i).map NamedType.kind

theorem lt_of_kind? {k : Kind} (h : g.kind? i = some k) : i < g.nodes.length := by
  obtain ⟨t, ht, _⟩ := Option.map_eq_some_iff.1 h
  exact lt_of_type? ht

/-! ## Roots and what depends on nothing -/

/-- Only a record depends on anything. -/
theorem Whole.kind?_of_dependency (hg : g.Whole c) (hc : c.Closed) (h : j ∈ g.dependencies i) :
    g.kind? i = some .record := by
  obtain ⟨e, he, _⟩ := List.mem_map.1 h
  obtain ⟨he, hsource⟩ := List.mem_filter.1 he
  have hi : i < g.nodes.length := of_decide_eq_true hsource ▸ (hg.edges e he).1
  obtain ⟨t, ht, _⟩ := exists_type? hi
  have hname : g.fullname j ∈ c.targets t := by
    rw [← List.mem_eraseDups, ← hg.fullnames_dependencies hc ht]
    exact List.mem_map_of_mem h
  obtain ⟨f, hf, _⟩ := List.mem_filterMap.1 hname
  rw [kind?, ht, Option.map_some, NamedType.kind_of_mem_fields hf]

/-- What reaches another node is a record. -/
theorem Whole.kind?_of_reaches (hg : g.Whole c) (hc : c.Closed) (h : g.walkable.Reaches i j) :
    g.kind? i = some .record := by
  obtain ⟨k, hneeds, _⟩ := Relation.TransGen.head'_iff.1 h
  exact hg.kind?_of_dependency hc hneeds

theorem isFree_iff : g.isFree i = true ↔ g.kind? i = some .record ∧ ∀ j, i ∉ g.dependencies j := by
  have hnone : (g.dependents i).isEmpty = true ↔ ∀ j, i ∉ g.dependencies j := by
    rw [List.isEmpty_iff, List.eq_nil_iff_forall_not_mem]
    exact forall_congr' fun j => not_congr mem_dependents_iff
  have hrecord : (g.type? i).any (fun t => t.kind = .record) = true ↔
      g.kind? i = some .record := by
    cases ht : g.type? i <;> simp [kind?, ht]
  rw [isFree, Bool.and_eq_true, hnone, hrecord]

/-- The roots are the records on which nothing depends. -/
theorem mem_roots_iff (h : ofCatalog c = .ok g) :
    i ∈ g.roots ↔ g.kind? i = some .record ∧ ∀ j, i ∉ g.dependencies j := by
  rw [roots_ofCatalog h, List.mem_filter, isFree_iff]
  exact ⟨And.right, fun hfree => ⟨List.mem_range.2 (lt_of_kind? hfree.1), hfree⟩⟩

theorem roots_ascend (h : ofCatalog c = .ok g) : g.roots.Pairwise (· < ·) := by
  rw [roots_ofCatalog h]
  exact List.pairwise_lt_range.filter _

/-- Nothing reaches a root, so the roots stand together at the end. -/
theorem scope_eq (hc : c.Closed) (h : ofCatalog c = .ok g) :
    g.scope = g.flatten g.roots ++ g.roots ∧ ∀ i ∈ g.flatten g.roots, i ∉ g.roots := by
  have hneeded : ∀ i ∈ g.flatten g.roots, i ∉ g.roots := by
    intro i hi hroot
    obtain ⟨root, _, hreach⟩ := (DependencyGraph.mem_flatten_iff
      (whole_ofCatalog hc h).wellKeyed g.roots (roots_subset_ids h)).1 hi
    obtain ⟨j, _, hneeds⟩ := Relation.TransGen.tail'_iff.1 hreach
    exact ((mem_roots_iff h).1 hroot).2 j hneeds
  refine ⟨?_, hneeded⟩
  have hall : g.roots.filter (fun i => !(g.flatten g.roots).contains i) = g.roots := by
    refine List.filter_eq_self.2 fun i hi => ?_
    simpa using fun hmem => hneeded i hmem hi
  show g.flatten g.roots ++ g.roots.filter (fun i => !(g.flatten g.roots).contains i) = _
  rw [hall]

/-! ## What is lost -/

/-- A record is in the scope, or a cycle is above it. -/
theorem mem_scope_or_cycle (hc : c.Closed) (h : ofCatalog c = .ok g)
    (hi : g.kind? i = some .record) :
    i ∈ g.scope ∨ ∃ k ∈ g.ids, g.walkable.Reaches k k ∧ (i = k ∨ g.walkable.Reaches k i) := by
  have hwhole := whole_ofCatalog hc h
  have hmem : i ∈ g.walkable.nodes := List.mem_range.2 (lt_of_kind? hi)
  refine (DependencyGraph.exists_unneeded_or_cycle hmem).imp_left ?_
  rintro ⟨root, _, hfree, hreach⟩
  refine (mem_scope_iff hc h).2 ⟨root, (mem_roots_iff h).2 ⟨?_, fun j hj => ?_⟩, hreach⟩
  · rcases hreach with rfl | hreach
    · exact hi
    · exact hwhole.kind?_of_reaches hc hreach
  · exact hfree j (List.mem_range.2 (lt_of_kind? (hwhole.kind?_of_dependency hc hj))) hj

/-- Without cycles no record is lost. -/
theorem mem_scope_of_acyclic (hc : c.Closed) (h : ofCatalog c = .ok g) (hacyclic : g.walkable.Acyclic)
    (hi : g.kind? i = some .record) : i ∈ g.scope := by
  rcases mem_scope_or_cycle hc h hi with hi | ⟨k, hk, hcycle, _⟩
  · exact hi
  · exact absurd hcycle (hacyclic k hk)

/-- An enum is in the scope on account of a record that depends on it. -/
theorem enum_mem_scope_iff (hc : c.Closed) (h : ofCatalog c = .ok g)
    (hi : g.kind? i = some .enum) : i ∈ g.scope ↔ ∃ p ∈ g.scope, i ∈ g.dependencies p := by
  refine ⟨fun hmem => ?_, fun ⟨p, hp, hdep⟩ => scope_closed hc h hp hdep⟩
  obtain ⟨root, hroot, rfl | hreach⟩ := (mem_scope_iff hc h).1 hmem
  · cases hi.symm.trans ((mem_roots_iff h).1 hroot).1
  · obtain ⟨p, hrootp, hneeds⟩ := Relation.TransGen.tail'_iff.1 hreach
    have hp : p = root ∨ g.walkable.Reaches root p :=
      Relation.reflTransGen_iff_eq_or_transGen.1 hrootp
    exact ⟨p, (mem_scope_iff hc h).2 ⟨root, hroot, hp⟩, hneeds⟩

/-! ## Results -/

/-- The scope of work: what the roots reach, once each, and then the roots in the order of the
    nodes. Records are missing only below cycles. -/
structure Scoped (g : Graph) : Prop where
  once : g.scope.Nodup
  mem_iff : ∀ i, i ∈ g.scope ↔ ∃ root ∈ g.roots, i = root ∨ g.walkable.Reaches root i
  roots_last : ∃ needed, g.scope = needed ++ g.roots ∧ ∀ i ∈ needed, i ∉ g.roots
  roots_ascend : g.roots.Pairwise (· < ·)
  roots_iff : ∀ i, i ∈ g.roots ↔ g.kind? i = some .record ∧ ∀ j, i ∉ g.dependencies j
  lost : ∀ i, g.kind? i = some .record → i ∉ g.scope →
    ∃ k ∈ g.ids, g.walkable.Reaches k k ∧ (i = k ∨ g.walkable.Reaches k i)
  enums : ∀ i, g.kind? i = some .enum → (i ∈ g.scope ↔ ∃ p ∈ g.scope, i ∈ g.dependencies p)

/-- The scope holds every record, and every enum on which some record depends. -/
structure LosesNothing (g : Graph) : Prop where
  records : ∀ i, g.kind? i = some .record → i ∈ g.scope
  enums : ∀ i, g.kind? i = some .enum →
    (i ∈ g.scope ↔ ∃ p, g.kind? p = some .record ∧ i ∈ g.dependencies p)

/-- **Nothing is lost but below cycles.** Of every catalog that can be read there is a graph; its
    scope of work holds the roots and what they reach, once each and the roots last, and no record is
    missing unless it is on a cycle or reached from one. Where no node depends on itself, every record
    is in the scope, and an enum is just if some record depends on it. -/
theorem scope_members (calls : List Reader.Call) {c : Catalog}
    (h : (Reader.after calls).finish = .ok c) :
    ∃ g, ofCatalog c = .ok g ∧ g.Scoped ∧ (g.walkable.Acyclic → g.LosesNothing) := by
  have hc := (Reader.sound_after calls).closed_of_finish h
  obtain ⟨g, hg⟩ := exists_ofCatalog hc
  have hwhole := whole_ofCatalog hc hg
  refine ⟨g, hg, ?_, fun hacyclic => ?_⟩
  · exact
      { once := nodup_scope hc hg
        mem_iff := fun i => mem_scope_iff hc hg
        roots_last := ⟨g.flatten g.roots, scope_eq hc hg⟩
        roots_ascend := roots_ascend hg
        roots_iff := fun i => mem_roots_iff hg
        lost := fun i hi hout => (mem_scope_or_cycle hc hg hi).resolve_left hout
        enums := fun i hi => enum_mem_scope_iff hc hg hi }
  · refine ⟨fun i hi => mem_scope_of_acyclic hc hg hacyclic hi, fun i hi => ?_⟩
    rw [enum_mem_scope_iff hc hg hi]
    constructor
    · rintro ⟨p, _, hdep⟩
      exact ⟨p, hwhole.kind?_of_dependency hc hdep, hdep⟩
    · rintro ⟨p, hp, hdep⟩
      exact ⟨p, mem_scope_of_acyclic hc hg hacyclic hp, hdep⟩

/-! ## Shelves

Two roots above a chain of records, an enum that two records need, one that nothing needs, and a
fixed type. -/

/-- The edges lead from lower to higher ranks. -/
theorem acyclic_of_edges (rank : Nat → Nat) (h : ∀ e ∈ g.edges, rank e.source < rank e.target) :
    g.walkable.Acyclic := by
  refine DependencyGraph.acyclic_of_lt rank fun i j hij => ?_
  obtain ⟨e, he, rfl⟩ := List.mem_map.1 hij
  obtain ⟨he, hsource⟩ := List.mem_filter.1 he
  exact of_decide_eq_true hsource ▸ h e he

def shelfCalls : List Reader.Call :=
  [ .source "names" "[\"x.Shelf\", \"x.Lone\", \"x.Sign\", \"x.Size\"]",
    .node (Reader.recordNode "x.Shelf" [("boxes", Reader.arrayNode (.str "Box"))]),
    .node (Reader.recordNode "x.Box" [("part", .str "Part"), ("colour", .str "Colour")]),
    .node (Reader.recordNode "x.Part" [("size", .str "Size")]),
    .node (Reader.recordNode "x.Sign" [("colour", .str "Colour")]),
    .node (Reader.enumNode "x.Colour" "RED"),
    .node (Reader.enumNode "x.Lone" "ONE"),
    .node (.obj [("name", .str "x.Size"), ("size", .num (.int 4)), ("type", .str "fixed")]) ]

/-- What comes of reading the shelves. -/
def shelfCatalog : Catalog :=
  (Reader.after shelfCalls).finish.toOption.getD ⟨[], []⟩

def shelfGraph : Graph :=
  (ofCatalog shelfCatalog).toOption.getD empty

theorem finish_shelf : (Reader.after shelfCalls).finish = .ok shelfCatalog :=
  Answer.eq_ok_getD _ (by decide +kernel)

theorem ofCatalog_shelf : ofCatalog shelfCatalog = .ok shelfGraph :=
  Answer.eq_ok_getD _ (by decide +kernel)

theorem scope_members_shelf : (Reader.after shelfCalls).finish = .ok shelfCatalog ∧
    ofCatalog shelfCatalog = .ok shelfGraph ∧ shelfGraph.walkable.Acyclic ∧
    shelfGraph.Scoped ∧ shelfGraph.LosesNothing ∧
    shelfGraph.fullnames shelfGraph.ids =
      ["x.Shelf", "x.Box", "x.Part", "x.Colour", "x.Lone", "x.Sign", "x.Size"] ∧
    shelfGraph.fullnames shelfGraph.scope =
      ["x.Part", "x.Colour", "x.Box", "x.Shelf", "x.Sign"] := by
  have hacyclic : shelfGraph.walkable.Acyclic :=
    acyclic_of_edges (fun i => if i = 5 then 0 else i) (by decide +kernel)
  obtain ⟨g, hg, hscoped, hkeeps⟩ := scope_members shelfCalls finish_shelf
  obtain rfl : g = shelfGraph := Except.ok.inj (hg.symm.trans ofCatalog_shelf)
  exact ⟨finish_shelf, hg, hacyclic, hscoped, hkeeps hacyclic, by decide +kernel,
    by decide +kernel⟩

end Graph

end AvroCodegen
