import AvroCodegen.Generator.Run
import AvroCodegen.Proofs.Ownership
import AvroCodegen.Proofs.ScopeMembers

set_option autoImplicit false

/-! # The facts of a role

A generator chooses the template of a record by what the graph knows of its node, and the template
then asks the entity. Root and owner are the same for both, although the entity finds out that it is
an owner from its resolved types. But a store enters only those owners of a record that are in the
scope of work. An owner is lost on or below a cycle that no root reaches, so a record that some root
needs can be dependent to the graph and not to its template (`Store.facts_strand`). -/

namespace AvroCodegen

variable {c : Catalog} {g : Graph} {s : Store} {scope : List (Nat × Naming)} {generator : String}

namespace RecordEntity

/-- What a template sees of a record, put as the facts that its role is chosen by. -/
def facts (r : RecordEntity) : RoleFacts :=
  ⟨r.schema.kind = .enum, r.isRoot, r.isOwner, r.isDependent⟩

/-- A record shows a node: it is root and owner like the node, and dependent if an owner of the node
    is in the scope. -/
structure Shows (r : RecordEntity) (g : Graph) (i : Nat) : Prop where
  type : g.type? i = some r.schema
  isRoot : r.isRoot = g.isRoot i
  isOwner : r.isOwner = g.isOwner i
  isDependent : r.isDependent = true ↔ ∃ owner ∈ g.owners i, owner ∈ g.scope

variable {r : RecordEntity} {i : Nat}

/-- The facts part where there are owners and none of them is in the scope. -/
theorem Shows.facts_eq_iff (h : r.Shows g i) : r.facts = Generator.factsOf g i r.schema ↔
    (g.owners i ≠ [] → ∃ owner ∈ g.owners i, owner ∈ g.scope) := by
  have hgraph : g.isDependent i = true ↔ g.owners i ≠ [] := by simp [Graph.isDependent]
  have hfacts : r.facts = Generator.factsOf g i r.schema ↔ r.isDependent = g.isDependent i := by
    simp [facts, Generator.factsOf, h.isRoot, h.isOwner]
  rw [hfacts, Bool.eq_iff_iff, h.isDependent, hgraph]
  refine ⟨Iff.mpr, fun himp => ⟨?_, himp⟩⟩
  rintro ⟨owner, howner, _⟩
  exact List.ne_nil_of_mem howner

end RecordEntity

namespace Store

theorem isRoot_of_draft {idOf : String → Option Nat} {p : Placed} {r : RecordEntity}
    (h : draft c g idOf p = .ok (.record r)) : r.isRoot = g.isRoot p.node := by
  unfold draft at h
  split at h
  · obtain ⟨_, _, h⟩ := Answer.of_bind_ok h
    cases h
  · obtain ⟨_, _, h⟩ := Answer.of_bind_ok h
    rw [← Entity.record.inj (Except.ok.inj h)]

/-- A record of a store is a root if its node is. -/
theorem isRoot_of_build (hs : build generator g c scope = .ok s) {id i : Nat} {r : RecordEntity}
    (hr : s.record? id = some r) (hi : nodeOf g scope id = some i) : r.isRoot = g.isRoot i := by
  obtain ⟨p, r₀, hp, hdraft, hbare⟩ := exists_draft_of_build hs hr
  rw [nodeOf, getElem?_kept, hp] at hi
  obtain rfl : p.node = i := Option.some.inj hi
  have hisRoot : r₀.isRoot = r.isRoot := by
    show (bare r₀).isRoot = (bare r).isRoot
    rw [hbare]
  rw [← hisRoot, isRoot_of_draft hdraft]

/-- A record is dependent if some owner of its node is among the nodes of the store. -/
theorem Mirrors.isDependent_iff (hs : s.Mirrors c g scope) {id i : Nat} {r : RecordEntity}
    (hr : s.record? id = some r) (hi : nodeOf g scope id = some i) :
    r.isDependent = true ↔ ∃ owner ∈ g.owners i, owner ∈ scope.map Prod.fst := by
  obtain ⟨place, hplace, rfl⟩ := Option.map_eq_some_iff.1 hi
  have howners : r.owners = numbers g scope (g.owners place.1) := (hs.owners id r place hr hplace).1
  have hsome : r.isDependent = true ↔ r.owners ≠ [] := by simp [RecordEntity.isDependent]
  rw [hsome, howners, numbers, Ne, List.map_eq_nil_iff, List.filter_eq_nil_iff]
  simp only [decide_eq_true_eq, not_forall, not_not, exists_prop]

/-- Each record of a store over the scope of work shows its node. -/
theorem shows_of_build (hc : c.Closed) (hgraph : Graph.ofCatalog c = .ok g)
    (hscope : scope.map Prod.fst = g.scope) (hs : build generator g c scope = .ok s) {id i : Nat}
    {r : RecordEntity} (hr : s.record? id = some r) (hi : nodeOf g scope id = some i) :
    r.Shows g i := by
  have hwhole := Graph.whole_ofCatalog hc hgraph
  have hnodup : (scope.map Prod.fst).Nodup := hscope ▸ Graph.nodup_scope hc hgraph
  obtain ⟨drafts, hcomes⟩ := exists_comesOf hwhole hnodup hs
  have htype := hcomes.type?_of_node hr hi
  refine ⟨htype, isRoot_of_build hs hr hi, ?_, ?_⟩
  · rw [Bool.eq_iff_iff, hcomes.isOwner_iff hwhole hnodup hr, hwhole.isOwner_iff hc htype]
  · rw [(hcomes.mirrors hwhole hc hnodup).isDependent_iff hr hi, hscope]

/-- **What a role is chosen by, and what its template sees.** For every catalog that is read, its
    graph, and a store over the scope of work, each record is root and owner just as its node is, and
    is dependent just if some owner of its node is in the scope. So the facts part only where a node
    has owners that are all out of the scope, each on a cycle or below one; in a graph without
    cycles they never do. -/
theorem build_facts (calls : List Reader.Call) {c : Catalog}
    (h : (Reader.after calls).finish = .ok c) {g : Graph} (hgraph : Graph.ofCatalog c = .ok g)
    {generator : String} {scope : List (Nat × Naming)} (hscope : scope.map Prod.fst = g.scope)
    {s : Store} (hs : build generator g c scope = .ok s) :
    ∀ id r, s.record? id = some r → ∃ i, nodeOf g scope id = some i ∧ r.Shows g i ∧
      (r.facts = Generator.factsOf g i r.schema ↔
        (g.owners i ≠ [] → ∃ owner ∈ g.owners i, owner ∈ g.scope)) ∧
      (∀ owner ∈ g.owners i, owner ∉ g.scope →
        ∃ k ∈ g.ids, g.walkable.Reaches k k ∧ (owner = k ∨ g.walkable.Reaches k owner)) ∧
      (g.walkable.Acyclic → r.facts = Generator.factsOf g i r.schema) := by
  have hc := (Reader.sound_after calls).closed_of_finish h
  have hwhole := Graph.whole_ofCatalog hc hgraph
  have hnodup : (scope.map Prod.fst).Nodup := hscope ▸ Graph.nodup_scope hc hgraph
  intro id r hr
  obtain ⟨drafts, hcomes⟩ := exists_comesOf hwhole hnodup hs
  obtain ⟨i, hi, _⟩ := (hcomes.ownership hwhole hc hnodup).placed id r hr
  have hshows := shows_of_build hc hgraph hscope hs hr hi
  have hkind : ∀ owner ∈ g.owners i, g.kind? owner = some .record := fun owner howner =>
    hwhole.kind?_of_dependency hc (hwhole.mem_dependencies_of_owner howner)
  refine ⟨i, hi, hshows, hshows.facts_eq_iff, fun owner howner hout => ?_, fun hacyclic => ?_⟩
  · exact (Graph.mem_scope_or_cycle hc hgraph (hkind owner howner)).resolve_left hout
  · refine hshows.facts_eq_iff.2 fun hne => ?_
    obtain ⟨owner, howner⟩ := List.exists_mem_of_ne_nil _ hne
    exact ⟨owner, howner, Graph.mem_scope_of_acyclic hc hgraph hacyclic (hkind owner howner)⟩

/-! ## A strand

A record refers to itself, so that it is no root and is lost, and it holds parts of which a root has
one. -/

/-- A type that marks its field as a primary key. -/
def keyNode : Json :=
  .obj [("primary", .bool true), ("type", .str "int")]

/-- The calls that read the strand, its parts and the root. -/
def strandCalls : List Reader.Call :=
  [ .node (Reader.recordNode "x.A"
      [("id", keyNode), ("next", .str "A"), ("items", Reader.arrayNode (.str "C"))]),
    .node (Reader.recordNode "x.C" [("id", keyNode)]),
    .node (Reader.recordNode "x.R" [("part", .str "C")]),
    .source "strand" "[\"x.A\", \"x.R\"]" ]

/-- What comes of reading them. -/
def strandCatalog : Catalog :=
  (Reader.after strandCalls).finish.toOption.getD ⟨[], []⟩

def strandGraph : Graph :=
  (Graph.ofCatalog strandCatalog).toOption.getD Graph.empty

/-- The scope of work: the part and the root that has it. -/
def strandScope : List (Nat × Naming) :=
  [(1, ⟨"x", "C", "x.C"⟩), (2, ⟨"x", "R", "x.R"⟩)]

def strandStore : Store :=
  (build "java" strandGraph strandCatalog strandScope).toOption.getD (Store.empty "java")

theorem finish_strand : (Reader.after strandCalls).finish = .ok strandCatalog :=
  Answer.eq_ok_getD _ (by decide +kernel)

theorem ofCatalog_strand : Graph.ofCatalog strandCatalog = .ok strandGraph :=
  Answer.eq_ok_getD _ (by decide +kernel)

theorem scope_strand : strandScope.map Prod.fst = strandGraph.scope := by decide +kernel

theorem build_strand : build "java" strandGraph strandCatalog strandScope = .ok strandStore :=
  Answer.eq_ok_getD _ (by decide +kernel)

/-- All keys are in order, and the part is dependent to the graph and not to its template. -/
theorem facts_strand : (Reader.after strandCalls).finish = .ok strandCatalog ∧
    Graph.ofCatalog strandCatalog = .ok strandGraph ∧
    strandGraph.checkKeys.toOption.isSome = true ∧
    strandScope.map Prod.fst = strandGraph.scope ∧
    build "java" strandGraph strandCatalog strandScope = .ok strandStore ∧
    nodeOf strandGraph strandScope 0 = some 1 ∧
    strandGraph.isDependent 1 = true ∧
    (strandStore.record? 0).map RecordEntity.isDependent = some false :=
  ⟨finish_strand, ofCatalog_strand, by decide +kernel, scope_strand, build_strand,
    by decide +kernel, by decide +kernel, by decide +kernel⟩

theorem build_facts_strand : (Reader.after strandCalls).finish = .ok strandCatalog ∧
    Graph.ofCatalog strandCatalog = .ok strandGraph ∧
    strandScope.map Prod.fst = strandGraph.scope ∧
    build "java" strandGraph strandCatalog strandScope = .ok strandStore ∧
    ∀ id r, strandStore.record? id = some r →
      ∃ i, nodeOf strandGraph strandScope id = some i ∧ r.Shows strandGraph i := by
  refine ⟨finish_strand, ofCatalog_strand, scope_strand, build_strand, fun id r hr => ?_⟩
  obtain ⟨i, hi, hshows, _⟩ :=
    build_facts strandCalls finish_strand ofCatalog_strand scope_strand build_strand id r hr
  exact ⟨i, hi, hshows⟩

end Store

end AvroCodegen
