import AvroCodegen.Graph.Basic
import AvroCodegen.Proofs.SchemaReading
import Mathlib.Data.List.Induction
import Mathlib.Data.List.Nodup
import Mathlib.Data.List.Perm.Subperm
import Mathlib.Logic.Relation

set_option autoImplicit false

/-! # How a graph grows

`Graph.add` takes the fields of a type in order and completes what they need first, so it comes back
to types that it is still in the middle of, and the edges of different types interleave. Still each
node ends with its own fields in their own order.

`Grows` says what happens without the bound on the depth. Its invariant is about one node `i` that is
being completed: `Relates` describes the edges and owners that `i` has brought about by the fields
taken so far, `Extends` that no other node of the graph before has changed its own, and every node
added meanwhile is complete. -/

namespace AvroCodegen

/-! ## What the fields of a type ask for -/

/-- The pairs of a list that come first among those of their key. -/
def firsts {α : Type} (l : List (String × α)) : List (String × α) :=
  l.foldl (fun acc p => if p.1 ∈ acc.map Prod.fst then acc else acc ++ [p]) []

theorem firsts_concat {α : Type} (l : List (String × α)) (p : String × α) :
    firsts (l ++ [p]) =
      if p.1 ∈ (firsts l).map Prod.fst then firsts l else firsts l ++ [p] := by
  unfold firsts
  rw [List.foldl_append]
  rfl

theorem map_fst_firsts {α : Type} (l : List (String × α)) :
    (firsts l).map Prod.fst = (l.map Prod.fst).eraseDups := by
  -- from the back: whether a pair comes first depends on those before it
  induction l using List.reverseRecOn with
  | nil => rfl
  | append_singleton l p ih =>
      have hmem : p.1 ∈ (firsts l).map Prod.fst ↔ p.1 ∈ l.map Prod.fst := by
        rw [ih, List.mem_eraseDups]
      rw [firsts_concat, List.map_append, List.map_singleton, List.eraseDups_append]
      by_cases hp : p.1 ∈ l.map Prod.fst
      · rw [if_pos (hmem.2 hp), ih]
        simp [List.removeAll, hp]
      · rw [if_neg (fun h => hp (hmem.1 h)), List.map_append, ih]
        simp [List.removeAll, hp, List.eraseDups_cons]

namespace Catalog

/-- The record or enum that a schema stands for, plainly or as the innermost items of an array. -/
def target? (c : Catalog) (s : Schema) : Option String :=
  s.core.reference?.filter fun n => (c.entity? n).isSome

/-- The records and enums that the fields of a type stand for, in field order. -/
def targets (c : Catalog) (t : NamedType) : List String :=
  t.fields.filterMap fun f => c.target? f.schema

/-- Some field of a type is an array whose innermost items are the given record or enum. -/
def Holds (c : Catalog) (t : NamedType) (n : String) : Prop :=
  ∃ f ∈ t.fields, f.schema.element?.isSome ∧ c.target? f.schema = some n

/-- A definition leads to those that its fields stand for. -/
def Leads (c : Catalog) (m n : String) : Prop :=
  ∃ t, c.get? m = some t ∧ n ∈ c.targets t

/-- What a type needs, by fullname. -/
def links (c : Catalog) (t : NamedType) : List (String × EdgeKind) :=
  (c.needs t).map fun need => (need.1.fullname, need.2)

variable {c : Catalog}

theorem Closed.fullname_of_get? (hc : c.Closed) {n : String} {t : NamedType}
    (h : c.get? n = some t) : t.fullname = n :=
  (hc.keyed n t (Keyed.mem_of_get? h)).1

theorem entity?_eq_some {n : String} {t : NamedType} :
    c.entity? n = some t ↔ c.get? n = some t ∧ t.kind ≠ .fixed := by
  simp [entity?, Option.filter_eq_some_iff]

theorem fullname_entity? (hc : c.Closed) (n : String) :
    (c.entity? n).map NamedType.fullname = (some n).filter fun n => (c.entity? n).isSome := by
  cases h : c.entity? n with
  | none => simp [Option.filter, h]
  | some t => simp [Option.filter, h, hc.fullname_of_get? (entity?_eq_some.1 h).1]

/-- What a schema needs is what it stands for, as items if the schema is an array. -/
theorem needed?_eq (hc : c.Closed) (s : Schema) :
    (c.needed? s).map (fun need => (need.1.fullname, need.2)) =
      (c.target? s).map fun n => (n, if s.element?.isSome then .items else .field) := by
  cases s with
  | named n m =>
      have h := fullname_entity? hc n
      simp only [needed?, target?, Schema.core, Schema.reference?, Schema.element?, ← h,
        Option.map_map]
      rfl
  | array s m =>
      simp only [needed?, target?, Schema.core, Schema.element?]
      cases s.core.reference? with
      | none => rfl
      | some n =>
          rw [← fullname_entity? hc n, Option.bind_some, Option.map_map, Option.map_map]
          rfl
  | primitive p m => rfl
  | map s m => rfl
  | union ss m => rfl

theorem links_eq (hc : c.Closed) (t : NamedType) :
    c.links t = t.fields.filterMap fun f =>
      (c.target? f.schema).map fun n => (n, if f.schema.element?.isSome then .items else .field) := by
  unfold links needs
  rw [List.map_filterMap]
  congr 1
  funext f
  exact needed?_eq hc f.schema

theorem map_fst_links (hc : c.Closed) (t : NamedType) : (c.links t).map Prod.fst = c.targets t := by
  rw [links_eq hc, List.map_filterMap]
  unfold targets
  congr 1
  funext f
  rw [Option.map_map]
  exact congrFun Option.map_id _

theorem mem_links_items (hc : c.Closed) {t : NamedType} {n : String} :
    (n, .items) ∈ c.links t ↔ c.Holds t n := by
  simp only [links_eq hc, Holds, List.mem_filterMap, Option.map_eq_some_iff, Prod.mk.injEq]
  constructor
  · rintro ⟨f, hf, n', hn', rfl, hkind⟩
    refine ⟨f, hf, ?_, hn'⟩
    by_contra hne
    simp [hne] at hkind
  · rintro ⟨f, hf, harr, hn⟩
    exact ⟨f, hf, n, hn, rfl, by simp [harr]⟩

/-- What is needed is in the catalog. -/
theorem get?_of_mem_needs (hc : c.Closed) {t : NamedType} {need : NamedType × EdgeKind}
    (h : need ∈ c.needs t) : c.get? need.1.fullname = some need.1 := by
  have hentity : ∃ n, c.entity? n = some need.1 := by
    obtain ⟨f, _, hf⟩ := List.mem_filterMap.1 h
    cases hs : f.schema with
    | named n m =>
        rw [hs, needed?, Option.map_eq_some_iff] at hf
        obtain ⟨t, ht, rfl⟩ := hf
        exact ⟨n, ht⟩
    | array s m =>
        rw [hs, needed?, Option.map_eq_some_iff] at hf
        obtain ⟨t, ht, rfl⟩ := hf
        obtain ⟨n, _, hn⟩ := Option.bind_eq_some_iff.1 ht
        exact ⟨n, hn⟩
    | primitive p m => rw [hs] at hf; cases hf
    | map s m => rw [hs] at hf; cases hf
    | union ss m => rw [hs] at hf; cases hf
  obtain ⟨n, hn⟩ := hentity
  have hget := (entity?_eq_some.1 hn).1
  rw [hc.fullname_of_get? hget]
  exact hget

/-- A definition leads to what it needs. -/
theorem leads_of_mem_needs (hc : c.Closed) {t : NamedType} (ht : c.get? t.fullname = some t)
    {need : NamedType × EdgeKind} (h : need ∈ c.needs t) : c.Leads t.fullname need.1.fullname := by
  refine ⟨t, ht, ?_⟩
  rw [← map_fst_links hc, links, List.map_map]
  exact List.mem_map.2 ⟨need, h, rfl⟩

end Catalog

namespace Graph

/-! ## Names and numbers -/

/-- The types of the nodes, by number. -/
def types (g : Graph) : List NamedType := g.nodes.map Node.schema

/-- The fullnames of the nodes, by number. -/
def names (g : Graph) : List String := g.types.map NamedType.fullname

@[simp] theorem length_types (g : Graph) : g.types.length = g.nodes.length := by simp [types]

@[simp] theorem length_names (g : Graph) : g.names.length = g.nodes.length := by simp [names]

theorem type?_eq (g : Graph) (i : Nat) : g.type? i = g.types[i]? := by simp [type?, types]

theorem fullname_eq (g : Graph) (i : Nat) : g.fullname i = g.names[i]?.getD "" := by
  simp [fullname, names, type?_eq]

theorem fullname_of_type? {g : Graph} {i : Nat} {t : NamedType} (h : g.type? i = some t) :
    g.fullname i = t.fullname := by
  simp [fullname, h]

theorem lt_of_type? {g : Graph} {i : Nat} {t : NamedType} (h : g.type? i = some t) :
    i < g.nodes.length := by
  rw [type?_eq] at h
  simpa using (List.getElem?_eq_some_iff.1 h).1

theorem exists_type? {g : Graph} {i : Nat} (hi : i < g.nodes.length) :
    ∃ t, g.type? i = some t ∧ t ∈ g.types := by
  have hi' : i < g.types.length := by simpa using hi
  exact ⟨g.types[i], by rw [type?_eq, List.getElem?_eq_getElem hi'], List.getElem_mem hi'⟩

theorem getElem?_names {g : Graph} {i : Nat} (hi : i < g.nodes.length) :
    g.names[i]? = some (g.fullname i) := by
  have hi' : i < g.names.length := by simpa using hi
  rw [fullname_eq, List.getElem?_eq_getElem hi', Option.getD_some]

theorem fullname_mem {g : Graph} {i : Nat} (hi : i < g.nodes.length) : g.fullname i ∈ g.names :=
  List.mem_of_getElem? (getElem?_names hi)

theorem exists_of_mem_names {g : Graph} {n : String} (h : n ∈ g.names) :
    ∃ i, i < g.nodes.length ∧ g.fullname i = n := by
  obtain ⟨i, hi, heq⟩ := List.mem_iff_getElem.1 h
  refine ⟨i, by simpa using hi, ?_⟩
  rw [fullname_eq, List.getElem?_eq_getElem hi, Option.getD_some, heq]

theorem fullname_inj {g : Graph} (h : g.names.Nodup) {i j : Nat} (hi : i < g.nodes.length)
    (hj : j < g.nodes.length) (heq : g.fullname i = g.fullname j) : i = j := by
  refine (List.getElem?_inj (by simpa using hi) h).1 ?_
  rw [getElem?_names hi, getElem?_names hj, heq]

theorem find?_eq_none_iff {g : Graph} {n : String} : g.find? n = none ↔ n ∉ g.names := by
  simp [find?, names, types, List.findIdx?_eq_none_iff]

theorem find?_eq_some {g : Graph} {n : String} {i : Nat} (h : g.find? n = some i) :
    i < g.nodes.length ∧ g.fullname i = n := by
  obtain ⟨hi, hn, _⟩ := List.findIdx?_eq_some_iff_getElem.1 h
  exact ⟨hi, by simpa [fullname, type?, List.getElem?_eq_getElem hi] using hn⟩

/-- A graph with the same types in front has at least as many nodes. -/
theorem length_le_of_types {g g' : Graph} (h : g.types <+: g'.types) :
    g.nodes.length ≤ g'.nodes.length := by
  simpa using h.length_le

theorem type?_of_types {g g' : Graph} (h : g.types <+: g'.types) {i : Nat}
    (hi : i < g.nodes.length) : g'.type? i = g.type? i := by
  obtain ⟨back, hback⟩ := h
  rw [type?_eq, type?_eq, ← hback, List.getElem?_append_left (by simpa using hi)]

/-- A graph with the same types in front has the same fullnames there. -/
theorem fullname_of_types {g g' : Graph} (h : g.types <+: g'.types) {i : Nat}
    (hi : i < g.nodes.length) : g'.fullname i = g.fullname i := by
  obtain ⟨back, hback⟩ : g.names <+: g'.names := h.map _
  rw [fullname_eq, fullname_eq, ← hback, List.getElem?_append_left (by simpa using hi)]

/-! ## What the steps write -/

@[simp] theorem types_push (t : NamedType) (g : Graph) : (g.push t).types = g.types ++ [t] := by
  simp [types, push]

@[simp] theorem names_push (t : NamedType) (g : Graph) :
    (g.push t).names = g.names ++ [t.fullname] := by
  simp [names]

@[simp] theorem edges_push (t : NamedType) (g : Graph) : (g.push t).edges = g.edges := rfl

@[simp] theorem owners_push (t : NamedType) (g : Graph) (j : Nat) :
    (g.push t).owners j = g.owners j := by
  unfold owners push
  rcases Nat.lt_trichotomy j g.nodes.length with hj | hj | hj
  · simp [List.getElem?_append_left hj]
  · simp [hj]
  · rw [List.getElem?_eq_none (by simp; omega), List.getElem?_eq_none (by omega)]

@[simp] theorem types_own (i j : Nat) (g : Graph) : (g.own i j).types = g.types := by
  unfold types own
  apply List.ext_getElem?
  intro k
  rw [List.getElem?_map, List.getElem?_map, List.getElem?_modify]
  by_cases hk : j = k
  · subst hk
    simp only [if_true]
    cases g.nodes[j]? with
    | none => rfl
    | some n =>
        simp only [Option.map_eq_map, Option.map_some]
        split <;> rfl
  · simp [hk]

@[simp] theorem edges_own (i j : Nat) (g : Graph) : (g.own i j).edges = g.edges := rfl

theorem owners_own_self (i : Nat) {j : Nat} (g : Graph) (hj : j < g.nodes.length) :
    (g.own i j).owners j = if i ∈ g.owners j then g.owners j else g.owners j ++ [i] := by
  simp only [owners, own, List.getElem?_modify, List.getElem?_eq_getElem hj, if_true,
    Option.map_eq_map, Option.map_some, Option.getD_some, List.contains_iff_mem]
  split <;> rfl

theorem owners_own_of_ne (i : Nat) {j k : Nat} (g : Graph) (h : j ≠ k) :
    (g.own i j).owners k = g.owners k := by
  simp [owners, own, h]

@[simp] theorem nodes_connect (i j : Nat) (kind : EdgeKind) (g : Graph) :
    (g.connect i j kind).nodes = g.nodes := by
  unfold connect
  split <;> rfl

@[simp] theorem types_connect (i j : Nat) (kind : EdgeKind) (g : Graph) :
    (g.connect i j kind).types = g.types := by
  simp [types]

@[simp] theorem owners_connect (i j k : Nat) (kind : EdgeKind) (g : Graph) :
    (g.connect i j kind).owners k = g.owners k := by
  simp [owners]

@[simp] theorem types_relate (i j : Nat) (kind : EdgeKind) (g : Graph) :
    (g.relate i j kind).types = g.types := by
  cases kind <;> simp [relate]

@[simp] theorem names_relate (i j : Nat) (kind : EdgeKind) (g : Graph) :
    (g.relate i j kind).names = g.names := by
  simp [names]

@[simp] theorem edges_relate (i j : Nat) (kind : EdgeKind) (g : Graph) :
    (g.relate i j kind).edges = (g.connect i j kind).edges := by
  cases kind with
  | field => rfl
  | items =>
      have hsame : (g.own i j).hasEdge i j = g.hasEdge i j := rfl
      unfold relate connect
      dsimp only
      rw [hsame]
      split <;> rfl

theorem hasEdge_iff {i j : Nat} {g : Graph} :
    g.hasEdge i j = true ↔ ∃ e ∈ g.edges, e.source = i ∧ e.target = j := by
  simp [hasEdge]

theorem edges_connect (i j : Nat) (kind : EdgeKind) (g : Graph) :
    (g.connect i j kind).edges =
      if g.hasEdge i j then g.edges else g.edges ++ [⟨i, j, kind⟩] := by
  unfold connect
  split <;> rfl

theorem owners_relate_of_ne {i j k : Nat} (kind : EdgeKind) (g : Graph) (h : j ≠ k) :
    (g.relate i j kind).owners k = g.owners k := by
  cases kind with
  | field => simp [relate]
  | items => simp [relate, owners_own_of_ne i g h]

theorem owners_relate_self (i : Nat) {j : Nat} (kind : EdgeKind) (g : Graph)
    (hj : j < g.nodes.length) :
    (g.relate i j kind).owners j =
      if kind = .field ∨ i ∈ g.owners j then g.owners j else g.owners j ++ [i] := by
  cases kind with
  | field => simp [relate]
  | items => simp [relate, owners_own_self i g hj]

theorem owners_eq_nil {g : Graph} {j : Nat} (hj : g.nodes.length ≤ j) : g.owners j = [] := by
  simp [owners, List.getElem?_eq_none hj]

/-! ## The invariant -/

/-- The edges and owners of a graph stay within it, and its types are those of the catalog, each
    under a fullname of its own. -/
structure Sound (c : Catalog) (g : Graph) : Prop where
  once : g.names.Nodup
  typed : ∀ t ∈ g.types, c.get? t.fullname = some t
  edges : ∀ e ∈ g.edges, e.source < g.nodes.length ∧ e.target < g.nodes.length
  owners : ∀ j, ∀ i ∈ g.owners j, i < g.nodes.length

/-- The edges that lead away from a node. -/
def edgesFrom (g : Graph) (i : Nat) : List Edge :=
  g.edges.filter fun e => e.source = i

/-- A node has brought about what some links ask for: an edge for each target, in the order and of
    the kind of its first link, and itself as owner of each target of items. -/
structure Relates (g : Graph) (i : Nat) (links : List (String × EdgeKind)) : Prop where
  edges : (g.edgesFrom i).map (fun e => (g.fullname e.target, e.kind)) = firsts links
  owners : ∀ j < g.nodes.length,
    (g.owners j).count i = if (g.fullname j, EdgeKind.items) ∈ links then 1 else 0

/-- A graph has grown by more nodes, and of the nodes before only `i` has brought about more. -/
structure Extends (i : Nat) (g g' : Graph) : Prop where
  types : g.types <+: g'.types
  edges : ∀ k < g.nodes.length, k ≠ i → g'.edgesFrom k = g.edgesFrom k
  owners : ∀ k < g.nodes.length, k ≠ i → ∀ j, (g'.owners j).count k = (g.owners j).count k

/-- A node has brought about all that its type asks for. -/
def Complete (c : Catalog) (g : Graph) (i : Nat) : Prop :=
  ∀ t, g.type? i = some t → g.Relates i (c.links t)

variable {c : Catalog} {g g' g'' : Graph} {i j : Nat} {links : List (String × EdgeKind)}

theorem Extends.length_le (h : Extends i g g') : g.nodes.length ≤ g'.nodes.length :=
  length_le_of_types h.types

theorem Extends.refl (i : Nat) (g : Graph) : Extends i g g :=
  ⟨List.prefix_refl _, fun _ _ _ => rfl, fun _ _ _ _ => rfl⟩

theorem Extends.trans (h : Extends i g g') (h' : Extends i g' g'') : Extends i g g'' where
  types := h.types.trans h'.types
  edges := fun k hk hne =>
    (h'.edges k (Nat.lt_of_lt_of_le hk h.length_le) hne).trans (h.edges k hk hne)
  owners := fun k hk hne j =>
    (h'.owners k (Nat.lt_of_lt_of_le hk h.length_le) hne j).trans (h.owners k hk hne j)

theorem Extends.type? (h : Extends i g g') {k : Nat} (hk : k < g.nodes.length) :
    g'.type? k = g.type? k :=
  type?_of_types h.types hk

/-- Links that are taken lead to nodes of the graph. -/
theorem Relates.mem_names (hr : g.Relates i links) (hg : g.Sound c) {n : String} {kind : EdgeKind}
    (h : (n, kind) ∈ links) : n ∈ g.names := by
  have hn : n ∈ (firsts links).map Prod.fst := by
    rw [map_fst_firsts, List.mem_eraseDups]
    exact List.mem_map_of_mem (f := Prod.fst) h
  rw [← hr.edges, List.map_map] at hn
  obtain ⟨e, he, rfl⟩ := List.mem_map.1 hn
  exact fullname_mem (hg.edges e (List.mem_filter.1 he).1).2

/-- What a node has brought about stays when others go on. -/
theorem Relates.mono {k : Nat} (hr : g.Relates k links)
    (hg : g.Sound c) (hg' : g'.Sound c) (h : Extends i g g') (hk : k < g.nodes.length)
    (hne : k ≠ i) : g'.Relates k links where
  edges := by
    rw [← hr.edges, h.edges k hk hne]
    refine List.map_congr_left fun e he => ?_
    rw [fullname_of_types h.types (hg.edges e (List.mem_filter.1 he).1).2]
  owners := by
    intro j hj
    rw [h.owners k hk hne j]
    by_cases hlt : j < g.nodes.length
    · rw [hr.owners j hlt, fullname_of_types h.types hlt]
    · -- a node that came later was not asked for before it was there
      rw [owners_eq_nil (Nat.le_of_not_lt hlt), if_neg]
      · rfl
      · intro hmem
        obtain ⟨j', hj', heq⟩ := exists_of_mem_names (hr.mem_names hg hmem)
        have hlt' := Nat.lt_of_lt_of_le hj' h.length_le
        rw [← fullname_of_types h.types hj'] at heq
        have := fullname_inj hg'.once hlt' hj heq
        omega

theorem Complete.mono {k : Nat} (hr : g.Complete c k) (hg : g.Sound c) (hg' : g'.Sound c)
    (h : Extends i g g') (hk : k < g.nodes.length) (hne : k ≠ i) : g'.Complete c k := by
  intro t ht
  rw [h.type? hk] at ht
  exact (hr t ht).mono hg hg' h hk hne

/-! ## Single steps -/

theorem sound_push (hg : g.Sound c) {t : NamedType} (ht : c.get? t.fullname = some t)
    (hfree : t.fullname ∉ g.names) : (g.push t).Sound c where
  once := by
    rw [names_push]
    exact hg.once.append (List.nodup_singleton _) (List.disjoint_singleton.2 hfree)
  typed := by
    intro t' ht'
    rw [types_push] at ht'
    rcases List.mem_append.1 ht' with ht' | ht'
    · exact hg.typed t' ht'
    · rw [List.mem_singleton.1 ht']
      exact ht
  edges := by
    intro e he
    have := hg.edges e he
    simp only [push, List.length_append, List.length_singleton]
    omega
  owners := by
    intro j i hi
    have := hg.owners j i (by simpa using hi)
    simp only [push, List.length_append, List.length_singleton]
    omega

theorem extends_push (t : NamedType) (g : Graph) : Extends g.nodes.length g (g.push t) :=
  ⟨⟨[t], (types_push t g).symm⟩, fun _ _ _ => rfl, fun _ _ _ _ => by rw [owners_push]⟩

/-- A node begins with nothing brought about. -/
theorem relates_push (hg : g.Sound c) (t : NamedType) :
    (g.push t).Relates g.nodes.length [] where
  edges := by
    have hnone : (g.push t).edgesFrom g.nodes.length = [] := by
      refine List.filter_eq_nil_iff.2 fun e he => ?_
      have := (hg.edges e he).1
      simp only [decide_eq_true_eq]
      omega
    rw [hnone]
    rfl
  owners := by
    intro j _
    rw [owners_push, List.count_eq_zero.2 fun h => Nat.lt_irrefl _ (hg.owners j _ h)]
    simp

theorem length_relate (i j : Nat) (kind : EdgeKind) (g : Graph) :
    (g.relate i j kind).nodes.length = g.nodes.length := by
  rw [← length_types, ← length_types, types_relate]

theorem fullname_relate (i j k : Nat) (kind : EdgeKind) (g : Graph) :
    (g.relate i j kind).fullname k = g.fullname k := by
  simp [fullname_eq]

theorem mem_owners_relate {k m : Nat} {kind : EdgeKind} (hj : j < g.nodes.length)
    (h : m ∈ (g.relate i j kind).owners k) : m ∈ g.owners k ∨ m = i := by
  by_cases hk : j = k
  · subst hk
    rw [owners_relate_self i kind g hj] at h
    split at h
    · exact Or.inl h
    · simpa using h
  · rw [owners_relate_of_ne kind g hk] at h
    exact Or.inl h

theorem mem_edges_relate {kind : EdgeKind} {e : Edge} (h : e ∈ (g.relate i j kind).edges) :
    e ∈ g.edges ∨ e = ⟨i, j, kind⟩ := by
  rw [edges_relate, edges_connect] at h
  split at h
  · exact Or.inl h
  · simpa using h

theorem sound_relate (hg : g.Sound c) (hi : i < g.nodes.length) (hj : j < g.nodes.length)
    (kind : EdgeKind) : (g.relate i j kind).Sound c where
  once := by rw [names_relate]; exact hg.once
  typed := by rw [types_relate]; exact hg.typed
  edges := by
    intro e he
    rw [length_relate]
    rcases mem_edges_relate he with he | rfl
    · exact hg.edges e he
    · exact ⟨hi, hj⟩
  owners := by
    intro k m hm
    rw [length_relate]
    rcases mem_owners_relate hj hm with hm | rfl
    · exact hg.owners k m hm
    · exact hi

theorem extends_relate (hj : j < g.nodes.length) (kind : EdgeKind) :
    Extends i g (g.relate i j kind) where
  types := (types_relate i j kind g).symm ▸ List.prefix_refl _
  edges := by
    intro k _ hne
    simp only [edgesFrom, edges_relate, edges_connect]
    split
    · rfl
    · simp [List.filter_append, Ne.symm hne]
  owners := by
    intro k _ hne m
    by_cases hm : j = m
    · subst hm
      rw [owners_relate_self i kind g hj]
      split
      · rfl
      · simp [List.count_append, Ne.symm hne]
    · rw [owners_relate_of_ne kind g hm]

/-- The edges of a node already lead to `j` exactly when a link has asked for it. -/
theorem Relates.hasEdge_iff (hr : g.Relates i links) (hg : g.Sound c) (hj : j < g.nodes.length) :
    g.hasEdge i j = true ↔ g.fullname j ∈ (firsts links).map Prod.fst := by
  rw [Graph.hasEdge_iff, ← hr.edges, List.map_map]
  constructor
  · rintro ⟨e, he, rfl, rfl⟩
    exact List.mem_map.2 ⟨e, by simp [edgesFrom, he], rfl⟩
  · intro h
    obtain ⟨e, he, hname⟩ := List.mem_map.1 h
    obtain ⟨he, hsource⟩ := List.mem_filter.1 he
    exact ⟨e, he, by simpa using hsource, fullname_inj hg.once (hg.edges e he).2 hj hname⟩

/-- Entering one more link of a node. -/
theorem Relates.relate (hr : g.Relates i links) (hg : g.Sound c) (hj : j < g.nodes.length)
    (kind : EdgeKind) : (g.relate i j kind).Relates i (links ++ [(g.fullname j, kind)]) where
  edges := by
    simp only [edgesFrom, edges_relate, edges_connect, fullname_relate, firsts_concat]
    -- an edge is there exactly if a link has asked for it before
    by_cases hedge : g.hasEdge i j = true
    · rw [if_pos hedge, if_pos ((hr.hasEdge_iff hg hj).1 hedge)]
      exact hr.edges
    · rw [if_neg hedge, if_neg fun h => hedge ((hr.hasEdge_iff hg hj).2 h), ← hr.edges,
        List.filter_append, List.map_append]
      simp [edgesFrom]
  owners := by
    intro k hk
    rw [length_relate] at hk
    rw [fullname_relate]
    -- only the target of the link may take an owner
    by_cases hjk : j = k
    · subst hjk
      have hcount := hr.owners j hj
      rw [owners_relate_self i kind g hj]
      cases kind with
      | field => simpa using hcount
      | items =>
          by_cases hmem : i ∈ g.owners j
          · have hpos : 0 < (g.owners j).count i := List.count_pos_iff.2 hmem
            have hin : (g.fullname j, EdgeKind.items) ∈ links := by
              by_contra hnot
              rw [if_neg hnot] at hcount
              omega
            rw [if_pos (Or.inr hmem), hcount]
            simp [hin]
          · rw [if_neg (by simp [hmem]), List.count_append, List.count_eq_zero.2 hmem]
            simp
    · have hne : g.fullname k ≠ g.fullname j := fun h => hjk (fullname_inj hg.once hj hk h.symm)
      rw [owners_relate_of_ne kind g hjk, hr.owners k hk]
      simp [hne]

/-! ## Growing without a bound -/

/-- A node takes its needs in order. What has no node yet is added and completed first, whatever the
    depth. -/
inductive Grows (c : Catalog) : Nat → List (NamedType × EdgeKind) → Graph → Graph → Prop
  | done (i : Nat) (g : Graph) : Grows c i [] g g
  | known {i j : Nat} {need : NamedType × EdgeKind} {needs : List (NamedType × EdgeKind)}
      {g g' : Graph} : g.find? need.1.fullname = some j →
      Grows c i needs (g.relate i j need.2) g' → Grows c i (need :: needs) g g'
  | fresh {i : Nat} {need : NamedType × EdgeKind} {needs : List (NamedType × EdgeKind)}
      {g g₁ g' : Graph} : g.find? need.1.fullname = none →
      Grows c g.nodes.length (c.needs need.1) (g.push need.1) g₁ →
      Grows c i needs (g₁.relate i g.nodes.length need.2) g' → Grows c i (need :: needs) g g'

/-- Names are added one after the other; a name without a node is added and completed. -/
inductive Adds (c : Catalog) : List String → Graph → Graph → Prop
  | done (g : Graph) : Adds c [] g g
  | known {n : String} {ns : List String} {g g' : Graph} {i : Nat} : g.find? n = some i →
      Adds c ns g g' → Adds c (n :: ns) g g'
  | fresh {n : String} {ns : List String} {t : NamedType} {g g₁ g' : Graph} :
      g.find? n = none → c.get? n = some t →
      Grows c g.nodes.length (c.needs t) (g.push t) g₁ →
      Adds c ns g₁ g' → Adds c (n :: ns) g g'

/-- What taking some needs of the node `i` brings about. -/
structure Grown (c : Catalog) (i : Nat) (links : List (String × EdgeKind)) (g g' : Graph) :
    Prop where
  sound : g'.Sound c
  frame : Extends i g g'
  relates : g'.Relates i links
  complete : ∀ k, g.nodes.length ≤ k → k < g'.nodes.length → g'.Complete c k

/-- The links that some needs stand for. -/
def linksOf (needs : List (NamedType × EdgeKind)) : List (String × EdgeKind) :=
  needs.map fun need => (need.1.fullname, need.2)

/-- The node that a fresh type gets is complete once its needs are taken. -/
theorem Grown.complete_push {t : NamedType} {g₁ : Graph}
    (h : Grown c g.nodes.length (c.links t) (g.push t) g₁) :
    g₁.fullname g.nodes.length = t.fullname ∧
      ∀ k, g.nodes.length ≤ k → k < g₁.nodes.length → g₁.Complete c k := by
  have hlen : (g.push t).nodes.length = g.nodes.length + 1 := by simp [push]
  have htype : g₁.type? g.nodes.length = some t := by
    rw [h.frame.type? (by omega), type?_eq, types_push, List.getElem?_append_right (by simp)]
    simp
  refine ⟨fullname_of_type? htype, fun k hk hlt => ?_⟩
  -- the fresh node itself, or one that came after it
  rcases Nat.eq_or_lt_of_le hk with rfl | hk
  · intro t' ht'
    rw [htype, Option.some.injEq] at ht'
    rw [← ht']
    exact h.relates
  · exact h.complete k (by omega) hlt

/-- A need that had no node is entered after its own node has grown. -/
theorem Grown.relate_fresh {t : NamedType} {kind : EdgeKind} {g₁ : Graph} (hg : g.Sound c)
    (hi : i < g.nodes.length) (hr : g.Relates i links)
    (h : Grown c g.nodes.length (c.links t) (g.push t) g₁) :
    Grown c i (links ++ [(t.fullname, kind)]) g (g₁.relate i g.nodes.length kind) := by
  obtain ⟨hname, hcomplete⟩ := h.complete_push
  have hgrow : Extends g.nodes.length g g₁ := (extends_push t g).trans h.frame
  have hle : g.nodes.length + 1 ≤ g₁.nodes.length := by
    have := h.frame.length_le
    simpa [push] using this
  have hsound : (g₁.relate i g.nodes.length kind).Sound c :=
    sound_relate h.sound (by omega) (by omega) kind
  have hstep : Extends i g₁ (g₁.relate i g.nodes.length kind) := extends_relate (by omega) kind
  refine ⟨hsound, ?_, ?_, fun k hk hlt => ?_⟩
  · -- while the fresh node grows, `i` waits like every other node
    have hweak : Extends i g g₁ :=
      ⟨hgrow.types, fun k hk _ => hgrow.edges k hk (Nat.ne_of_lt hk),
        fun k hk _ => hgrow.owners k hk (Nat.ne_of_lt hk)⟩
    exact hweak.trans hstep
  · rw [← hname]
    exact (hr.mono hg h.sound hgrow hi (Nat.ne_of_lt hi)).relate h.sound (by omega) kind
  · rw [length_relate] at hlt
    exact (hcomplete k hk hlt).mono h.sound hsound hstep hlt (by omega)

/-- Two stretches of needs one after the other. -/
theorem Grown.trans {links' : List (String × EdgeKind)} (hi : i < g.nodes.length)
    (h : Grown c i links g g') (h' : Grown c i links' g' g'') : Grown c i links' g g'' where
  sound := h'.sound
  frame := h.frame.trans h'.frame
  relates := h'.relates
  complete := by
    intro k hk hlt
    by_cases hlt' : k < g'.nodes.length
    · exact (h.complete k hk hlt').mono h.sound h'.sound h'.frame hlt' (by omega)
    · exact h'.complete k (Nat.le_of_not_lt hlt') hlt

/-- The invariant holds along every growth. -/
theorem Grows.grown (hc : c.Closed) {needs : List (NamedType × EdgeKind)}
    (h : Grows c i needs g g') :
    ∀ {links : List (String × EdgeKind)}, g.Sound c → i < g.nodes.length → g.Relates i links →
      (∀ need ∈ needs, c.get? need.1.fullname = some need.1) →
      Grown c i (links ++ linksOf needs) g g' := by
  induction h with
  | done i g =>
      intro links hg _ hr _
      refine ⟨hg, .refl i g, by simpa [linksOf] using hr, fun k hk hlt => ?_⟩
      omega
  | @known i j need needs g g' hfind _ ih =>
      intro links hg hi hr hneeds
      obtain ⟨hj, hname⟩ := find?_eq_some hfind
      have hstep : Grown c i (links ++ [(need.1.fullname, need.2)]) g (g.relate i j need.2) := by
        refine ⟨sound_relate hg hi hj _, extends_relate hj _, ?_, fun k hk hlt => ?_⟩
        · rw [← hname]
          exact hr.relate hg hj _
        · rw [length_relate] at hlt
          omega
      have hrest := ih hstep.sound (by rwa [length_relate]) hstep.relates
        fun n hn => hneeds n (by simp [hn])
      simpa [linksOf] using hstep.trans hi hrest
  | @fresh i need needs g g₁ g' hfind _ _ ih₁ ih =>
      intro links hg hi hr hneeds
      have hget := hneeds need (by simp)
      have hpush := sound_push hg hget (find?_eq_none_iff.1 hfind)
      -- the fresh node is completed, from nothing, before the link of `i` is entered
      have hinner : Grown c g.nodes.length (c.links need.1) (g.push need.1) g₁ := by
        have := ih₁ hpush (by simp [push]) (relates_push hg need.1)
          fun n hn => c.get?_of_mem_needs hc hn
        rwa [List.nil_append] at this
      have hstep : Grown c i (links ++ [(need.1.fullname, need.2)]) g
          (g₁.relate i g.nodes.length need.2) := hinner.relate_fresh hg hi hr
      have hrest := ih hstep.sound (Nat.lt_of_lt_of_le hi hstep.frame.length_le) hstep.relates
        fun n hn => hneeds n (by simp [hn])
      simpa [linksOf] using hstep.trans hi hrest

/-! ## The bound on the depth is never met -/

/-- How a growth of bounded depth takes one need of the node `i`. -/
def takeNeed (c : Catalog) (depth i : Nat) (g : Graph) (need : NamedType × EdgeKind) : Graph :=
  match g.find? need.1.fullname with
  | some j => g.relate i j need.2
  | none => (grow c depth need.1 g).relate i g.nodes.length need.2

theorem grow_succ (c : Catalog) (depth : Nat) (t : NamedType) (g : Graph) :
    grow c (depth + 1) t g = (c.needs t).foldl (takeNeed c depth g.nodes.length) (g.push t) := rfl

/-- While a definition has no node, there are fewer nodes than definitions. -/
theorem length_lt_size (hg : g.Sound c) {n : String} {t : NamedType} (ht : c.get? n = some t)
    (hfree : n ∉ g.names) : g.nodes.length < c.size := by
  -- the nodes and the new name are different definitions
  have hnodup : (g.names ++ [n]).Nodup :=
    hg.once.append (List.nodup_singleton _) (List.disjoint_singleton.2 hfree)
  have hsub : g.names ++ [n] ⊆ Keyed.keys c.named := by
    intro m hm
    rcases List.mem_append.1 hm with hm | hm
    · obtain ⟨t', ht', rfl⟩ := List.mem_map.1 hm
      exact Keyed.mem_keys_of_get? (hg.typed t' ht')
    · rw [List.mem_singleton.1 hm]
      exact Keyed.mem_keys_of_get? ht
  have hle := (List.subperm_of_subset hnodup hsub).length_le
  simp only [List.length_append, length_names, List.length_singleton, Keyed.keys,
    List.length_map] at hle
  exact hle

/-- A bound that leaves room for every definition without a node does not show. -/
theorem grows_foldl (hc : c.Closed) (depth : Nat) :
    ∀ {needs : List (NamedType × EdgeKind)} {g : Graph} {i : Nat}
      {links : List (String × EdgeKind)}, g.Sound c → i < g.nodes.length → g.Relates i links →
      (∀ need ∈ needs, c.get? need.1.fullname = some need.1) → c.size ≤ g.nodes.length + depth →
      Grows c i needs g (needs.foldl (takeNeed c depth i) g) := by
  induction depth using Nat.strongRecOn with
  | _ depth ihd =>
    intro needs
    induction needs with
    | nil => intro g i links _ _ _ _ _; exact Grows.done i g
    | cons need needs ih =>
        intro g i links hg hi hr hneeds hsize
        have hget := hneeds need (by simp)
        have hrest : ∀ n ∈ needs, c.get? n.1.fullname = some n.1 :=
          fun n hn => hneeds n (by simp [hn])
        rw [List.foldl_cons]
        cases hfind : g.find? need.1.fullname with
        | some j =>
            have htake : takeNeed c depth i g need = g.relate i j need.2 := by simp [takeNeed, hfind]
            obtain ⟨hj, _⟩ := find?_eq_some hfind
            rw [htake]
            refine Grows.known hfind (ih (sound_relate hg hi hj _) ?_ (hr.relate hg hj _) hrest ?_)
            · rwa [length_relate]
            · rwa [length_relate]
        | none =>
            have hfree := find?_eq_none_iff.1 hfind
            have hlt := length_lt_size hg hget hfree
            -- the node of the fresh type makes up for the level that its needs have less
            obtain ⟨d, rfl⟩ : ∃ d, depth = d + 1 := ⟨depth - 1, by omega⟩
            have htake : takeNeed c (d + 1) i g need
                = ((c.needs need.1).foldl (takeNeed c d g.nodes.length) (g.push need.1)).relate i
                    g.nodes.length need.2 := by
              simp [takeNeed, hfind, grow_succ]
            have hpush := sound_push hg hget hfree
            have hlen : (g.push need.1).nodes.length = g.nodes.length + 1 := by simp [push]
            have htyped : ∀ n ∈ c.needs need.1, c.get? n.1.fullname = some n.1 :=
              fun n hn => c.get?_of_mem_needs hc hn
            have hinner := ihd d (by omega) hpush (by omega) (relates_push hg need.1) htyped
              (by omega)
            have hgrown := hinner.grown hc hpush (by omega) (relates_push hg need.1) htyped
            rw [List.nil_append] at hgrown
            have hstep : Grown c i (links ++ [(need.1.fullname, need.2)]) g _ :=
              hgrown.relate_fresh hg hi hr
            have hle := hstep.frame.length_le
            rw [htake]
            exact Grows.fresh hfind hinner
              (ih hstep.sound (Nat.lt_of_lt_of_le hi hle) hstep.relates hrest (by omega))

end Graph

end AvroCodegen
