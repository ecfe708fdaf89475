import AvroCodegen.Proofs.Answer
import AvroCodegen.Proofs.GraphGrowth

set_option autoImplicit false

/-! # What a graph shows

Between additions a graph is `Whole`: every node is complete. So its nodes are what the added names
lead to, and dependencies, dependents and owners can be read off the fields. Judging roots leaves all
of this alone, and with a closed catalog no addition fails. -/

namespace AvroCodegen

namespace Graph

variable {c : Catalog} {g g' g'' : Graph} {i j : Nat}

/-! ## Whole graphs -/

/-- A graph of which nothing is in the making. -/
structure Whole (c : Catalog) (g : Graph) : Prop extends g.Sound c where
  complete : ∀ i < g.nodes.length, g.Complete c i

theorem whole_empty (c : Catalog) : empty.Whole c where
  once := by simp [empty, names, types]
  typed := by simp [empty, types]
  edges := by simp [empty]
  owners := by simp [empty, Graph.owners]
  complete := by simp [empty]

/-- A type without a node, added with all it needs. -/
theorem Whole.grows (hg : g.Whole c) (hc : c.Closed) {t : NamedType} (ht : c.get? t.fullname = some t)
    (hfree : t.fullname ∉ g.names) {g₁ : Graph}
    (h : Grows c g.nodes.length (c.needs t) (g.push t) g₁) :
    g₁.Whole c ∧ g.types <+: g₁.types ∧ g.nodes.length < g₁.nodes.length ∧
      g₁.fullname g.nodes.length = t.fullname := by
  have hpush := sound_push hg.toSound ht hfree
  have hlen : (g.push t).nodes.length = g.nodes.length + 1 := by simp [push]
  have hgrown := h.grown hc hpush (by omega) (relates_push hg.toSound t)
    fun n hn => c.get?_of_mem_needs hc hn
  rw [List.nil_append] at hgrown
  have hgrow : Extends g.nodes.length g g₁ := (extends_push t g).trans hgrown.frame
  obtain ⟨hname, hnew⟩ := hgrown.complete_push
  have hlt : g.nodes.length < g₁.nodes.length := by
    have := hgrown.frame.length_le
    omega
  refine ⟨⟨hgrown.sound, fun i hi => ?_⟩, hgrow.types, hlt, hname⟩
  -- the nodes before were complete and are left alone, the others came with the growth
  by_cases hlt : i < g.nodes.length
  · exact (hg.complete i hlt).mono hg.toSound hgrown.sound hgrow hlt (Nat.ne_of_lt hlt)
  · exact hnew i (Nat.le_of_not_lt hlt) hi

/-- Adding one name computes the unbounded growth. -/
theorem Whole.add (hg : g.Whole c) (hc : c.Closed) {n : String} (hn : n ∈ Keyed.keys c.named) :
    ∃ i g', g.add c n = .ok (i, g') ∧ Adds c [n] g g' ∧ g'.Whole c ∧ g.types <+: g'.types ∧
      i < g'.nodes.length ∧ g'.fullname i = n := by
  cases hfind : g.find? n with
  | some i =>
      obtain ⟨hi, hname⟩ := find?_eq_some hfind
      exact ⟨i, g, by simp [Graph.add, hfind], .known hfind (.done g), hg, List.prefix_refl _, hi,
        hname⟩
  | none =>
      obtain ⟨t, ht⟩ : ∃ t, c.get? n = some t := Option.isSome_iff_exists.1 (Keyed.has_iff_mem_keys.2 hn)
      obtain rfl := hc.fullname_of_get? ht
      have hfree := find?_eq_none_iff.1 hfind
      have hpush := sound_push hg.toSound ht hfree
      have hlen : (g.push t).nodes.length = g.nodes.length + 1 := by simp [push]
      have hgrows : Grows c g.nodes.length (c.needs t) (g.push t) (grow c (c.size + 1) t g) :=
        grows_foldl hc c.size hpush (by omega) (relates_push hg.toSound t)
          (fun n hn => c.get?_of_mem_needs hc hn) (by omega)
      obtain ⟨hwhole, htypes, hlt, hname⟩ := hg.grows hc ht hfree hgrows
      have hadd : g.add c t.fullname = .ok (g.nodes.length, grow c (c.size + 1) t g) := by
        simp [Graph.add, hfind, ht]
      exact ⟨g.nodes.length, _, hadd, .fresh hfind ht hgrows (.done _), hwhole, htypes, hlt, hname⟩

/-! ## What is reached -/

/-- What a fresh node brings along is what its type leads to. -/
theorem reached_of_push (hc : c.Closed) {t : NamedType} (ht : c.get? t.fullname = some t) {n : String}
    (h : n ∈ (g.push t).names ∨
      ∃ need ∈ c.needs t, Relation.ReflTransGen c.Leads need.1.fullname n) :
    n ∈ g.names ∨ Relation.ReflTransGen c.Leads t.fullname n := by
  rcases h with hn | ⟨need, hneed, hn⟩
  · rw [names_push, List.mem_append] at hn
    refine hn.imp_right fun hn => ?_
    rw [List.mem_singleton.1 hn]
  · exact Or.inr (Relation.ReflTransGen.head (c.leads_of_mem_needs hc ht hneed) hn)

/-- Growth only adds what the needs lead to. -/
theorem Grows.reached (hc : c.Closed) {needs : List (NamedType × EdgeKind)}
    (h : Grows c i needs g g') (hneeds : ∀ need ∈ needs, c.get? need.1.fullname = some need.1)
    {n : String} (hn : n ∈ g'.names) :
    n ∈ g.names ∨
      ∃ need ∈ needs, Relation.ReflTransGen c.Leads need.1.fullname n := by
  induction h with
  | done i g => exact Or.inl hn
  | @known i j need needs g g' _ _ ih =>
      rcases ih (fun m hm => hneeds m (by simp [hm])) hn with hn | ⟨m, hm, hmn⟩
      · rw [names_relate] at hn
        exact Or.inl hn
      · exact Or.inr ⟨m, by simp [hm], hmn⟩
  | @fresh i need needs g g₁ g' _ _ _ ih₁ ih =>
      rcases ih (fun m hm => hneeds m (by simp [hm])) hn with hn | ⟨m, hm, hmn⟩
      · rw [names_relate] at hn
        have hinner := ih₁ (fun m hm => c.get?_of_mem_needs hc hm) hn
        exact (reached_of_push hc (hneeds need (by simp)) hinner).imp_right
          fun hn => ⟨need, by simp, hn⟩
      · exact Or.inr ⟨m, by simp [hm], hmn⟩

theorem Whole.fullnames_dependencies (hg : g.Whole c) (hc : c.Closed) {t : NamedType}
    (ht : g.type? i = some t) : g.fullnames (g.dependencies i) = (c.targets t).eraseDups := by
  have hrel := (hg.complete i (lt_of_type? ht) t ht).edges
  have hnames := congrArg (List.map Prod.fst) hrel
  rw [map_fst_firsts, c.map_fst_links hc, List.map_map] at hnames
  rw [← hnames, fullnames, dependencies, List.map_map]
  rfl

theorem Whole.dependencies_lt (hg : g.Whole c) : ∀ j ∈ g.dependencies i, j < g.nodes.length := by
  intro j hj
  obtain ⟨e, he, rfl⟩ := List.mem_map.1 hj
  exact (hg.edges e (List.mem_filter.1 he).1).2

theorem mem_dependents_iff {g : Graph} : i ∈ g.dependents j ↔ j ∈ g.dependencies i := by
  simp only [dependents, dependencies, List.mem_reverse, List.mem_map, List.mem_filter,
    decide_eq_true_eq]
  constructor
  · rintro ⟨e, ⟨he, htarget⟩, hsource⟩
    exact ⟨e, ⟨he, hsource⟩, htarget⟩
  · rintro ⟨e, ⟨he, hsource⟩, htarget⟩
    exact ⟨e, ⟨he, htarget⟩, hsource⟩

theorem Whole.count_owners (hg : g.Whole c) (hc : c.Closed) {t : NamedType}
    (ht : g.type? i = some t) (hj : j < g.nodes.length) :
    (c.Holds t (g.fullname j) → (g.owners j).count i = 1) ∧
      (¬ c.Holds t (g.fullname j) → i ∉ g.owners j) := by
  have hcount := (hg.complete i (lt_of_type? ht) t ht).owners j hj
  rw [← c.mem_links_items hc]
  constructor
  · intro h
    rw [hcount, if_pos h]
  · intro h hmem
    rw [if_neg h] at hcount
    exact absurd hmem (List.count_eq_zero.1 hcount)

/-- An owner of a node has a link to it as items. -/
theorem Whole.link_of_owner (hg : g.Whole c) (h : i ∈ g.owners j) :
    j < g.nodes.length ∧
      ∃ t, g.type? i = some t ∧ t ∈ g.types ∧ (g.fullname j, .items) ∈ c.links t := by
  have hi := hg.owners j i h
  have hj : j < g.nodes.length := by
    by_contra hge
    rw [owners_eq_nil (Nat.le_of_not_lt hge)] at h
    cases h
  obtain ⟨t, ht, hmem⟩ := exists_type? hi
  refine ⟨hj, t, ht, hmem, ?_⟩
  -- without a link the node would not be counted among the owners
  by_contra hnot
  have hcount := (hg.complete i hi t ht).owners j hj
  rw [if_neg hnot] at hcount
  exact List.count_eq_zero.1 hcount h

/-- Only a record owns anything. -/
theorem Whole.kind_of_owner (hg : g.Whole c) (h : i ∈ g.owners j) :
    ∃ t, g.type? i = some t ∧ t.kind = .record := by
  obtain ⟨_, t, ht, _, hlink⟩ := hg.link_of_owner h
  obtain ⟨need, hneed, _⟩ := List.mem_map.1 hlink
  obtain ⟨f, hf, _⟩ := List.mem_filterMap.1 hneed
  exact ⟨t, ht, NamedType.kind_of_mem_fields hf⟩

/-- An owner of a node depends on it. -/
theorem Whole.mem_dependencies_of_owner (hg : g.Whole c) (h : i ∈ g.owners j) :
    j ∈ g.dependencies i := by
  obtain ⟨hj, t, ht, _, hlink⟩ := hg.link_of_owner h
  have hname : g.fullname j ∈ (firsts (c.links t)).map Prod.fst := by
    rw [map_fst_firsts, List.mem_eraseDups]
    exact List.mem_map_of_mem (f := Prod.fst) hlink
  rw [← (hg.complete i (lt_of_type? ht) t ht).edges, List.map_map] at hname
  obtain ⟨e, he, heq⟩ := List.mem_map.1 hname
  have htarget : e.target = j :=
    fullname_inj hg.once (hg.edges e (List.mem_filter.1 he).1).2 hj heq
  rw [← htarget]
  exact List.mem_map_of_mem he

theorem Whole.nodup_owners (hg : g.Whole c) (j : Nat) : (g.owners j).Nodup := by
  refine List.nodup_iff_count_le_one.2 fun i => ?_
  by_cases hi : i ∈ g.owners j
  · obtain ⟨hj, t, ht, _, hlink⟩ := hg.link_of_owner hi
    rw [(hg.complete i (lt_of_type? ht) t ht).owners j hj, if_pos hlink]
  · rw [List.count_eq_zero.2 hi]
    exact Nat.zero_le 1

/-- A record or enum is needed, never a fixed type. -/
theorem Whole.kind_of_dependency (hg : g.Whole c) (hc : c.Closed) (h : j ∈ g.dependencies i)
    {t : NamedType} (ht : g.type? j = some t) : t.kind ≠ .fixed := by
  obtain ⟨e, he, rfl⟩ := List.mem_map.1 h
  obtain ⟨he, hsource⟩ := List.mem_filter.1 he
  obtain ⟨u, hu, _⟩ := exists_type? (hg.edges e he).1
  have hi : e.source = i := by simpa using hsource
  have hmem : g.fullname e.target ∈ c.targets u := by
    rw [← List.mem_eraseDups, ← hg.fullnames_dependencies hc (hi ▸ hu)]
    exact List.mem_map_of_mem h
  obtain ⟨f, _, hf⟩ := List.mem_filterMap.1 hmem
  obtain ⟨_, hentity⟩ := Option.filter_eq_some_iff.1 hf
  obtain ⟨t', ht'⟩ := Option.isSome_iff_exists.1 hentity
  obtain ⟨hget, hkind⟩ := c.entity?_eq_some.1 ht'
  rw [fullname_of_type? ht] at hget
  rw [type?_eq] at ht
  rw [hg.typed t (List.mem_of_getElem? ht), Option.some.injEq] at hget
  rwa [hget]

/-- What a node of a whole graph leads to has a node. -/
theorem Whole.mem_names_of_leads (hg : g.Whole c) (hc : c.Closed) {m n : String}
    (hm : m ∈ g.names) (h : c.Leads m n) : n ∈ g.names := by
  obtain ⟨i, hi, rfl⟩ := exists_of_mem_names hm
  obtain ⟨t, ht, hmem⟩ := exists_type? hi
  obtain ⟨t', ht', hn⟩ := h
  rw [fullname_of_type? ht, hg.typed t hmem, Option.some.injEq] at ht'
  rw [← ht', ← c.map_fst_links hc] at hn
  obtain ⟨⟨n', kind⟩, hlink, rfl⟩ := List.mem_map.1 hn
  exact (hg.complete i hi t ht).mem_names hg.toSound hlink

/-- The nodes of a graph are what some names lead to. -/
def Reached (c : Catalog) (added : List String) (g : Graph) : Prop :=
  ∀ n, n ∈ g.names ↔ ∃ a ∈ added, Relation.ReflTransGen c.Leads a n

theorem Adds.reached (hc : c.Closed) {ns : List String} (h : Adds c ns g g') {n : String}
    (hn : n ∈ g'.names) : n ∈ g.names ∨ ∃ a ∈ ns, Relation.ReflTransGen c.Leads a n := by
  induction h with
  | done g => exact Or.inl hn
  | @known m ns g g' i _ _ ih =>
      exact (ih hn).imp_right fun ⟨a, ha, han⟩ => ⟨a, by simp [ha], han⟩
  | @fresh m ns t g g₁ g' _ ht hgrows _ ih =>
      obtain rfl := hc.fullname_of_get? ht
      rcases ih hn with hn | ⟨a, ha, han⟩
      · have hinner := hgrows.reached hc (fun _ h => c.get?_of_mem_needs hc h) hn
        exact (reached_of_push hc ht hinner).imp_right fun hn => ⟨t.fullname, by simp, hn⟩
      · exact Or.inr ⟨a, by simp [ha], han⟩

/-- Adding one more name. -/
theorem Reached.add (hc : c.Closed) {added : List String} (hr : g.Reached c added) {n : String}
    (h : Adds c [n] g g') (hg' : g'.Whole c) (htypes : g.types <+: g'.types)
    (hn : n ∈ g'.names) : g'.Reached c (added ++ [n]) := by
  intro m
  constructor
  · intro hm
    rcases h.reached hc hm with hm | ⟨a, ha, ham⟩
    · obtain ⟨a, ha, ham⟩ := (hr m).1 hm
      exact ⟨a, by simp [ha], ham⟩
    · exact ⟨a, List.mem_append_right _ ha, ham⟩
  · rintro ⟨a, ha, ham⟩
    have hstart : a ∈ g'.names := by
      rcases List.mem_append.1 ha with ha | ha
      · exact (htypes.map _).subset ((hr a).2 ⟨a, ha, .refl⟩)
      · rw [List.mem_singleton.1 ha]
        exact hn
    clear ha
    -- along the path each definition has a node because the one before it is complete
    induction ham with
    | refl => exact hstart
    | tail _ hleads ih => exact hg'.mem_names_of_leads hc ih hleads

theorem Adds.append {ns ns' : List String} (h : Adds c ns g g') (h' : Adds c ns' g' g'') :
    Adds c (ns ++ ns') g g'' := by
  induction h with
  | done g => exact h'
  | known hfind _ ih => exact .known hfind (ih h')
  | fresh hfind ht hgrows _ ih => exact .fresh hfind ht hgrows (ih h')

/-- Adding names to a whole graph succeeds and leaves a whole graph. -/
theorem Whole.addAll (hc : c.Closed) (ns : List String) :
    ∀ {g : Graph} {added : List String}, g.Whole c → g.Reached c added →
      (∀ n ∈ ns, n ∈ Keyed.keys c.named) →
      ∃ g', Graph.addAll c ns g = .ok g' ∧ Adds c ns g g' ∧ g'.Whole c ∧
        g'.Reached c (added ++ ns) := by
  induction ns with
  | nil =>
      intro g added hg hr _
      exact ⟨g, rfl, .done g, hg, by rwa [List.append_nil]⟩
  | cons n ns ih =>
      intro g added hg hr hns
      obtain ⟨i, g₁, hadd, hadds, hg₁, htypes, hi, hname⟩ := hg.add hc (hns n (by simp))
      have hr₁ := hr.add hc hadds hg₁ htypes (hname ▸ fullname_mem hi)
      obtain ⟨g', hall, hadds', hg', hr'⟩ := ih hg₁ hr₁ fun m hm => hns m (by simp [hm])
      refine ⟨g', ?_, hadds.append hadds', hg', by simpa using hr'⟩
      rw [Graph.addAll, hadd]
      exact hall

/-! ## What a graph shows -/

/-- A graph shows what some names reach in a catalog: a node for each definition, and at every node
    the targets of its fields. -/
structure Spans (c : Catalog) (added : List String) (g : Graph) : Prop where
  once : g.names.Nodup
  reached : ∀ n, n ∈ g.names ↔ ∃ a ∈ added, Relation.ReflTransGen c.Leads a n
  typed : ∀ i t, g.type? i = some t → c.get? t.fullname = some t
  dependencies : ∀ i t, g.type? i = some t →
    (∀ j ∈ g.dependencies i, j < g.nodes.length) ∧
      g.fullnames (g.dependencies i) = (c.targets t).eraseDups
  dependents : ∀ i j, i ∈ g.dependents j ↔ j ∈ g.dependencies i
  owners : ∀ j < g.nodes.length, (∀ i ∈ g.owners j, i < g.nodes.length) ∧
    ∀ i t, g.type? i = some t →
      (c.Holds t (g.fullname j) → (g.owners j).count i = 1) ∧
        (¬ c.Holds t (g.fullname j) → i ∉ g.owners j)

theorem Whole.spans (hg : g.Whole c) (hc : c.Closed) {added : List String}
    (hr : g.Reached c added) : g.Spans c added where
  once := hg.once
  reached := hr
  typed := by
    intro i t ht
    rw [type?_eq] at ht
    exact hg.typed t (List.mem_of_getElem? ht)
  dependencies := fun i t ht => ⟨hg.dependencies_lt, hg.fullnames_dependencies hc ht⟩
  dependents := fun i j => mem_dependents_iff
  owners := fun j hj => ⟨hg.owners j, fun i t ht => hg.count_owners hc ht hj⟩

/-- **A graph shows what was added.** Whatever was read, and in whatever order names of the catalog
    are added to an empty graph, each call ends and succeeds, without meeting the bound on its depth,
    and leaves the graph of all that the names so far reach. -/
theorem add_spans (calls : List Reader.Call) {c : Catalog}
    (h : (Reader.after calls).finish = .ok c) (names : List String)
    (hnames : ∀ n ∈ names, n ∈ Keyed.keys c.named) :
    ∃ g, addAll c names empty = .ok g ∧ Adds c names empty g ∧ g.Spans c names ∧
      ∀ n ∈ Keyed.keys c.named, ∃ i g', g.add c n = .ok (i, g') ∧ Adds c [n] g g' ∧
        g'.fullname i = n ∧ g'.Spans c (names ++ [n]) := by
  have hc := (Reader.sound_after calls).closed_of_finish h
  have hempty : empty.Reached c [] := by simp [Reached, empty, Graph.names, types]
  obtain ⟨g, hall, hadds, hg, hr⟩ := (whole_empty c).addAll hc names hempty hnames
  rw [List.nil_append] at hr
  refine ⟨g, hall, hadds, hg.spans hc hr, fun n hn => ?_⟩
  obtain ⟨i, g', hadd, hadds', hg', htypes, hi, hname⟩ := hg.add hc hn
  exact ⟨i, g', hadd, hadds', hname,
    hg'.spans hc (hr.add hc hadds' hg' htypes (hname ▸ fullname_mem hi))⟩

/-- The tree is added after an enum that it refers to. -/
theorem add_spans_tree :
    (Reader.after Reader.treeCalls).finish = .ok Reader.treeCatalog ∧
    (∀ n ∈ ["x.Left", "x.Tree"], n ∈ Keyed.keys Reader.treeCatalog.named) ∧
    ∃ g, addAll Reader.treeCatalog ["x.Left", "x.Tree"] empty = .ok g ∧
      g.Spans Reader.treeCatalog ["x.Left", "x.Tree"] := by
  have hnames : ∀ n ∈ ["x.Left", "x.Tree"], n ∈ Keyed.keys Reader.treeCatalog.named := by
    decide +kernel
  obtain ⟨g, hall, _, hspans, _⟩ := add_spans Reader.treeCalls Reader.finish_treeCalls _ hnames
  exact ⟨Reader.finish_treeCalls, hnames, g, hall, hspans⟩

/-! ## The graph of a catalog -/

/-- A graph that comes of a catalog by adding names and judging roots. -/
inductive Built (c : Catalog) : Graph → Prop
  | empty : Built c empty
  | add {g g' : Graph} {n : String} {i : Nat} : Built c g → g.add c n = .ok (i, g') → Built c g'
  | findRoots {g : Graph} : Built c g → Built c g.findRoots

@[simp] theorem length_findRoots (g : Graph) : g.findRoots.nodes.length = g.nodes.length := by
  simp [Graph.findRoots]

@[simp] theorem types_findRoots (g : Graph) : g.findRoots.types = g.types := by
  unfold types Graph.findRoots
  apply List.ext_getElem?
  intro k
  simp only [List.getElem?_map, List.getElem?_mapIdx]
  cases g.nodes[k]? <;> rfl

@[simp] theorem owners_findRoots (g : Graph) (j : Nat) : g.findRoots.owners j = g.owners j := by
  unfold owners Graph.findRoots
  simp only [List.getElem?_mapIdx]
  cases g.nodes[j]? <;> rfl

/-- Judging roots touches neither types nor relations. -/
theorem Whole.findRoots (hg : g.Whole c) : g.findRoots.Whole c where
  once := by rw [names, types_findRoots]; exact hg.once
  typed := by rw [types_findRoots]; exact hg.typed
  edges := by rw [length_findRoots]; exact hg.edges
  owners := by simpa using hg.owners
  complete := by
    intro i hi t ht
    rw [length_findRoots] at hi
    rw [type?_eq, types_findRoots, ← type?_eq] at ht
    have hname : ∀ k, g.findRoots.fullname k = g.fullname k := by simp [fullname_eq, names]
    obtain ⟨hedges, howners⟩ := hg.complete i hi t ht
    refine ⟨?_, fun j hj => ?_⟩
    · simp only [hname]
      exact hedges
    · rw [owners_findRoots, hname]
      exact howners j (by simpa using hj)

theorem Built.whole (h : g.Built c) (hc : c.Closed) : g.Whole c := by
  induction h with
  | empty => exact whole_empty c
  | @add g g' n i _ hadd ih =>
      by_cases hn : n ∈ Keyed.keys c.named
      · obtain ⟨i', g'', hadd', _, hg'', _⟩ := ih.add hc hn
        rw [hadd', Except.ok.injEq, Prod.mk.injEq] at hadd
        rw [← hadd.2]
        exact hg''
      · -- a name outside the catalog is added only where it has a node already
        have hnone : c.get? n = none := by
          cases hget : c.get? n with
          | none => rfl
          | some t => exact absurd (Keyed.mem_keys_of_get? hget) hn
        unfold Graph.add at hadd
        rw [hnone] at hadd
        split at hadd
        · rw [Except.ok.injEq, Prod.mk.injEq] at hadd
          rw [← hadd.2]
          exact ih
        · cases hadd
  | findRoots _ ih => exact ih.findRoots

theorem Built.addAll (ns : List String) :
    ∀ {g g' : Graph}, g.Built c → Graph.addAll c ns g = .ok g' → g'.Built c := by
  induction ns with
  | nil =>
      intro g g' hg h
      rw [Graph.addAll, Except.ok.injEq] at h
      exact h ▸ hg
  | cons n ns ih =>
      intro g g' hg h
      rw [Graph.addAll] at h
      obtain ⟨⟨i, g₁⟩, hadd, h⟩ := Answer.of_bind_ok h
      exact ih (hg.add hadd) h

theorem built_ofCatalog {g : Graph} (h : ofCatalog c = .ok g) : g.Built c := by
  obtain ⟨g₁, hall, h⟩ := Answer.of_bind_ok h
  rw [← Except.ok.inj h]
  exact (Built.empty.addAll c.topLevel hall).findRoots

/-- A closed catalog has a graph. -/
theorem exists_ofCatalog (hc : c.Closed) : ∃ g, ofCatalog c = .ok g := by
  have hempty : empty.Reached c [] := by simp [Reached, empty, Graph.names, types]
  obtain ⟨g, hall, _⟩ := (whole_empty c).addAll hc c.topLevel hempty hc.topLevel
  refine ⟨g.findRoots, ?_⟩
  rw [ofCatalog, hall]
  rfl

/-- **What is read can be drawn.** Whatever the calls, failed ones among them, a catalog that comes
    out of them is closed, and there is a graph of it. -/
theorem finish_closed (calls : List Reader.Call) {c : Catalog}
    (h : (Reader.after calls).finish = .ok c) : c.Closed ∧ ∃ g, ofCatalog c = .ok g := by
  have hc := (Reader.sound_after calls).closed_of_finish h
  have hempty : empty.Reached c [] := by simp [Reached, empty, Graph.names, types]
  obtain ⟨g, hall, _⟩ := (whole_empty c).addAll hc c.topLevel hempty hc.topLevel
  refine ⟨hc, g.findRoots, ?_⟩
  rw [ofCatalog, hall]
  rfl

/-- The tree is closed although one of its sources failed. -/
theorem finish_closed_tree :
    (Reader.after Reader.treeCalls).finish = .ok Reader.treeCatalog ∧
    Reader.treeCatalog.Closed ∧ ∃ g, ofCatalog Reader.treeCatalog = .ok g :=
  ⟨Reader.finish_treeCalls, finish_closed Reader.treeCalls Reader.finish_treeCalls⟩

end Graph

end AvroCodegen
