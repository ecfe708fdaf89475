import AvroCodegen.Proofs.Ownership
import AvroCodegen.Proofs.PictureIds

set_option autoImplicit false

/-! # Kinds of edges

An edge tells how one type needs another, by a plain field or as the items of an array, and the picture
draws the second kind dashed. Every array enters an owner as well. But between two nodes there is one
edge at most, and it keeps the kind that it was made with. So the first field that stands for a type
decides how the edge looks, while the owners come of all fields (`Graph.built_kinds`).

The two tell the same unless a record has a plain field of some type in front of an array of it, as a
cart has that holds its last item and a list of items (`Graph.kinds_cart`). -/

namespace AvroCodegen

/-! ## The first field -/

/-- How a field with the schema needs what the schema stands for. -/
def Schema.needKind (s : Schema) : EdgeKind :=
  if s.element?.isSome then .items else .field

/-- The first field of a type that stands for a given record or enum. -/
def Catalog.firstField? (c : Catalog) (t : NamedType) (n : String) : Option FieldDecl :=
  t.fields.find? fun f => c.target? f.schema = some n

/-- What comes first among the pairs of its key is what a search for the key finds. -/
theorem mem_firsts_iff {α : Type} (l : List (String × α)) (p : String × α) :
    p ∈ firsts l ↔ l.find? (fun q => q.1 = p.1) = some p := by
  induction l using List.reverseRecOn with
  | nil => simp [firsts]
  | append_singleton l q ih =>
      have hnone : l.find? (fun r => r.1 = p.1) = none ↔ p.1 ∉ l.map Prod.fst := by
        simp only [List.find?_eq_none, decide_eq_true_eq, List.mem_map, not_exists, not_and]
      -- a pair at the end is found if no other of its key is there
      have hlast : (l ++ [q]).find? (fun r => r.1 = p.1) = some p ↔
          p ∈ firsts l ∨ p.1 ∉ l.map Prod.fst ∧ p = q := by
        rw [List.find?_append, Option.or_eq_some_iff, ← ih, hnone]
        refine or_congr_right (and_congr_right fun _ => ⟨fun h => ?_, fun h => by simp [h]⟩)
        simpa using List.mem_of_find?_eq_some h
      have hkeys : q.1 ∈ (firsts l).map Prod.fst ↔ q.1 ∈ l.map Prod.fst := by
        rw [map_fst_firsts, List.mem_eraseDups]
      rw [hlast, firsts_concat]
      by_cases hq : q.1 ∈ l.map Prod.fst
      · rw [if_pos (hkeys.2 hq)]
        exact ⟨.inl, fun h => h.resolve_right fun ⟨hnew, heq⟩ => hnew (heq ▸ hq)⟩
      · rw [if_neg (fun h => hq (hkeys.1 h)), List.mem_append, List.mem_singleton]
        exact or_congr_right ⟨fun heq => ⟨heq ▸ hq, heq⟩, And.right⟩

theorem nodup_map_fst_firsts {α : Type} (l : List (String × α)) :
    ((firsts l).map Prod.fst).Nodup := by
  induction l using List.reverseRecOn with
  | nil => exact .nil
  | append_singleton l q ih =>
      rw [firsts_concat]
      split
      · exact ih
      · next hnew =>
          rw [List.map_append]
          exact ih.append (List.nodup_singleton _) (List.disjoint_singleton.2 hnew)

namespace Catalog

variable {c : Catalog} {t : NamedType} {n : String}

theorem mem_firsts_links (hc : c.Closed) {kind : EdgeKind} : (n, kind) ∈ firsts (c.links t) ↔
    ∃ f, c.firstField? t n = some f ∧ f.schema.needKind = kind := by
  have hkey : ∀ f : FieldDecl, (((c.target? f.schema).map fun m => (m, f.schema.needKind)).any
      fun q => q.1 = n) = decide (c.target? f.schema = some n) := by
    intro f
    cases c.target? f.schema <;> simp
  have hlinks : c.links t = t.fields.filterMap fun f =>
      (c.target? f.schema).map fun m => (m, f.schema.needKind) := links_eq hc t
  rw [mem_firsts_iff, hlinks, List.find?_filterMap]
  simp only [hkey]
  rw [Option.bind_eq_some_iff]
  refine exists_congr fun f => and_congr_right fun hf => ?_
  have htarget : c.target? f.schema = some n := by simpa using List.find?_some hf
  simp [htarget]

end Catalog

namespace Graph

variable {c : Catalog} {g : Graph} {t : NamedType} {i j : Nat} {kind : EdgeKind}

/-! ## Edges and owners -/

theorem Whole.mem_edges_iff (hg : g.Whole c) (hc : c.Closed) (ht : g.type? i = some t)
    (hj : j < g.nodes.length) : ⟨i, j, kind⟩ ∈ g.edges ↔
      ∃ f, c.firstField? t (g.fullname j) = some f ∧ f.schema.needKind = kind := by
  rw [← Catalog.mem_firsts_links hc, ← (hg.complete i (lt_of_type? ht) t ht).edges, List.mem_map]
  constructor
  · intro he
    exact ⟨_, List.mem_filter.2 ⟨he, by simp⟩, rfl⟩
  · rintro ⟨⟨i', j', kind'⟩, he, heq⟩
    obtain ⟨hmem, hsource⟩ := List.mem_filter.1 he
    obtain ⟨hname, rfl⟩ := Prod.mk.inj heq
    obtain rfl : i' = i := by simpa using hsource
    obtain ⟨_, hj'⟩ := hg.edges _ hmem
    obtain rfl : j' = j := fullname_inj hg.once hj' hj hname
    exact hmem

/-- Between two nodes there is one edge at most. -/
theorem Whole.nodup_edges (hg : g.Whole c) :
    (g.edges.map fun e => (e.source, e.target)).Nodup := by
  have hfrom : ∀ i < g.nodes.length,
      g.edges.Pairwise fun e e' => e.source = i → e'.source = i →
        g.fullname e.target ≠ g.fullname e'.target := by
    intro i hi
    obtain ⟨t, ht, _⟩ := exists_type? hi
    have hnames := nodup_map_fst_firsts (c.links t)
    rw [← (hg.complete i hi t ht).edges, List.map_map, List.Nodup, List.pairwise_map, edgesFrom,
      List.pairwise_filter] at hnames
    simpa using hnames
  rw [List.Nodup, List.pairwise_map, List.pairwise_iff_getElem]
  intro a b ha hb hab heq
  obtain ⟨hsource, htarget⟩ := Prod.mk.inj heq
  obtain ⟨hi, _⟩ := hg.edges _ (List.getElem_mem ha)
  exact List.pairwise_iff_getElem.1 (hfrom _ hi) a b ha hb hab rfl hsource.symm
    (congrArg g.fullname htarget)

theorem exists_firstField? {n : String} (h : c.Holds t n) : ∃ f, c.firstField? t n = some f := by
  obtain ⟨f, hf, _, htarget⟩ := h
  exact Option.isSome_iff_exists.1 (List.find?_isSome.2 ⟨f, hf, by simpa using htarget⟩)

/-- A first field that is an array holds what it stands for. -/
theorem holds_of_firstField? {n : String} {f : FieldDecl} (h : c.firstField? t n = some f)
    (hkind : f.schema.needKind = .items) : c.Holds t n := by
  refine ⟨f, List.mem_of_find?_eq_some h, ?_, by simpa using List.find?_some h⟩
  by_contra hplain
  simp [Schema.needKind, hplain] at hkind

theorem Whole.owner_of_items (hg : g.Whole c) (hc : c.Closed) (h : ⟨i, j, .items⟩ ∈ g.edges) :
    i ∈ g.owners j := by
  obtain ⟨hi, hj⟩ := hg.edges _ h
  obtain ⟨t, ht, _⟩ := exists_type? hi
  obtain ⟨f, hfirst, hkind⟩ := (hg.mem_edges_iff hc ht hj).1 h
  exact (hg.mem_owners_iff hc ht hj).2 (holds_of_firstField? hfirst hkind)

theorem Whole.edge_of_owner (hg : g.Whole c) (hc : c.Closed) (h : i ∈ g.owners j) :
    ∃ t f, g.type? i = some t ∧ c.firstField? t (g.fullname j) = some f ∧
      ⟨i, j, f.schema.needKind⟩ ∈ g.edges := by
  obtain ⟨hj, t, ht, _⟩ := hg.link_of_owner h
  obtain ⟨f, hfirst⟩ := exists_firstField? ((hg.mem_owners_iff hc ht hj).1 h)
  exact ⟨t, f, ht, hfirst, (hg.mem_edges_iff hc ht hj).2 ⟨f, hfirst, rfl⟩⟩

/-! ## Arrows -/

/-- The end of a statement that draws a dashed arrow. -/
def dashedEnd : String := " [style=dashed, label=\"1..N\"];\n"

/-- A statement of the picture draws a dashed arrow. -/
def Dashed (line : String) : Prop :=
  ∃ front, line = front ++ dashedEnd

theorem dashed_edgeLine {e : Edge} : Dashed (g.edgeLine e) ↔ e.kind = .items := by
  rw [edgeLine_eq]
  cases hkind : e.kind with
  | items =>
      refine iff_of_true ⟨"  \"" ++ pictureId (g.fullname e.source) ++ "\" -> \"" ++
        pictureId (g.fullname e.target) ++ "\"", ?_⟩ rfl
      simp [dashedEnd, arrowStyle, ← String.toList_inj]
  | field =>
      refine iff_of_false ?_ (by decide)
      rintro ⟨front, hline⟩
      have hback := congrArg (fun line => line.toList.reverse) hline
      simp [dashedEnd, arrowStyle] at hback

/-! ## What the kinds tell -/

/-- Where the edges, the owners and the arrows of a graph come from: an edge has the kind of the first
    field that stands for its target, owners come of all arrays, and the arrows show the kinds. -/
structure ShowsKinds (c : Catalog) (g : Graph) : Prop where
  edges : ∀ i j t kind, g.type? i = some t → j < g.nodes.length →
    (⟨i, j, kind⟩ ∈ g.edges ↔
      ∃ f, c.firstField? t (g.fullname j) = some f ∧ f.schema.needKind = kind)
  single : (g.edges.map fun e => (e.source, e.target)).Nodup
  owners : ∀ i j t, g.type? i = some t → j < g.nodes.length →
    (i ∈ g.owners j ↔ c.Holds t (g.fullname j))
  items : ∀ i j, ⟨i, j, .items⟩ ∈ g.edges → i ∈ g.owners j
  owned : ∀ i j, i ∈ g.owners j → ∃ kind, ⟨i, j, kind⟩ ∈ g.edges
  dashed : ∀ e ∈ g.edges, Dashed (g.edgeLine e) ↔ e.kind = .items

theorem Whole.showsKinds (hg : g.Whole c) (hc : c.Closed) : g.ShowsKinds c where
  edges := fun _ _ _ _ ht hj => hg.mem_edges_iff hc ht hj
  single := hg.nodup_edges
  owners := fun _ _ _ ht hj => hg.mem_owners_iff hc ht hj
  items := fun _ _ h => hg.owner_of_items hc h
  owned := by
    intro i j h
    obtain ⟨_, _, _, _, hedge⟩ := hg.edge_of_owner hc h
    exact ⟨_, hedge⟩
  dashed := fun _ _ => dashed_edgeLine

/-- The edges to items, and the dashed arrows, lead from the owners of a node to the node. -/
structure KindsTellOwners (g : Graph) : Prop where
  kinds : ∀ i j, ⟨i, j, .items⟩ ∈ g.edges ↔ i ∈ g.owners j
  dashed : ∀ i j, (∃ e ∈ g.edges, e.source = i ∧ e.target = j ∧ Dashed (g.edgeLine e)) ↔
    i ∈ g.owners j

/-- The kinds tell the owners just where what is held is held by the first field that stands for it. -/
theorem Whole.kindsTellOwners_iff (hg : g.Whole c) (hc : c.Closed) : g.KindsTellOwners ↔
    ∀ i t n f, g.type? i = some t → c.firstField? t n = some f → c.Holds t n →
      f.schema.needKind = .items := by
  constructor
  · intro h i t n f ht hfirst hholds
    obtain ⟨j, hj, rfl⟩ := exists_of_mem_names
      ((hg.complete i (lt_of_type? ht) t ht).mem_names hg.toSound ((c.mem_links_items hc).2 hholds))
    have hedge := (h.kinds i j).2 ((hg.mem_owners_iff hc ht hj).2 hholds)
    obtain ⟨f', hfirst', hkind⟩ := (hg.mem_edges_iff hc ht hj).1 hedge
    rwa [Option.some.inj (hfirst.symm.trans hfirst')]
  · intro h
    have hkinds : ∀ i j, ⟨i, j, .items⟩ ∈ g.edges ↔ i ∈ g.owners j := by
      refine fun i j => ⟨hg.owner_of_items hc, fun howner => ?_⟩
      obtain ⟨t, f, ht, hfirst, hedge⟩ := hg.edge_of_owner hc howner
      have hholds := (hg.mem_owners_iff hc ht (hg.link_of_owner howner).1).1 howner
      rwa [h i t _ f ht hfirst hholds] at hedge
    refine ⟨hkinds, fun i j => ?_⟩
    rw [← hkinds]
    constructor
    · rintro ⟨⟨i', j', kind⟩, he, rfl, rfl, hdashed⟩
      obtain rfl : kind = .items := dashed_edgeLine.1 hdashed
      exact he
    · exact fun he => ⟨_, he, rfl, rfl, dashed_edgeLine.2 rfl⟩

/-- **What the kinds of edges tell.** In every graph of a catalog that was read, in whatever order names
    were added, an edge has the kind of the first field that stands for its target. So an edge to items,
    and a dashed arrow, comes from an owner, and an owner has an edge; but all owners have edges to items
    only where no plain field of a type comes before an array of it. -/
theorem built_kinds (calls : List Reader.Call) {c : Catalog}
    (h : (Reader.after calls).finish = .ok c) {g : Graph} (hg : g.Built c) :
    g.ShowsKinds c ∧
      (g.KindsTellOwners ↔ ∀ i t n f, g.type? i = some t → c.firstField? t n = some f →
        c.Holds t n → f.schema.needKind = .items) := by
  have hc := (Reader.sound_after calls).closed_of_finish h
  have hwhole := hg.whole hc
  exact ⟨hwhole.showsKinds hc, hwhole.kindsTellOwners_iff hc⟩

/-! ## A cart

A cart has its last item by a plain field and all its items in an array behind it. -/

/-- The calls that read the cart. -/
def cartCalls : List Reader.Call :=
  [ .node (Reader.recordNode "x.Cart"
      [ ("last", Reader.recordNode "Item" [("sku", .str "string")]),
        ("items", Reader.arrayNode (.str "Item")) ]),
    .source "cart" "[\"x.Cart\"]" ]

/-- What comes of reading the cart. -/
def cartCatalog : Catalog :=
  (Reader.after cartCalls).finish.toOption.getD ⟨[], []⟩

/-- The graph of the cart. -/
def cartGraph : Graph :=
  (ofCatalog cartCatalog).toOption.getD empty

theorem finish_cart : (Reader.after cartCalls).finish = .ok cartCatalog :=
  Answer.eq_ok_getD _ (by decide +kernel)

theorem ofCatalog_cart : ofCatalog cartCatalog = .ok cartGraph :=
  Answer.eq_ok_getD _ (by decide +kernel)

/-- The cart owns its items, but its edge is plain and so is the arrow. -/
theorem kinds_cart : (Reader.after cartCalls).finish = .ok cartCatalog ∧
    ofCatalog cartCatalog = .ok cartGraph ∧
    cartGraph.fullnames cartGraph.ids = ["x.Cart", "x.Item"] ∧
    cartGraph.owners 1 = [0] ∧ cartGraph.edges = [⟨0, 1, .field⟩] ∧
    cartGraph.edges.map cartGraph.edgeLine = ["  \"x_Cart\" -> \"x_Item\";\n"] ∧
    ¬ cartGraph.KindsTellOwners := by
  have howners : cartGraph.owners 1 = [0] := by decide +kernel
  have hedges : cartGraph.edges = [⟨0, 1, .field⟩] := by decide +kernel
  refine ⟨finish_cart, ofCatalog_cart, by decide +kernel, howners, hedges, by decide +kernel,
    fun htell => ?_⟩
  have hitems := (htell.kinds 0 1).2 (by simp [howners])
  simp [hedges] at hitems

theorem built_kinds_cart : (Reader.after cartCalls).finish = .ok cartCatalog ∧
    cartGraph.Built cartCatalog ∧ cartGraph.ShowsKinds cartCatalog :=
  have hbuilt : cartGraph.Built cartCatalog := built_ofCatalog ofCatalog_cart
  ⟨finish_cart, hbuilt, (built_kinds cartCalls finish_cart hbuilt).1⟩

end Graph

end AvroCodegen
