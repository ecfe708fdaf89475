import AvroCodegen.Graph.Picture
import AvroCodegen.Proofs.WholeGraph

set_option autoImplicit false

/-! # What a picture tells apart

The picture of a graph is read by its statements: a node has an identifier, and an arrow names two. An
identifier is a fullname with points and hyphens turned into underscores, so different nodes may get one
identifier, namely if their fullnames are alike but for such characters. Then arrows to either node are
written alike, and two graphs with different edges have one picture (`Graph.picture_twins`).

Where no two fullnames are alike the picture tells all (`Graph.built_pictures`). For that the text is taken
apart again, first into lines and then each line at its quotes, which works as long as no name has a
quote or a line feed. -/

namespace AvroCodegen

/-! ## Texts taken apart -/

/-- A list has one way to be cut at the first place of an element. -/
theorem cut_unique {α : Type} {x : α} {back back' : List α} : ∀ {front front' : List α},
    x ∉ front → x ∉ front' → front ++ x :: back = front' ++ x :: back' →
    front = front' ∧ back = back'
  | [], [], _, _, h => ⟨rfl, (List.cons.inj h).2⟩
  | [], y :: front', _, hfront', h => by
      obtain ⟨rfl, _⟩ := List.cons.inj h
      simp at hfront'
  | y :: front, [], hfront, _, h => by
      obtain ⟨rfl, _⟩ := List.cons.inj h
      simp at hfront
  | y :: front, y' :: front', hfront, hfront', h => by
      obtain ⟨rfl, hrest⟩ := List.cons.inj h
      obtain ⟨hf, hb⟩ := cut_unique (fun hx => hfront (.tail _ hx)) (fun hx => hfront' (.tail _ hx))
        hrest
      exact ⟨congrArg (y :: ·) hf, hb⟩

theorem cutText_unique {x : Char} {sep front front' back back' : String} (hsep : sep.toList = [x])
    (hfront : x ∉ front.toList) (hfront' : x ∉ front'.toList)
    (h : front ++ sep ++ back = front' ++ sep ++ back') : front = front' ∧ back = back' := by
  have hlist := congrArg String.toList h
  simp only [String.toList_append, hsep, List.append_assoc, List.singleton_append] at hlist
  obtain ⟨hf, hb⟩ := cut_unique hfront hfront' hlist
  exact ⟨String.toList_inj.1 hf, String.toList_inj.1 hb⟩

/-- A text with a line feed at its end and nowhere else. -/
def IsLine (s : String) : Prop :=
  ∃ body, s = body ++ "\n" ∧ '\n' ∉ body.toList

/-- Lines can be told from the text that they make. -/
theorem join_lines_inj : ∀ {ls ls' : List String}, (∀ l ∈ ls, IsLine l) → (∀ l ∈ ls', IsLine l) →
    String.join ls = String.join ls' → ls = ls'
  | [], [], _, _, _ => rfl
  | [], l :: ls', _, h', h => by
      obtain ⟨body, rfl, _⟩ := h' l (by simp)
      simp [String.join_cons] at h
  | l :: ls, [], h', _, h => by
      obtain ⟨body, rfl, _⟩ := h' l (by simp)
      simp [String.join_cons] at h
  | l :: ls, l' :: ls', hl, hl', h => by
      obtain ⟨body, rfl, hbody⟩ := hl l (by simp)
      obtain ⟨body', rfl, hbody'⟩ := hl' l' (by simp)
      rw [String.join_cons, String.join_cons] at h
      obtain ⟨rfl, hrest⟩ := cutText_unique (by rfl) hbody hbody' h
      rw [join_lines_inj (fun l hl₁ => hl l (.tail _ hl₁)) (fun l hl₁ => hl' l (.tail _ hl₁)) hrest]

/-! ## Fullnames that are alike -/

/-- The characters that are an underscore in an identifier. -/
def separators : List Char := ['.', '-', '_']

/-- Two fullnames are alike if they differ in separators only. -/
def Alike (m n : String) : Prop :=
  List.Forall₂ (fun a b => a = b ∨ a ∈ separators ∧ b ∈ separators) m.toList n.toList

/-! ## Names that break up nothing -/

/-- A text without quotes and line feeds. -/
def Unquoted (s : String) : Prop :=
  '"' ∉ s.toList ∧ '\n' ∉ s.toList

/-- The names of a type do not break up the lines of a picture, nor its fullname the quotes around the
    identifier. -/
structure NamedType.Legible (t : NamedType) : Prop where
  fullname : Unquoted t.fullname
  name : '\n' ∉ t.name.toList
  fields : ∀ f ∈ t.fields, '\n' ∉ f.name.toList

instance (s : String) : Decidable (Unquoted s) :=
  inferInstanceAs (Decidable (_ ∧ _))

instance (t : NamedType) : Decidable t.Legible :=
  decidable_of_iff
    (Unquoted t.fullname ∧ '\n' ∉ t.name.toList ∧ ∀ f ∈ t.fields, '\n' ∉ f.name.toList)
    ⟨fun ⟨hfullname, hname, hfields⟩ => ⟨hfullname, hname, hfields⟩,
      fun h => ⟨h.fullname, h.name, h.fields⟩⟩

/-- All definitions of a catalog are legible. -/
def Catalog.Legible (c : Catalog) : Prop :=
  ∀ p ∈ c.named, p.2.Legible

instance (c : Catalog) : Decidable c.Legible :=
  inferInstanceAs (Decidable (∀ p ∈ c.named, p.2.Legible))

namespace Graph

/-- What an identifier shows for a character. -/
def shownAs (a : Char) : Char :=
  if a = '.' || a = '-' then '_' else a

theorem shownAs_of_mem {a : Char} (h : a ∈ separators) : shownAs a = '_' := by
  simp only [separators, List.mem_cons, List.not_mem_nil, or_false] at h
  rcases h with rfl | rfl | rfl <;> rfl

theorem shownAs_of_not_mem {a : Char} (h : a ∉ separators) : shownAs a = a := by
  simp only [separators, List.mem_cons, List.not_mem_nil, or_false, not_or] at h
  simp [shownAs, h.1, h.2.1]

theorem shownAs_eq_iff {a b : Char} :
    shownAs a = shownAs b ↔ a = b ∨ a ∈ separators ∧ b ∈ separators := by
  have hunderscore : '_' ∈ separators := by simp [separators]
  by_cases ha : a ∈ separators
  · by_cases hb : b ∈ separators
    · simp [shownAs_of_mem ha, shownAs_of_mem hb, ha, hb]
    · rw [shownAs_of_mem ha, shownAs_of_not_mem hb]
      refine ⟨fun h => absurd (h ▸ hunderscore) hb, fun h => ?_⟩
      rcases h with rfl | ⟨_, h⟩
      · exact absurd ha hb
      · exact absurd h hb
  · by_cases hb : b ∈ separators
    · rw [shownAs_of_not_mem ha, shownAs_of_mem hb]
      refine ⟨fun h => absurd (h ▸ hunderscore) ha, fun h => ?_⟩
      rcases h with rfl | ⟨h, _⟩
      · exact absurd hb ha
      · exact absurd h ha
    · simp [shownAs_of_not_mem ha, shownAs_of_not_mem hb, ha]

theorem pictureId_eq (n : String) : pictureId n = String.ofList (n.toList.map shownAs) := rfl

/-- Identifiers do not tell alike fullnames apart, and tell all others apart. -/
theorem pictureId_eq_iff {m n : String} : pictureId m = pictureId n ↔ Alike m n := by
  rw [pictureId_eq, pictureId_eq, String.ofList_inj, Alike, ← List.forall₂_eq_eq_eq,
    List.forall₂_map_left_iff, List.forall₂_map_right_iff]
  simp only [shownAs_eq_iff]

/-- No two nodes of a graph have alike fullnames. -/
def Apart (g : Graph) : Prop :=
  g.names.Pairwise fun m n => ¬ Alike m n

theorem nodup_ids_iff {g : Graph} : (g.names.map pictureId).Nodup ↔ g.Apart := by
  rw [List.Nodup, List.pairwise_map, Apart]
  simp only [ne_eq, pictureId_eq_iff]

theorem unquoted_pictureId {n : String} (h : Unquoted n) : Unquoted (pictureId n) := by
  have hshown : ∀ a, shownAs a ≠ '_' → a = shownAs a := by
    intro a ha
    by_cases hmem : a ∈ separators
    · exact absurd (shownAs_of_mem hmem) ha
    · exact (shownAs_of_not_mem hmem).symm
  have hmem : ∀ x, x ≠ '_' → x ∉ n.toList → x ∉ (pictureId n).toList := by
    intro x hx hn hmem
    rw [pictureId_eq, String.toList_ofList] at hmem
    obtain ⟨a, ha, rfl⟩ := List.mem_map.1 hmem
    rw [← hshown a hx] at hn
    exact hn ha
  exact ⟨hmem _ (by decide) h.1, hmem _ (by decide) h.2⟩

/-! ## Statements -/

variable {g g' : Graph}

/-- The statements of the nodes. -/
def nodeLines (g : Graph) : List String :=
  g.nodes.mapIdx g.nodeLine

/-- The statements of the edges. -/
def edgeLines (g : Graph) : List String :=
  g.edges.map g.edgeLine

/-- What follows the identifier in the statement of a node. -/
def nodeRest (g : Graph) (i : Nat) (n : Node) : String :=
  " [label=\"" ++ (n.schema.name ++ String.join (n.schema.fields.map fieldLine))
    ++ "\", fillcolor=\"" ++ g.colour i n ++ "\"];"

theorem nodeLine_eq (g : Graph) (i : Nat) (n : Node) : g.nodeLine i n =
    "  \"" ++ (pictureId n.schema.fullname ++ "\"" ++ (g.nodeRest i n ++ "\n")) := by
  have hlabel : "\" [label=\"" = "\"" ++ " [label=\"" := by decide
  have hend : "\"];\n" = "\"];" ++ "\n" := by decide
  simp only [nodeLine, nodeRest, hlabel, hend, String.append_assoc]

/-- How an arrow is drawn. -/
def arrowStyle : EdgeKind → String
  | .field => ""
  | .items => " [style=dashed, label=\"1..N\"]"

theorem edgeLine_eq (g : Graph) (e : Edge) : g.edgeLine e =
    "  \"" ++ (pictureId (g.fullname e.source) ++ "\"" ++ (" -> \"" ++
      (pictureId (g.fullname e.target) ++ "\"" ++ (arrowStyle e.kind ++ ";" ++ "\n")))) := by
  have harrow : "\" -> \"" = "\"" ++ " -> \"" := by decide
  have hend : ";\n" = ";" ++ "\n" := by decide
  obtain ⟨i, j, kind⟩ := e
  cases kind <;> simp only [edgeLine, arrowStyle, harrow, hend, String.append_assoc]

/-- A picture is its statements, each on a line. -/
theorem picture_eq (g : Graph) : g.picture =
    pictureHead ++ String.join (g.nodeLines ++ "\n" :: g.edgeLines ++ ["\x7d\n"]) := by
  simp only [picture, nodeLines, edgeLines, String.join_append, String.join_cons, String.append_assoc]
  rfl

/-- All types of a graph are legible. -/
def Legible (g : Graph) : Prop :=
  ∀ t ∈ g.types, t.Legible

theorem Legible.fullname (hg : g.Legible) (i : Nat) : Unquoted (g.fullname i) := by
  cases ht : g.type? i with
  | none => simp [Graph.fullname, ht, Unquoted]
  | some t =>
      rw [fullname_of_type? ht]
      rw [type?_eq] at ht
      exact (hg t (List.mem_of_getElem? ht)).fullname

theorem noFeed_colour (g : Graph) (i : Nat) (n : Node) : '\n' ∉ (g.colour i n).toList := by
  unfold colour
  repeat' split
  all_goals simp

theorem noFeed_fieldLine {f : FieldDecl} (h : '\n' ∉ f.name.toList) :
    '\n' ∉ (fieldLine f).toList := by
  unfold fieldLine
  split <;> simp [h]

theorem isLine_nodeLine {i : Nat} {n : Node} (h : n.schema.Legible) : IsLine (g.nodeLine i n) := by
  refine ⟨"  \"" ++ (pictureId n.schema.fullname ++ "\"" ++ g.nodeRest i n), ?_, ?_⟩
  · rw [nodeLine_eq]
    simp only [String.append_assoc]
  · have hid := (unquoted_pictureId h.fullname).2
    have hfields : ∀ f ∈ n.schema.fields, '\n' ∉ (fieldLine f).toList :=
      fun f hf => noFeed_fieldLine (h.fields f hf)
    simpa [nodeRest, hid, h.name, noFeed_colour] using hfields

theorem isLine_edgeLine (hg : g.Legible) (e : Edge) : IsLine (g.edgeLine e) := by
  refine ⟨"  \"" ++ (pictureId (g.fullname e.source) ++ "\"" ++ (" -> \"" ++
    (pictureId (g.fullname e.target) ++ "\"" ++ (arrowStyle e.kind ++ ";")))), ?_, ?_⟩
  · rw [edgeLine_eq]
    simp only [String.append_assoc]
  · have hsource := (unquoted_pictureId (hg.fullname e.source)).2
    have htarget := (unquoted_pictureId (hg.fullname e.target)).2
    have hstyle : '\n' ∉ (arrowStyle e.kind).toList := by
      cases e.kind <;> simp [arrowStyle]
    simp [hsource, htarget, hstyle]

theorem nodeLine_ne_blank (g : Graph) (i : Nat) (n : Node) : g.nodeLine i n ≠ "\n" := by
  intro h
  have hlist := congrArg String.toList h
  simp [nodeLine_eq] at hlist

/-- The statements of a graph can be told from its picture. -/
theorem lines_of_picture (hg : g.Legible) (hg' : g'.Legible) (h : g.picture = g'.picture) :
    g.nodeLines = g'.nodeLines ∧ g.edgeLines = g'.edgeLines := by
  have hlines : ∀ {g : Graph}, g.Legible →
      ∀ l ∈ g.nodeLines ++ "\n" :: g.edgeLines ++ ["\x7d\n"], IsLine l := by
    intro g hg l hl
    simp only [List.mem_append, List.mem_cons, List.not_mem_nil, or_false] at hl
    rcases hl with (hl | rfl | hl) | rfl
    · obtain ⟨i, hi, rfl⟩ := List.mem_mapIdx.1 hl
      exact isLine_nodeLine (hg _ (List.mem_map_of_mem (List.getElem_mem hi)))
    · exact ⟨"", by decide, by simp⟩
    · obtain ⟨e, _, rfl⟩ := List.mem_map.1 hl
      exact isLine_edgeLine hg e
    · exact ⟨"\x7d", by decide, by simp⟩
  have hblank : ∀ g : Graph, "\n" ∉ g.nodeLines := by
    intro g hmem
    obtain ⟨i, _, heq⟩ := List.mem_mapIdx.1 hmem
    exact nodeLine_ne_blank g i _ heq
  rw [picture_eq, picture_eq, String.append_right_inj] at h
  have hall := join_lines_inj (hlines hg) (hlines hg') h
  -- the first blank line ends the nodes
  simp only [List.append_assoc, List.cons_append] at hall
  obtain ⟨hnodes, hrest⟩ := cut_unique (hblank g) (hblank g') hall
  exact ⟨hnodes, List.append_cancel_right hrest⟩

/-! ## What one picture tells of two graphs -/

theorem ids_of_nodeLines (hg : g.Legible) (hg' : g'.Legible) (h : g.nodeLines = g'.nodeLines) :
    g.names.map pictureId = g'.names.map pictureId := by
  refine List.ext_getElem? fun i => ?_
  have hi := congrArg (fun lines => lines[i]?) h
  simp only [nodeLines, List.getElem?_mapIdx] at hi
  simp only [names, types, List.getElem?_map]
  cases hn : g.nodes[i]? with
  | none =>
      cases hn' : g'.nodes[i]? with
      | none => rfl
      | some n' => simp [hn, hn'] at hi
  | some n =>
      cases hn' : g'.nodes[i]? with
      | none => simp [hn, hn'] at hi
      | some n' =>
          have hlegible := hg _ (List.mem_map_of_mem (List.mem_of_getElem? hn))
          have hlegible' := hg' _ (List.mem_map_of_mem (List.mem_of_getElem? hn'))
          rw [hn, hn', Option.map_some, Option.map_some, Option.some.injEq, nodeLine_eq, nodeLine_eq,
            String.append_right_inj] at hi
          obtain ⟨hid, _⟩ := cutText_unique (by rfl) (unquoted_pictureId hlegible.fullname).1
            (unquoted_pictureId hlegible'.fullname).1 hi
          exact congrArg some hid

/-- Two edges are drawn as one arrow. -/
structure SameArrow (g g' : Graph) (e e' : Edge) : Prop where
  source : pictureId (g.fullname e.source) = pictureId (g'.fullname e'.source)
  target : pictureId (g.fullname e.target) = pictureId (g'.fullname e'.target)
  kind : e.kind = e'.kind

theorem arrowStyle_inj {k k' : EdgeKind} (h : arrowStyle k = arrowStyle k') : k = k' := by
  cases k <;> cases k' <;> simp_all [arrowStyle]

theorem sameArrow_of_edgeLine (hg : g.Legible) (hg' : g'.Legible) {e e' : Edge}
    (h : g.edgeLine e = g'.edgeLine e') : SameArrow g g' e e' := by
  have hid : ∀ i, '"' ∉ (pictureId (g.fullname i)).toList :=
    fun i => (unquoted_pictureId (hg.fullname i)).1
  have hid' : ∀ i, '"' ∉ (pictureId (g'.fullname i)).toList :=
    fun i => (unquoted_pictureId (hg'.fullname i)).1
  rw [edgeLine_eq, edgeLine_eq, String.append_right_inj] at h
  obtain ⟨hsource, h⟩ := cutText_unique (by rfl) (hid _) (hid' _) h
  rw [String.append_right_inj] at h
  obtain ⟨htarget, h⟩ := cutText_unique (by rfl) (hid _) (hid' _) h
  rw [String.append_left_inj, String.append_left_inj] at h
  exact ⟨hsource, htarget, arrowStyle_inj h⟩

theorem forall₂_sameArrow (hg : g.Legible) (hg' : g'.Legible) (h : g.edgeLines = g'.edgeLines) :
    List.Forall₂ (SameArrow g g') g.edges g'.edges := by
  rw [edgeLines, edgeLines, ← List.forall₂_eq_eq_eq, List.forall₂_map_left_iff,
    List.forall₂_map_right_iff] at h
  exact h.imp fun _ _ => sameArrow_of_edgeLine hg hg'

/-- In a graph without alike fullnames an identifier tells the node. -/
theorem Apart.eq_of_id (h : g.Apart) (hids : g.names.map pictureId = g'.names.map pictureId)
    {i j : Nat} (hi : i < g.nodes.length) (hj : j < g'.nodes.length)
    (heq : pictureId (g.fullname i) = pictureId (g'.fullname j)) : i = j := by
  refine (List.getElem?_inj (by simpa using hi) (nodup_ids_iff.2 h)).1 ?_
  have hj' : (g.names.map pictureId)[j]? = (g'.names.map pictureId)[j]? := by rw [hids]
  rw [hj', List.getElem?_map, List.getElem?_map, getElem?_names hi, getElem?_names hj,
    Option.map_some, Option.map_some, heq]

theorem eq_of_forall₂ {α : Type} {R : α → α → Prop} {as bs : List α} (h : List.Forall₂ R as bs)
    (hR : ∀ a ∈ as, ∀ b ∈ bs, R a b → a = b) : as = bs := by
  induction h with
  | nil => rfl
  | cons hab _ ih =>
      rw [hR _ (by simp) _ (by simp) hab,
        ih fun a ha b hb => hR a (.tail _ ha) b (.tail _ hb)]

/-- What two graphs have in common that have one picture: the statements, and so the fullnames up to
    separators; the fullnames themselves if none of them are alike between the graphs, and the edges if
    none are alike in one graph. -/
structure SamePicture (g g' : Graph) : Prop where
  nodeLines : g.nodeLines = g'.nodeLines
  edgeLines : g.edgeLines = g'.edgeLines
  alike : List.Forall₂ Alike g.names g'.names
  names : (∀ m ∈ g.names, ∀ n ∈ g'.names, Alike m n → m = n) → g.names = g'.names
  edges : g.Apart → g.edges = g'.edges

variable {c c' : Catalog}

theorem samePicture (hg : g.Whole c) (hg' : g'.Whole c') (hlegible : g.Legible)
    (hlegible' : g'.Legible) (h : g.picture = g'.picture) : g.SamePicture g' := by
  obtain ⟨hnodes, hedges⟩ := lines_of_picture hlegible hlegible' h
  have hids := ids_of_nodeLines hlegible hlegible' hnodes
  have halike : List.Forall₂ Alike g.names g'.names := by
    have hmap := hids
    rw [← List.forall₂_eq_eq_eq, List.forall₂_map_left_iff, List.forall₂_map_right_iff] at hmap
    exact hmap.imp fun _ _ => pictureId_eq_iff.1
  refine ⟨hnodes, hedges, halike, eq_of_forall₂ halike, fun hapart => ?_⟩
  refine eq_of_forall₂ (forall₂_sameArrow hlegible hlegible' hedges) ?_
  intro e he e' he' harrow
  obtain ⟨hi, hj⟩ := hg.edges e he
  obtain ⟨hi', hj'⟩ := hg'.edges e' he'
  have hsource := hapart.eq_of_id hids hi hi' harrow.source
  have htarget := hapart.eq_of_id hids hj hj' harrow.target
  cases e
  cases e'
  rw [Edge.mk.injEq]
  exact ⟨hsource, htarget, harrow.kind⟩

theorem Whole.legible (hg : g.Whole c) (hc : c.Legible) : g.Legible :=
  fun t ht => hc _ (Keyed.mem_of_get? (hg.typed t ht))

/-- **What a picture tells apart.** In every graph of a catalog that was read, the identifiers are all
    different just where no two fullnames are alike but for points, hyphens and underscores. And as long
    as no name breaks up the text, two graphs with one picture have the same statements, with alike
    fullnames in the same order, and the same edges if the fullnames of one are apart. -/
theorem built_pictures (calls calls' : List Reader.Call) {c c' : Catalog}
    (h : (Reader.after calls).finish = .ok c) (h' : (Reader.after calls').finish = .ok c')
    {g g' : Graph} (hg : g.Built c) (hg' : g'.Built c') :
    ((g.names.map pictureId).Nodup ↔ g.Apart) ∧
      (c.Legible → c'.Legible → g.picture = g'.picture → g.SamePicture g') := by
  have hwhole := hg.whole ((Reader.sound_after calls).closed_of_finish h)
  have hwhole' := hg'.whole ((Reader.sound_after calls').closed_of_finish h')
  exact ⟨nodup_ids_iff, fun hc hc' =>
    samePicture hwhole hwhole' (hwhole.legible hc) (hwhole'.legible hc')⟩

/-! ## Twins

Two records get one identifier, one by its namespace and one by its own name. -/

/-- The calls that read the twins, a record with a field for either, and one that has the given twin. -/
def twinCalls (chosen : String) : List Reader.Call :=
  [ .node (Reader.recordNode "x.A" []), .node (Reader.recordNode "x_A" []),
    .node (Reader.recordNode "x.Both" [("one", .str "x.A"), ("two", .str "x_A")]),
    .node (Reader.recordNode "x.Chosen" [("twin", .str chosen)]),
    .source "twins" "[\"x.Both\", \"x.Chosen\"]" ]

/-- What comes of reading them. -/
def twinCatalog (chosen : String) : Catalog :=
  (Reader.after (twinCalls chosen)).finish.toOption.getD ⟨[], []⟩

def twinGraph (chosen : String) : Graph :=
  (ofCatalog (twinCatalog chosen)).toOption.getD empty

theorem finish_twins : ∀ chosen ∈ ["x.A", "x_A"],
    (Reader.after (twinCalls chosen)).finish = .ok (twinCatalog chosen) := by
  intro chosen hchosen
  refine Answer.eq_ok_getD _ ?_
  revert chosen
  decide +kernel

theorem ofCatalog_twins : ∀ chosen ∈ ["x.A", "x_A"],
    ofCatalog (twinCatalog chosen) = .ok (twinGraph chosen) := by
  intro chosen hchosen
  refine Answer.eq_ok_getD _ ?_
  revert chosen
  decide +kernel

/-- Whichever twin is chosen, the picture is the same, and both have one identifier. -/
theorem picture_twins :
    (∀ chosen ∈ ["x.A", "x_A"], (Reader.after (twinCalls chosen)).finish = .ok (twinCatalog chosen) ∧
      ofCatalog (twinCatalog chosen) = .ok (twinGraph chosen) ∧
      (twinGraph chosen).names = ["x.Both", "x.A", "x_A", "x.Chosen"] ∧
      (twinGraph chosen).names.map pictureId = ["x_Both", "x_A", "x_A", "x_Chosen"]) ∧
    (twinGraph "x.A").picture = (twinGraph "x_A").picture ∧
    (twinGraph "x.A").edges ≠ (twinGraph "x_A").edges := by
  refine ⟨fun chosen hchosen => ⟨finish_twins chosen hchosen, ofCatalog_twins chosen hchosen, ?_⟩,
    by decide +kernel, by decide +kernel⟩
  revert chosen
  decide +kernel

theorem built_pictures_twins :
    (Reader.after (twinCalls "x.A")).finish = .ok (twinCatalog "x.A") ∧
    (Reader.after (twinCalls "x_A")).finish = .ok (twinCatalog "x_A") ∧
    (twinGraph "x.A").Built (twinCatalog "x.A") ∧ (twinGraph "x_A").Built (twinCatalog "x_A") ∧
    ¬ (twinGraph "x.A").Apart ∧ (twinGraph "x.A").SamePicture (twinGraph "x_A") := by
  have hfinish := finish_twins "x.A" (by simp)
  have hfinish' := finish_twins "x_A" (by simp)
  have hbuilt := built_ofCatalog (ofCatalog_twins "x.A" (by simp))
  have hbuilt' := built_ofCatalog (ofCatalog_twins "x_A" (by simp))
  obtain ⟨hids, hpicture⟩ := built_pictures _ _ hfinish hfinish' hbuilt hbuilt'
  refine ⟨hfinish, hfinish', hbuilt, hbuilt', ?_, ?_⟩
  · rw [← hids]
    decide +kernel
  · exact hpicture (by decide +kernel) (by decide +kernel) (by decide +kernel)

end Graph

end AvroCodegen
