import AvroCodegen.Proofs.StoreRelations

set_option autoImplicit false

/-! # Ownership

A graph enters owners by unfolding arrays to their innermost items, and a store takes them over.
`Graph.isOwner`, `RecordEntity.isOwner` and `RecordEntity.owns` read ownership off the fields again,
but they take off one array only. So each view shows one of two relations: a record `Holds` a
definition by an array of any depth, or `Lists` it as the items of a plain array
(`Store.build_ownership`).

The views agree just where nothing is held in nested arrays only; a record with rows of cells
is where they part (`Store.ownership_rows`). -/

namespace AvroCodegen

/-- The name that the items of an array have directly. -/
def Schema.itemName? : Schema → Option String
  | .array items _ => items.reference?
  | _ => none

/-- Some field of a type is an array directly of the given record or enum. -/
def Catalog.Lists (c : Catalog) (t : NamedType) (n : String) : Prop :=
  ∃ f ∈ t.fields, f.schema.itemName? = some n ∧ (c.entity? n).isSome

theorem Schema.exists_of_itemName? {schema : Schema} {n : String} (h : schema.itemName? = some n) :
    ∃ m m', schema = .array (.named n m) m' := by
  cases schema with
  | array items m' =>
      cases items with
      | named n' m => exact ⟨m, m', by rw [Option.some.inj h]⟩
      | primitive p m => cases h
      | array items m => cases h
      | map values m => cases h
      | union schemas m => cases h
  | primitive p m => cases h
  | map values m => cases h
  | union schemas m => cases h
  | named n' m => cases h

variable {c : Catalog} {g : Graph} {s : Store} {t : NamedType} {n : String}

/-- Items of a plain array are items of an array. -/
theorem Catalog.Lists.holds (h : c.Lists t n) : c.Holds t n := by
  obtain ⟨f, hf, hname, hentity⟩ := h
  obtain ⟨m, m', hs⟩ := Schema.exists_of_itemName? hname
  refine ⟨f, hf, ?_⟩
  rw [hs]
  exact ⟨rfl, by simp [Catalog.target?, Schema.core, Schema.reference?, hentity]⟩

namespace Graph

/-! ## Views of a graph -/

variable {i j : Nat}

theorem Whole.mem_owners_iff (hg : g.Whole c) (hc : c.Closed) (ht : g.type? i = some t)
    (hj : j < g.nodes.length) : i ∈ g.owners j ↔ c.Holds t (g.fullname j) := by
  obtain ⟨hholds, hnot⟩ := hg.count_owners hc ht hj
  refine ⟨fun hmem => by_contra fun h => hnot h hmem, fun h => ?_⟩
  exact List.count_pos_iff.1 (by rw [hholds h]; exact Nat.one_pos)

/-- A node is among the owners of some node if its type holds anything. -/
theorem Whole.exists_owner_iff (hg : g.Whole c) (hc : c.Closed) (ht : g.type? i = some t) :
    (∃ j, i ∈ g.owners j) ↔ ∃ n, c.Holds t n := by
  constructor
  · rintro ⟨j, hj⟩
    exact ⟨_, (hg.mem_owners_iff hc ht (hg.link_of_owner hj).1).1 hj⟩
  · rintro ⟨n, hn⟩
    -- what is held is linked to, so it has a node
    obtain ⟨j, hj, rfl⟩ := exists_of_mem_names
      ((hg.complete i (lt_of_type? ht) t ht).mem_names hg.toSound ((c.mem_links_items hc).2 hn))
    exact ⟨j, (hg.mem_owners_iff hc ht hj).2 hn⟩

/-- A graph takes a schema for an array of items if they are the record or enum of a node. -/
theorem holdsItems_iff {schema : Schema} : g.holdsItems schema = true ↔
    ∃ n t, schema.itemName? = some n ∧ (g.find? n).bind g.type? = some t ∧ t.kind ≠ .fixed := by
  constructor
  · intro h
    unfold holdsItems at h
    split at h
    · next n m m' =>
        split at h
        · next t ht => exact ⟨n, t, rfl, ht, of_decide_eq_true h⟩
        · cases h
    · cases h
  · rintro ⟨n, t, hname, ht, hkind⟩
    obtain ⟨m, m', rfl⟩ := Schema.exists_of_itemName? hname
    simp [holdsItems, ht, hkind]

theorem Whole.isOwner_iff (hg : g.Whole c) (hc : c.Closed) (ht : g.type? i = some t) :
    g.isOwner i = true ↔ ∃ n, c.Lists t n := by
  have hfound : ∀ {n : String} {u : NamedType}, (g.find? n).bind g.type? = some u →
      c.get? n = some u := by
    intro n u h
    obtain ⟨j, hfind, hj⟩ := Option.bind_eq_some_iff.1 h
    rw [← (find?_eq_some hfind).2, fullname_of_type? hj]
    rw [type?_eq] at hj
    exact hg.typed u (List.mem_of_getElem? hj)
  have hany : g.isOwner i = true ↔ ∃ f ∈ t.fields, g.holdsItems f.schema = true := by
    simp [isOwner, ht]
  rw [hany]
  constructor
  · rintro ⟨f, hf, hholds⟩
    obtain ⟨n, u, hname, hfind, hkind⟩ := holdsItems_iff.1 hholds
    have hentity : c.entity? n = some u := Catalog.entity?_eq_some.2 ⟨hfound hfind, hkind⟩
    exact ⟨n, f, hf, hname, by rw [hentity]; rfl⟩
  · rintro ⟨n, f, hf, hname, hentity⟩
    refine ⟨f, hf, holdsItems_iff.2 ?_⟩
    obtain ⟨u, hu⟩ := Option.isSome_iff_exists.1 hentity
    obtain ⟨hget, hkind⟩ := Catalog.entity?_eq_some.1 hu
    have hlink := (c.mem_links_items hc).2
      (Catalog.Lists.holds ⟨f, hf, hname, hentity⟩ : c.Holds t n)
    -- the name has a node, and no other node has this name
    have hmem := (hg.complete i (lt_of_type? ht) t ht).mem_names hg.toSound hlink
    cases hfind : g.find? n with
    | none => exact absurd hmem (find?_eq_none_iff.1 hfind)
    | some j =>
        obtain ⟨u', hu', _⟩ := exists_type? (find?_eq_some hfind).1
        have hbind : (g.find? n).bind g.type? = some u' := by rw [hfind]; exact hu'
        obtain rfl : u' = u := Option.some.inj ((hfound hbind).symm.trans hget)
        exact ⟨n, u', hname, hfind ▸ hbind, hkind⟩

end Graph

namespace Store

/-! ## Views of a store -/

variable {schema : Schema} {type : FieldType} {id : Nat}

/-- A type stands for an entity if the schema refers to a record or enum that has it. -/
theorem Denotes.entity?_eq_some_iff (h : s.Denotes c schema type)
    (hkind : ∀ e ∈ s.entities, e.OfKind) : type.entity? = some id ↔
      ∃ n, schema.reference? = some n ∧ (c.entity? n).isSome ∧ s.find? n = some id := by
  have hentity : ∀ {n : String} {k : Nat} {e : Entity}, s.get? k = some e →
      c.get? n = some e.schema → (c.entity? n).isSome := by
    intro n k e he hget
    have hof := hkind e (List.mem_of_getElem? he)
    have hne : e.schema.kind ≠ .fixed := by
      cases e with
      | record r => exact fun hfixed => nomatch hof.symm.trans hfixed
      | enum e => exact fun hfixed => nomatch hof.symm.trans hfixed
    rw [Catalog.entity?_eq_some.2 ⟨hget, hne⟩]
    rfl
  cases h with
  | primitive p m hp => simp [Schema.reference?, hp]
  | array m _ => simp [Schema.reference?, FieldType.entity?]
  | map values m => simp [Schema.reference?, FieldType.entity?]
  | union m _ => simp [Schema.reference?, FieldType.entity?]
  | fixed m hget hbody =>
      simp [Schema.reference?, FieldType.entity?, Catalog.entity?, hget, NamedType.kind, hbody,
        Option.filter]
  | record m hfind he hget =>
      simp [Schema.reference?, FieldType.entity?, hentity he hget, hfind]
  | enum m hfind he hget =>
      simp [Schema.reference?, FieldType.entity?, hentity he hget, hfind]

/-- What is a record in the store is one in a type. -/
theorem Denotes.record?_eq_some_iff (h : s.Denotes c schema type) {r : RecordEntity}
    (hr : s.record? id = some r) : type.record? = some id ↔ type.entity? = some id := by
  cases h with
  | primitive p m hp =>
      refine ⟨fun hrec => ?_, fun hent => nomatch hp.symm.trans hent⟩
      unfold FieldType.record? at hrec
      split at hrec
      · next heq =>
          cases heq
          cases hp
      · cases hrec
  | array m _ => exact Iff.rfl
  | map values m => exact Iff.rfl
  | union m _ => exact Iff.rfl
  | fixed m _ _ => exact Iff.rfl
  | record m _ _ _ => exact Iff.rfl
  | @enum n m k e props _ he _ =>
      refine ⟨fun hrec => (nomatch hrec), fun hent => ?_⟩
      obtain rfl : k = id := Option.some.inj hent
      simp [record?, he, Entity.record?] at hr

/-- The items of a type stand for the items of the schema. -/
theorem Denotes.items (h : s.Denotes c schema type) :
    (∃ items element, schema.itemName? = items.reference? ∧ type.element? = some element ∧
      s.Denotes c items element) ∨ schema.itemName? = none ∧ type.element? = none := by
  cases h with
  | array m hitems => exact Or.inl ⟨_, _, rfl, rfl, hitems⟩
  | primitive p m _ => exact Or.inr ⟨rfl, rfl⟩
  | map values m => exact Or.inr ⟨rfl, rfl⟩
  | union m _ => exact Or.inr ⟨rfl, rfl⟩
  | fixed m _ _ => exact Or.inr ⟨rfl, rfl⟩
  | record m _ _ _ => exact Or.inr ⟨rfl, rfl⟩
  | enum m _ _ _ => exact Or.inr ⟨rfl, rfl⟩

theorem Denotes.items_eq_some_iff (h : s.Denotes c schema type)
    (hkind : ∀ e ∈ s.entities, e.OfKind) : type.element?.bind FieldType.entity? = some id ↔
      ∃ n, schema.itemName? = some n ∧ (c.entity? n).isSome ∧ s.find? n = some id := by
  rcases h.items with ⟨items, element, hname, helement, hitems⟩ | ⟨hname, helement⟩
  · rw [hname, helement]
    exact hitems.entity?_eq_some_iff hkind
  · simp [hname, helement]

theorem Denotes.recordItems_eq_some_iff (h : s.Denotes c schema type) {r : RecordEntity}
    (hr : s.record? id = some r) : type.element?.bind FieldType.record? = some id ↔
      type.element?.bind FieldType.entity? = some id := by
  rcases h.items with ⟨items, element, _, helement, hitems⟩ | ⟨_, helement⟩
  · rw [helement]
    exact hitems.record?_eq_some_iff hr
  · simp [helement]

/-- A type of an array whose items are a record or enum has an entity for them. -/
theorem Denotes.exists_items (h : s.Denotes c schema type) {n : String}
    (hname : schema.itemName? = some n) (hentity : (c.entity? n).isSome) :
    ∃ id, s.find? n = some id := by
  obtain ⟨m, m', rfl⟩ := Schema.exists_of_itemName? hname
  cases h with
  | array _ hitems =>
      cases hitems with
      | fixed _ hget hbody =>
          simp [Catalog.entity?, hget, NamedType.kind, hbody, Option.filter] at hentity
      | record _ hfind _ _ => exact ⟨_, hfind⟩
      | enum _ hfind _ _ => exact ⟨_, hfind⟩

/-! ## All views

Which of the two relations each view shows, and what it takes for the views to agree. -/

/-- The node of the entity with the given number. -/
def nodeOf (g : Graph) (scope : List (Nat × Naming)) (id : Nat) : Option Nat :=
  (kept g scope)[id]?.map Prod.fst

/-- What ownership means in a graph and in a store of its nodes. -/
structure Ownership (c : Catalog) (g : Graph) (scope : List (Nat × Naming)) (s : Store) : Prop where
  placed : ∀ a ra, s.record? a = some ra →
    ∃ i, nodeOf g scope a = some i ∧ g.type? i = some ra.schema
  owners : ∀ a b ra rb i j, s.record? a = some ra → s.record? b = some rb →
    nodeOf g scope a = some i → nodeOf g scope b = some j →
    (a ∈ rb.owners ↔ c.Holds ra.schema rb.schema.fullname) ∧
      (i ∈ g.owners j ↔ c.Holds ra.schema rb.schema.fullname)
  owns : ∀ a b ra rb, s.record? a = some ra → s.record? b = some rb →
    (ra.owns b = true ↔ c.Lists ra.schema rb.schema.fullname)
  isOwner : ∀ a ra i, s.record? a = some ra → nodeOf g scope a = some i →
    (g.isOwner i = true ↔ ∃ n, c.Lists ra.schema n) ∧
      (ra.isOwner = true ↔ ∃ n, c.Lists ra.schema n) ∧
      ((∃ j, i ∈ g.owners j) ↔ ∃ n, c.Holds ra.schema n)

/-- All views of ownership agree. -/
structure ViewsAgree (g : Graph) (scope : List (Nat × Naming)) (s : Store) : Prop where
  owners : ∀ a b ra rb i j, s.record? a = some ra → s.record? b = some rb →
    nodeOf g scope a = some i → nodeOf g scope b = some j →
    (a ∈ rb.owners ↔ ra.owns b = true) ∧ (i ∈ g.owners j ↔ ra.owns b = true)
  isOwner : ∀ a ra i, s.record? a = some ra → nodeOf g scope a = some i →
    g.isOwner i = ra.isOwner ∧ (ra.isOwner = true ↔ ∃ j, i ∈ g.owners j)

namespace ComesOf

variable {scope : List (Nat × Naming)} {drafts : List Entity} {a b : Nat} {ra rb : RecordEntity}

theorem ofKind (hs : s.ComesOf c g scope drafts) : ∀ e ∈ s.entities, e.OfKind := by
  intro e he
  obtain ⟨id, _, heq⟩ := List.mem_iff_getElem.1 he
  obtain ⟨_, _, _, _, hkind⟩ := hs.exists_placed (heq ▸ List.getElem?_eq_getElem _)
  exact hkind

/-- The type of the node of a record is its schema. -/
theorem type?_of_node (hs : s.ComesOf c g scope drafts) (ha : s.record? a = some ra) {i : Nat}
    (hi : nodeOf g scope a = some i) : g.type? i = some ra.schema := by
  obtain ⟨p, hp, htype, _⟩ := hs.exists_placed_of_record? ha
  rw [nodeOf, getElem?_kept, hp] at hi
  obtain rfl : p.node = i := Option.some.inj hi
  rw [← htype]
  exact type?_placed hp

theorem owns_iff (hs : s.ComesOf c g scope drafts) (hg : g.Whole c)
    (hscope : (scope.map Prod.fst).Nodup) (ha : s.record? a = some ra)
    (hb : s.record? b = some rb) : ra.owns b = true ↔ c.Lists ra.schema rb.schema.fullname := by
  have hfound : ∀ {n : String}, s.find? n = some b ↔ rb.schema.fullname = n := by
    intro n
    obtain ⟨p, hp, htype, _⟩ := hs.exists_placed_of_record? hb
    rw [hs.find?_eq, idAmong_eq_some hg.once hscope, ← htype, fullname_placed hp]
    simp [hp]
  have hany : ra.owns b = true ↔
      ∃ f ∈ ra.fields, f.type.element?.bind FieldType.record? = some b := by
    simp [RecordEntity.owns]
  rw [hany, Catalog.Lists,
    ← Answer.exists_mem_iff_of_forall₂ (hs.fieldsDenote hg hscope ha) fun f field h => ?_]
  rw [h.2.recordItems_eq_some_iff hb, h.2.items_eq_some_iff hs.ofKind]
  simp only [hfound]
  exact ⟨fun ⟨n, hname, hentity, heq⟩ => heq ▸ ⟨hname, hentity⟩,
    fun ⟨hname, hentity⟩ => ⟨_, hname, hentity, rfl⟩⟩

theorem isOwner_iff (hs : s.ComesOf c g scope drafts) (hg : g.Whole c)
    (hscope : (scope.map Prod.fst).Nodup) (ha : s.record? a = some ra) :
    ra.isOwner = true ↔ ∃ n, c.Lists ra.schema n := by
  have hany : ra.isOwner = true ↔
      ∃ f ∈ ra.fields, ∃ id, f.type.element?.bind FieldType.entity? = some id := by
    simp [RecordEntity.isOwner, Option.isSome_iff_exists]
  have hlists : (∃ n, c.Lists ra.schema n) ↔
      ∃ f ∈ ra.schema.fields, ∃ n, f.schema.itemName? = some n ∧ (c.entity? n).isSome :=
    ⟨fun ⟨n, f, hf, h⟩ => ⟨f, hf, n, h⟩, fun ⟨f, hf, n, h⟩ => ⟨n, f, hf, h⟩⟩
  rw [hany, hlists,
    ← Answer.exists_mem_iff_of_forall₂ (hs.fieldsDenote hg hscope ha) fun f field h => ?_]
  simp only [h.2.items_eq_some_iff hs.ofKind]
  constructor
  · rintro ⟨id, n, hname, hentity, _⟩
    exact ⟨n, hname, hentity⟩
  · rintro ⟨n, hname, hentity⟩
    obtain ⟨id, hfind⟩ := h.2.exists_items hname hentity
    exact ⟨id, n, hname, hentity, hfind⟩

/-- The owners of a record are the entities of the owners of its node. -/
theorem mem_owners_iff (hs : s.ComesOf c g scope drafts) (hg : g.Whole c)
    (hscope : (scope.map Prod.fst).Nodup) {i j : Nat} (hb : s.record? b = some rb)
    (hi : nodeOf g scope a = some i) (hj : nodeOf g scope b = some j) :
    a ∈ rb.owners ↔ i ∈ g.owners j := by
  obtain ⟨p, hp, _, _, _, howners⟩ := hs.exists_placed_of_record? hb
  rw [nodeOf, getElem?_kept, hp] at hj
  obtain rfl : p.node = j := Option.some.inj hj
  rw [nodeOf, getElem?_kept, Option.map_map, Option.map_eq_some_iff] at hi
  obtain ⟨q, hq, rfl⟩ := hi
  rw [howners, ownerIds, List.mem_filterMap]
  constructor
  · rintro ⟨k, hk, hid⟩
    obtain ⟨q', hq', hname⟩ := (idAmong_eq_some hg.once hscope).1 hid
    obtain rfl : q' = q := Option.some.inj (hq'.symm.trans hq)
    rwa [← Graph.fullname_inj hg.once (Graph.lt_of_type? (type?_placed hq))
      (hg.owners p.node k hk) hname] at hk
  · intro hmem
    exact ⟨q.node, hmem, (idAmong_eq_some hg.once hscope).2 ⟨q, hq, rfl⟩⟩

theorem ownership (hs : s.ComesOf c g scope drafts) (hg : g.Whole c) (hc : c.Closed)
    (hscope : (scope.map Prod.fst).Nodup) : s.Ownership c g scope where
  placed := by
    intro a ra ha
    obtain ⟨p, hp, htype, _⟩ := hs.exists_placed_of_record? ha
    have hplace : nodeOf g scope a = some p.node := by rw [nodeOf, getElem?_kept, hp]; rfl
    exact ⟨p.node, hplace, by rw [← htype]; exact type?_placed hp⟩
  owners := by
    intro a b ra rb i j ha hb hi hj
    have hholds : i ∈ g.owners j ↔ c.Holds ra.schema rb.schema.fullname := by
      have hti := hs.type?_of_node ha hi
      have htj := hs.type?_of_node hb hj
      rw [hg.mem_owners_iff hc hti (Graph.lt_of_type? htj), Graph.fullname_of_type? htj]
    exact ⟨(hs.mem_owners_iff hg hscope hb hi hj).trans hholds, hholds⟩
  owns := fun a b ra rb ha hb => hs.owns_iff hg hscope ha hb
  isOwner := by
    intro a ra i ha hi
    have hti := hs.type?_of_node ha hi
    exact ⟨hg.isOwner_iff hc hti, hs.isOwner_iff hg hscope ha, hg.exists_owner_iff hc hti⟩

end ComesOf

theorem ViewsAgree.owns_of_mem_owners {scope : List (Nat × Naming)} (h : s.ViewsAgree g scope)
    {a b i j : Nat} {owns : Bool} {owners : List Nat}
    (ha : (s.record? a).map (fun r => r.owns b) = some owns)
    (hb : (s.record? b).map RecordEntity.owners = some owners)
    (hi : nodeOf g scope a = some i) (hj : nodeOf g scope b = some j) (hmem : a ∈ owners) :
    owns = true := by
  obtain ⟨ra, hra, rfl⟩ := Option.map_eq_some_iff.1 ha
  obtain ⟨rb, hrb, rfl⟩ := Option.map_eq_some_iff.1 hb
  exact (h.owners a b ra rb i j hra hrb hi hj).1.1 hmem

/-- The views agree just where what a record holds is listed as well. -/
theorem Ownership.viewsAgree_iff {scope : List (Nat × Naming)} (h : s.Ownership c g scope) :
    s.ViewsAgree g scope ↔ ∀ a ra, s.record? a = some ra →
      (∀ b rb, s.record? b = some rb → c.Holds ra.schema rb.schema.fullname →
        c.Lists ra.schema rb.schema.fullname) ∧
      ((∃ n, c.Holds ra.schema n) → ∃ n, c.Lists ra.schema n) := by
  constructor
  · intro hviews a ra ha
    obtain ⟨i, hi, _⟩ := h.placed a ra ha
    refine ⟨fun b rb hb hholds => ?_, fun hholds => ?_⟩
    · obtain ⟨j, hj, _⟩ := h.placed b rb hb
      have howner := (h.owners a b ra rb i j ha hb hi hj).1.2 hholds
      exact (h.owns a b ra rb ha hb).1 ((hviews.owners a b ra rb i j ha hb hi hj).1.1 howner)
    · obtain ⟨_, hstore, hgraph⟩ := h.isOwner a ra i ha hi
      exact hstore.1 ((hviews.isOwner a ra i ha hi).2.2 (hgraph.2 hholds))
  · intro hlists
    refine ⟨fun a b ra rb i j ha hb hi hj => ?_, fun a ra i ha hi => ?_⟩
    · have hsame : c.Holds ra.schema rb.schema.fullname ↔ ra.owns b = true := by
        rw [h.owns a b ra rb ha hb]
        exact ⟨(hlists a ra ha).1 b rb hb, Catalog.Lists.holds⟩
      obtain ⟨hstore, hgraph⟩ := h.owners a b ra rb i j ha hb hi hj
      exact ⟨hstore.trans hsame, hgraph.trans hsame⟩
    · obtain ⟨hgraph, hstore, howner⟩ := h.isOwner a ra i ha hi
      refine ⟨Bool.eq_iff_iff.2 (hgraph.trans hstore.symm), ?_⟩
      rw [hstore, howner]
      exact ⟨fun ⟨n, hn⟩ => ⟨n, hn.holds⟩, (hlists a ra ha).2⟩

/-- **What the views of ownership show.** For every graph of a catalog that was read and any of its
    nodes in any order, the owners in the graph and in the store are the records that hold a record
    in an array of any depth, while `isOwner` and `owns` see plain arrays only. So the views agree
    just where a record that holds another lists it as well, and one that holds anything lists
    something. -/
theorem build_ownership (calls : List Reader.Call) {c : Catalog}
    (h : (Reader.after calls).finish = .ok c) {g : Graph} (hg : g.Built c) {generator : String}
    {scope : List (Nat × Naming)} (hscope : (scope.map Prod.fst).Nodup) {s : Store}
    (hs : build generator g c scope = .ok s) :
    s.Ownership c g scope ∧
      (s.ViewsAgree g scope ↔ ∀ a ra, s.record? a = some ra →
        (∀ b rb, s.record? b = some rb → c.Holds ra.schema rb.schema.fullname →
          c.Lists ra.schema rb.schema.fullname) ∧
        ((∃ n, c.Holds ra.schema n) → ∃ n, c.Lists ra.schema n)) := by
  have hc := (Reader.sound_after calls).closed_of_finish h
  have hwhole := hg.whole hc
  obtain ⟨drafts, hcomes⟩ := exists_comesOf hwhole hscope hs
  have hownership := hcomes.ownership hwhole hc hscope
  exact ⟨hownership, hownership.viewsAgree_iff⟩

/-! ## Rows of cells

A record holds cells in an array of arrays only. -/

/-- The calls that read the cells and their grid. -/
def rowsCalls : List Reader.Call :=
  [ .node (Reader.recordNode "x.Grid" [("rows", Reader.arrayNode (Reader.arrayNode (.str "Cell")))]),
    .node (Reader.recordNode "x.Cell" [("value", .str "int")]),
    .source "rows" "[\"x.Grid\"]" ]

/-- What comes of reading them. -/
def rowsCatalog : Catalog :=
  (Reader.after rowsCalls).finish.toOption.getD ⟨[], []⟩

def rowsGraph : Graph :=
  (Graph.ofCatalog rowsCatalog).toOption.getD Graph.empty

/-- The scope of work, each node under its own names. -/
def rowsScope : List (Nat × Naming) :=
  [(1, ⟨"x", "Cell", "x.Cell"⟩), (0, ⟨"x", "Grid", "x.Grid"⟩)]

def rowsStore : Store :=
  (build "java" rowsGraph rowsCatalog rowsScope).toOption.getD (Store.empty "java")

theorem finish_rows : (Reader.after rowsCalls).finish = .ok rowsCatalog :=
  Answer.eq_ok_getD _ (by decide +kernel)

theorem ofCatalog_rows : Graph.ofCatalog rowsCatalog = .ok rowsGraph :=
  Answer.eq_ok_getD _ (by decide +kernel)

theorem scope_rows : rowsScope.map Prod.fst = rowsGraph.scope := by decide +kernel

theorem build_rows : build "java" rowsGraph rowsCatalog rowsScope = .ok rowsStore :=
  Answer.eq_ok_getD _ (by decide +kernel)

/-- The grid is an owner of the cells for the graph and the store, and no owner of anything for the
    rest. -/
theorem ownership_rows : (Reader.after rowsCalls).finish = .ok rowsCatalog ∧
    Graph.ofCatalog rowsCatalog = .ok rowsGraph ∧
    rowsScope.map Prod.fst = rowsGraph.scope ∧
    build "java" rowsGraph rowsCatalog rowsScope = .ok rowsStore ∧
    rowsGraph.owners 1 = [0] ∧ (rowsStore.record? 0).map RecordEntity.owners = some [1] ∧
    (rowsStore.record? 1).map (fun r => r.owns 0) = some false ∧
    rowsGraph.isOwner 0 = false ∧ (rowsStore.record? 1).map RecordEntity.isOwner = some false ∧
    ¬ rowsStore.ViewsAgree rowsGraph rowsScope := by
  have hcell : (rowsStore.record? 0).map RecordEntity.owners = some [1] := by decide +kernel
  have hgrid : (rowsStore.record? 1).map (fun r => r.owns 0) = some false := by decide +kernel
  have hnodes : nodeOf rowsGraph rowsScope 1 = some 0 ∧ nodeOf rowsGraph rowsScope 0 = some 1 := by
    decide +kernel
  refine ⟨finish_rows, ofCatalog_rows, scope_rows, build_rows, by decide +kernel, hcell, hgrid,
    by decide +kernel, by decide +kernel, fun hviews => ?_⟩
  have howns := hviews.owns_of_mem_owners hgrid hcell hnodes.1 hnodes.2 (by simp)
  cases howns

theorem build_ownership_rows : (Reader.after rowsCalls).finish = .ok rowsCatalog ∧
    rowsGraph.Built rowsCatalog ∧ (rowsScope.map Prod.fst).Nodup ∧
    build "java" rowsGraph rowsCatalog rowsScope = .ok rowsStore ∧
    rowsStore.Ownership rowsCatalog rowsGraph rowsScope := by
  have hbuilt : rowsGraph.Built rowsCatalog := Graph.built_ofCatalog ofCatalog_rows
  have hscope : (rowsScope.map Prod.fst).Nodup := by decide
  exact ⟨finish_rows, hbuilt, hscope, build_rows,
    (build_ownership rowsCalls finish_rows hbuilt hscope build_rows).1⟩

end Store

end AvroCodegen
