import AvroCodegen.Proofs.FieldTypes
import AvroCodegen.Proofs.StoreWiring
import AvroCodegen.Proofs.WholeGraph

set_option autoImplicit false

/-! # What a store shows of a graph

`Store.build` numbers the nodes of a scope that are not fixed, drafts an entity for each, and lets
them enter their relations. `ComesOf` is what that leaves behind; for a whole graph the owners are
records, so nothing fails once the drafts are made, and the store `Mirrors` the scope. -/

namespace AvroCodegen

namespace Store

/-! ## Numbers -/

/-- The nodes of a scope that become entities: all but the fixed types. -/
def kept (g : Graph) (scope : List (Nat × Naming)) : List (Nat × Naming) :=
  scope.filter fun place => (g.type? place.1).any fun t => t.kind ≠ .fixed

/-- The numbers of some nodes among the entities of a scope; nodes outside the scope have none. -/
def numbers (g : Graph) (scope : List (Nat × Naming)) (nodes : List Nat) : List Nat :=
  (nodes.filter fun j => j ∈ scope.map Prod.fst).map fun j => ((kept g scope).map Prod.fst).idxOf j

variable {c : Catalog} {g : Graph} {scope : List (Nat × Naming)} {p : Placed}

theorem map_placed (g : Graph) (scope : List (Nat × Naming)) :
    (placed g scope).map (fun p => (p.node, p.naming)) = kept g scope := by
  unfold placed kept
  rw [List.map_filterMap, ← List.filterMap_eq_filter]
  refine List.filterMap_congr fun ⟨i, naming⟩ _ => ?_
  cases ht : g.type? i with
  | none => simp [Option.guard, ht]
  | some t => by_cases hkind : t.kind = .fixed <;> simp [Option.guard, ht, hkind]

theorem map_node_placed (g : Graph) (scope : List (Nat × Naming)) :
    (placed g scope).map Placed.node = (kept g scope).map Prod.fst := by
  rw [← map_placed, List.map_map]
  rfl

theorem type?_of_mem_placed (h : p ∈ placed g scope) :
    g.type? p.node = some p.type ∧ p.type.kind ≠ .fixed := by
  obtain ⟨⟨i, naming⟩, _, heq⟩ := List.mem_filterMap.1 h
  cases ht : g.type? i with
  | none => simp [ht] at heq
  | some t =>
      by_cases hkind : t.kind = .fixed
      · simp [ht, hkind] at heq
      · simp only [ht, if_neg hkind, Option.some.injEq] at heq
        subst heq
        exact ⟨ht, hkind⟩

theorem nodup_kept (h : (scope.map Prod.fst).Nodup) : ((kept g scope).map Prod.fst).Nodup :=
  h.sublist (List.filter_sublist.map _)

theorem type?_placed {id : Nat} (hp : (placed g scope)[id]? = some p) :
    g.type? p.node = some p.type :=
  (type?_of_mem_placed (List.mem_of_getElem? hp)).1

theorem fullname_placed {id : Nat} (hp : (placed g scope)[id]? = some p) :
    p.type.fullname = g.fullname p.node :=
  (Graph.fullname_of_type? (type?_placed hp)).symm

/-- A number stands for the one placed node with the fullname. -/
theorem idAmong_eq_some (hg : g.names.Nodup) (hscope : (scope.map Prod.fst).Nodup) {n : String}
    {id : Nat} : idAmong (placed g scope) n = some id ↔
      ∃ p, (placed g scope)[id]? = some p ∧ g.fullname p.node = n := by
  have hfind : ∀ {id}, idAmong (placed g scope) n = some id →
      ∃ p, (placed g scope)[id]? = some p ∧ g.fullname p.node = n := by
    intro id h
    obtain ⟨p, hp, hn⟩ : ∃ p, (placed g scope)[id]? = some p ∧ p.type.fullname = n := by
      simpa using List.find?_some h
    exact ⟨p, hp, fullname_placed hp ▸ hn⟩
  refine ⟨hfind, fun ⟨p, hp, hn⟩ => ?_⟩
  -- some number is found, and no other node has this fullname
  have hsome : (idAmong (placed g scope) n).isSome := by
    rw [idAmong, List.find?_isSome]
    refine ⟨id, ?_, by simp [hp, fullname_placed hp, hn]⟩
    simpa using (List.getElem?_eq_some_iff.1 hp).1
  obtain ⟨id', hid'⟩ := Option.isSome_iff_exists.1 hsome
  obtain ⟨p', hp', hn'⟩ := hfind hid'
  have hnode : p'.node = p.node :=
    Graph.fullname_inj hg (Graph.lt_of_type? (type?_placed hp'))
      (Graph.lt_of_type? (type?_placed hp)) (hn'.trans hn.symm)
  have hnodup : ((placed g scope).map Placed.node).Nodup :=
    map_node_placed g scope ▸ nodup_kept hscope
  have hid : id' = id := by
    refine (List.getElem?_inj ?_ hnodup).1 ?_
    · simpa using (List.getElem?_eq_some_iff.1 hp').1
    · rw [List.getElem?_map, List.getElem?_map, hp', hp, Option.map_some, Option.map_some, hnode]
  rw [hid', hid]

/-- A record or enum of a scope becomes an entity. -/
theorem mem_kept {j : Nat} {t : NamedType} (ht : g.type? j = some t) (hkind : t.kind ≠ .fixed) :
    j ∈ (kept g scope).map Prod.fst ↔ j ∈ scope.map Prod.fst := by
  simp only [kept, List.mem_map, List.mem_filter]
  constructor
  · rintro ⟨place, ⟨hplace, _⟩, rfl⟩
    exact ⟨place, hplace, rfl⟩
  · rintro ⟨place, hplace, rfl⟩
    exact ⟨place, ⟨hplace, by simp [ht, hkind]⟩, rfl⟩

/-- The number of a node is its place among the nodes that become entities. -/
theorem idAmong_fullname (hg : g.names.Nodup) (hscope : (scope.map Prod.fst).Nodup) {j : Nat}
    {t : NamedType} (ht : g.type? j = some t) (hkind : t.kind ≠ .fixed) :
    idAmong (placed g scope) (g.fullname j) =
      if j ∈ scope.map Prod.fst then some (((kept g scope).map Prod.fst).idxOf j) else none := by
  by_cases hmem : j ∈ scope.map Prod.fst
  · rw [if_pos hmem]
    refine (idAmong_eq_some hg hscope).2 ?_
    replace hmem := (mem_kept ht hkind).2 hmem
    rw [← map_node_placed] at hmem ⊢
    have hidx := List.idxOf_lt_length_of_mem hmem
    have hlt : ((placed g scope).map Placed.node).idxOf j < (placed g scope).length := by
      simpa using hidx
    have hnode : (placed g scope)[((placed g scope).map Placed.node).idxOf j].node = j := by
      have := List.getElem_idxOf hidx
      rwa [List.getElem_map] at this
    exact ⟨_, List.getElem?_eq_getElem hlt, by rw [hnode]⟩
  · rw [if_neg hmem]
    -- a number for the fullname would stand for this very node
    cases hid : idAmong (placed g scope) (g.fullname j) with
    | none => rfl
    | some id =>
        obtain ⟨p, hp, hn⟩ := (idAmong_eq_some hg hscope).1 hid
        have hnode := Graph.fullname_inj hg (Graph.lt_of_type? (type?_placed hp))
          (Graph.lt_of_type? ht) hn
        refine absurd ((mem_kept ht hkind).1 ?_) hmem
        rw [← map_node_placed, ← hnode]
        exact List.mem_map_of_mem (List.mem_of_getElem? hp)

theorem filterMap_idAmong (hg : g.names.Nodup) (hscope : (scope.map Prod.fst).Nodup)
    {nodes : List Nat} (h : ∀ j ∈ nodes, ∃ t, g.type? j = some t ∧ t.kind ≠ .fixed) :
    nodes.filterMap (fun j => idAmong (placed g scope) (g.fullname j)) = numbers g scope nodes := by
  unfold numbers
  rw [← List.filterMap_eq_map', List.filterMap_filter]
  refine List.filterMap_congr fun j hj => ?_
  obtain ⟨t, ht, hkind⟩ := h j hj
  rw [idAmong_fullname hg hscope ht hkind]
  simp only [decide_eq_true_eq]

/-- Distinct nodes have distinct numbers. -/
theorem nodup_numbers {nodes : List Nat} (hnodup : nodes.Nodup)
    (h : ∀ j ∈ nodes, ∃ t, g.type? j = some t ∧ t.kind ≠ .fixed) :
    (numbers g scope nodes).Nodup := by
  refine List.Nodup.map_on (fun j hj k _ heq => ?_) (hnodup.filter _)
  obtain ⟨hj, hmem⟩ := List.mem_filter.1 hj
  obtain ⟨t, ht, hkind⟩ := h j hj
  exact (List.idxOf_inj ((mem_kept ht hkind).2 (by simpa using hmem))).1 heq

/-! ## Drafts -/

section Drafting

variable {c : Catalog} {g : Graph} {ps : List Placed} {p : Placed} {e : Entity}

/-- What a draft has of its placed node. -/
structure DraftOf (c : Catalog) (ps : List Placed) (p : Placed) (e : Entity) : Prop where
  schema : e.schema = p.type
  naming : e.naming = p.naming
  ofKind : e.OfKind
  unrelated : e.Unrelated
  fields : ∀ r, e = .record r → fieldsOf c (idAmong ps) p.type = .ok r.fields

theorem draftOf_draft (hkind : p.type.kind ≠ .fixed) (h : draft c g (idAmong ps) p = .ok e) :
    DraftOf c ps p e := by
  unfold draft at h
  split at h
  · next henum =>
      obtain ⟨enum, hof, h⟩ := Answer.of_bind_ok h
      obtain ⟨aliases, _, hof⟩ := Answer.of_bind_ok hof
      rw [← Except.ok.inj h, ← Except.ok.inj hof]
      exact ⟨rfl, rfl, henum, trivial, fun r hr => nomatch hr⟩
  · next henum =>
      obtain ⟨fields, hfields, h⟩ := Answer.of_bind_ok h
      have hrecord : p.type.kind = .record := by
        cases hk : p.type.kind with
        | record => rfl
        | enum => exact absurd hk henum
        | fixed => exact absurd hk hkind
      rw [← Except.ok.inj h]
      refine ⟨rfl, rfl, hrecord, ⟨rfl, rfl, rfl⟩, fun r hr => ?_⟩
      rw [← Entity.record.inj hr]
      exact hfields

theorem allTexts_error {fullname : String} {items : List Json} {fault : Fault}
    (h : EnumEntity.allTexts fullname items = .error fault) :
    fault = .schema fullname .aliasesNotStrings := by
  fun_induction EnumEntity.allTexts fullname items with
  | case1 => cases h
  | case2 s rest ih =>
      rcases Answer.of_bind_error h with h | ⟨_, _, h⟩
      · exact ih h
      · cases h
  | case3 => exact (Except.error.inj h).symm

/-- The aliases of an enum are wrong in one of three ways. -/
theorem aliasesOf_error {t : NamedType} {fault : Fault} (h : EnumEntity.aliasesOf t = .error fault) :
    fault = .schema t.fullname .aliasesNotStrings ∨ fault = .schema t.fullname .aliasesNotList ∨
      ∃ aliases symbols, fault = .schema t.fullname (.aliasCount aliases symbols) := by
  unfold EnumEntity.aliasesOf at h
  split at h
  · cases h
  · rcases Answer.of_bind_error h with h | ⟨aliases, _, h⟩
    · exact Or.inl (allTexts_error h)
    · split at h
      · cases h
      · exact Or.inr (Or.inr ⟨_, _, (Except.error.inj h).symm⟩)
  · exact Or.inr (Or.inl (Except.error.inj h).symm)

/-- Drafting finds fault with schemas only. -/
theorem draft_error {fault : Fault} (h : draft c g (idAmong ps) p = .error fault) :
    ∃ n problem, fault = .schema n problem := by
  unfold draft at h
  split at h
  · rcases Answer.of_bind_error h with h | ⟨_, _, h⟩
    · rcases Answer.of_bind_error h with h | ⟨_, _, h⟩
      · rcases aliasesOf_error h with h | h | ⟨_, _, h⟩ <;> exact ⟨_, _, h⟩
      · cases h
    · cases h
  · rcases Answer.of_bind_error h with h | ⟨_, _, h⟩
    · obtain ⟨f, _, h⟩ := Answer.exists_of_mapM_error h
      rcases Answer.of_bind_error h with h | ⟨_, _, h⟩
      · obtain ⟨problem, _, h⟩ := Answer.of_mapError_error h
        exact ⟨_, problem, h.symm⟩
      · cases h
    · cases h

end Drafting

/-! ## How a store comes about -/

variable {c : Catalog} {g : Graph} {scope : List (Nat × Naming)} {generator : String}

/-- A store comes of a draft for each placed node, after everyone's turn. -/
structure ComesOf (c : Catalog) (g : Graph) (scope : List (Nat × Naming)) (drafts : List Entity)
    (s : Store) : Prop where
  drafted : List.Forall₂ (DraftOf c (placed g scope)) (placed g scope) drafts
  entities : s.entities =
    wiredAll g (placed g scope) drafts (placed g scope).length

theorem isRecord_of_forall₂ {ps : List Placed} {drafts : List Entity}
    (hdrafts : List.Forall₂ (DraftOf c ps) ps drafts) {id : Nat} {p : Placed}
    (hp : ps[id]? = some p) (hkind : p.type.kind = .record) : isRecord drafts id = true := by
  obtain ⟨e, he, hdraft⟩ := Answer.getElem?_of_forall₂ hdrafts hp
  unfold isRecord
  rw [he]
  cases e with
  | record r => rfl
  | enum e =>
      have hof := hdraft.ofKind
      have hschema : e.schema = p.type := hdraft.schema
      rw [Entity.OfKind, hschema, hkind] at hof
      cases hof

/-- An owner in the scope is a record there. -/
theorem isRecord_of_mem_ownerIds (hg : g.Whole c) (hscope : (scope.map Prod.fst).Nodup)
    {drafts : List Entity}
    (hdrafts : List.Forall₂ (DraftOf c (placed g scope)) (placed g scope) drafts)
    {p : Placed} {id : Nat} (h : id ∈ ownerIds g (idAmong (placed g scope)) p) :
    isRecord drafts id = true := by
  obtain ⟨j, hj, hid⟩ := List.mem_filterMap.1 h
  obtain ⟨t, ht, hkind⟩ := hg.kind_of_owner hj
  obtain ⟨q, hq, hname⟩ := (idAmong_eq_some hg.once hscope).1 hid
  have hnode : q.node = j :=
    Graph.fullname_inj hg.once (Graph.lt_of_type? (type?_placed hq)) (Graph.lt_of_type? ht) hname
  have htype : q.type = t := by
    rw [← hnode, type?_placed hq] at ht
    exact Option.some.inj ht
  refine isRecord_of_forall₂ hdrafts hq ?_
  rw [htype, hkind]

theorem draftsOf_mapM {drafts : List Entity}
    (h : (placed g scope).mapM (draft c g (idAmong (placed g scope))) = .ok drafts) :
    List.Forall₂ (DraftOf c (placed g scope)) (placed g scope) drafts := by
  have hdraft := Answer.forall₂_of_mapM h
  rw [List.forall₂_iff_get] at hdraft ⊢
  refine ⟨hdraft.1, fun i hi hi' => ?_⟩
  exact draftOf_draft (type?_of_mem_placed (List.get_mem _ _)).2 (hdraft.2 i hi hi')

/-- Once the drafts are made, nothing can fail. -/
theorem build_eq (hg : g.Whole c) (hscope : (scope.map Prod.fst).Nodup) :
    build generator g c scope = (do
      let ps := placed g scope
      let drafts ← ps.mapM (draft c g (idAmong ps))
      return ⟨generator, wiredAll g ps drafts ps.length⟩) := by
  unfold build
  dsimp only
  cases hdrafts : (placed g scope).mapM (draft c g (idAmong (placed g scope))) with
  | error fault => rfl
  | ok drafts =>
      have hof := draftsOf_mapM hdrafts
      have hunrelated : ∀ e ∈ drafts, e.Unrelated := by
        intro e he
        obtain ⟨i, hi, rfl⟩ := List.mem_iff_getElem.1 he
        have hi' : i < (placed g scope).length := hof.length_eq ▸ hi
        exact ((List.forall₂_iff_get.1 hof).2 i hi' hi).unrelated
      have howners : ∀ p ∈ placed g scope, ∀ id ∈ ownerIds g (idAmong (placed g scope)) p,
          isRecord drafts id = true :=
        fun p _ id hid => isRecord_of_mem_ownerIds hg hscope hof hid
      have hwire := foldlM_wire hunrelated howners
      show (List.foldlM _ drafts _ >>= fun es => Except.ok (Store.mk generator es)) = _
      rw [hwire]
      rfl

theorem exists_comesOf (hg : g.Whole c) (hscope : (scope.map Prod.fst).Nodup) {s : Store}
    (h : build generator g c scope = .ok s) : ∃ drafts, s.ComesOf c g scope drafts := by
  rw [build_eq hg hscope] at h
  obtain ⟨drafts, hdrafts, h⟩ := Answer.of_bind_ok h
  exact ⟨drafts, draftsOf_mapM hdrafts, by rw [← Except.ok.inj h]⟩

namespace ComesOf

variable {drafts : List Entity} {s : Store} {id : Nat}

theorem get?_eq (hs : s.ComesOf c g scope drafts) (id : Nat) :
    s.get? id = drafts[id]?.map
      (wired (linksAt g (placed g scope) drafts)
        (ownersAt g (placed g scope)) (placed g scope).length id) := by
  rw [get?, hs.entities, wiredAll, List.getElem?_mapIdx]

theorem length_drafts (hs : s.ComesOf c g scope drafts) :
    drafts.length = (placed g scope).length :=
  hs.drafted.length_eq.symm

theorem size_eq (hs : s.ComesOf c g scope drafts) : s.size = (placed g scope).length := by
  rw [size, hs.entities, wiredAll, List.length_mapIdx, hs.length_drafts]

/-- An entity and the placed node that it stems from. -/
theorem exists_placed (hs : s.ComesOf c g scope drafts) {e : Entity} (he : s.get? id = some e) :
    ∃ p, (placed g scope)[id]? = some p ∧ e.schema = p.type ∧ e.naming = p.naming ∧ e.OfKind := by
  rw [hs.get?_eq, Option.map_eq_some_iff] at he
  obtain ⟨d, hd, rfl⟩ := he
  obtain ⟨p, hp, hdraft⟩ := Answer.getElem?_of_forall₂ hs.drafted.flip hd
  refine ⟨p, hp, ?_⟩
  cases d with
  | record r => exact ⟨hdraft.schema, hdraft.naming, hdraft.ofKind⟩
  | enum e => exact ⟨hdraft.schema, hdraft.naming, hdraft.ofKind⟩

/-- A placed node and its entity. -/
theorem exists_get? (hs : s.ComesOf c g scope drafts) {p : Placed}
    (hp : (placed g scope)[id]? = some p) :
    ∃ e, s.get? id = some e ∧ e.schema = p.type ∧ e.naming = p.naming ∧ e.OfKind := by
  obtain ⟨d, hd, hdraft⟩ := Answer.getElem?_of_forall₂ hs.drafted hp
  have he := hs.get?_eq id
  rw [hd, Option.map_some] at he
  obtain ⟨p', hp', hof⟩ := hs.exists_placed he
  rw [hp, Option.some.injEq] at hp'
  exact ⟨_, he, hp' ▸ hof⟩

/-- Entities and placed nodes by number. -/
theorem map_get? (hs : s.ComesOf c g scope drafts) (id : Nat) :
    (s.get? id).map (fun e => (e.schema, e.naming)) =
      (placed g scope)[id]?.map fun p => (p.type, p.naming) := by
  cases hp : (placed g scope)[id]? with
  | some p =>
      obtain ⟨e, he, hschema, hnaming, _⟩ := hs.exists_get? hp
      rw [he, Option.map_some, Option.map_some, hschema, hnaming]
  | none =>
      cases he : s.get? id with
      | none => rfl
      | some e =>
          obtain ⟨p, hp', _⟩ := hs.exists_placed he
          rw [hp] at hp'
          cases hp'

/-- A record with its fields and relations. -/
theorem record_eq (hs : s.ComesOf c g scope drafts) {r : RecordEntity}
    (hr : s.record? id = some r) :
    isRecord drafts id = true ∧ ∃ p, (placed g scope)[id]? = some p ∧
      fieldsOf c (idAmong (placed g scope)) p.type = .ok r.fields ∧
      r.dependencies = linksOf g (idAmong (placed g scope)) p ∧
      r.owners = ownerIds g (idAmong (placed g scope)) p ∧
      r.parents = (List.range (placed g scope).length).filter
        (fun i => id ∈ linksAt g (placed g scope) drafts i) := by
  obtain ⟨e, he, hrec⟩ := Option.bind_eq_some_iff.1 hr
  rw [hs.get?_eq, Option.map_eq_some_iff] at he
  obtain ⟨d, hd, rfl⟩ := he
  obtain ⟨p, hp, hdraft⟩ := Answer.getElem?_of_forall₂ hs.drafted.flip hd
  cases d with
  | enum e => cases hrec
  | record r₀ =>
      have hrecord : isRecord drafts id = true := by simp [isRecord, hd, Entity.record?]
      have hlt : id < (placed g scope).length := (List.getElem?_eq_some_iff.1 hp).1
      -- every number has had its turn
      refine ⟨hrecord, p, hp, ?_⟩
      obtain rfl := Option.some.inj hrec
      refine ⟨hdraft.fields r₀ rfl, ?_, ?_, rfl⟩
      · rw [← linksAt_eq hp hrecord]
        exact if_pos hlt
      · rw [← ownersAt_eq hp]
        exact if_pos hlt

/-- A record stems from a placed record. -/
theorem exists_placed_of_record? (hs : s.ComesOf c g scope drafts) {r : RecordEntity}
    (hr : s.record? id = some r) :
    ∃ p, (placed g scope)[id]? = some p ∧ p.type = r.schema ∧ r.schema.kind = .record ∧
      fieldsOf c (idAmong (placed g scope)) p.type = .ok r.fields ∧
      r.owners = ownerIds g (idAmong (placed g scope)) p := by
  obtain ⟨e, he, hrec⟩ := Option.bind_eq_some_iff.1 hr
  obtain ⟨p, hp, hschema, _, hkind⟩ := hs.exists_placed he
  obtain ⟨_, p', hp', hfields, _, howners, _⟩ := hs.record_eq hr
  obtain rfl : p' = p := Option.some.inj (hp'.symm.trans hp)
  cases e with
  | enum e => cases hrec
  | record r' =>
      obtain rfl : r' = r := Option.some.inj hrec
      exact ⟨p', hp, hschema.symm, hkind, hfields, howners⟩

theorem record?_of_isRecord (hs : s.ComesOf c g scope drafts) (h : isRecord drafts id = true) :
    ∃ r, s.record? id = some r := by
  have hkinds : isRecord s.entities = isRecord drafts := by
    rw [hs.entities]
    exact isRecord_mapIdx drafts
  rw [← hkinds] at h
  exact Option.isSome_iff_exists.1 h

/-- The store finds the numbers that were given out. -/
theorem find?_eq (hs : s.ComesOf c g scope drafts) (n : String) :
    s.find? n = idAmong (placed g scope) n := by
  have hschema : ∀ id, (s.get? id).map (fun e => e.schema.fullname) =
      (placed g scope)[id]?.map (fun p => p.type.fullname) := by
    intro id
    have h := congrArg (Option.map fun e => e.1.fullname) (hs.map_get? id)
    rwa [Option.map_map, Option.map_map] at h
  simp only [find?, idAmong, ids, hs.size_eq, hschema]

end ComesOf

/-! ## What a store shows -/

/-- A store shows the nodes of a scope: one entity for each that is not fixed, in order, with the
    relations that the graph has among them, and with numbers in its types that lead to the entities
    of the definitions referred to. -/
structure Mirrors (c : Catalog) (g : Graph) (scope : List (Nat × Naming)) (s : Store) : Prop where
  entities : s.entities.map (fun e => (some e.schema, e.naming)) =
    (kept g scope).map fun place => (g.type? place.1, place.2)
  ofKind : ∀ e ∈ s.entities, e.OfKind
  found : ∀ n id, s.find? n = some id ↔
    ∃ place, (kept g scope)[id]? = some place ∧ g.fullname place.1 = n
  dependencies : ∀ id r place, s.record? id = some r → (kept g scope)[id]? = some place →
    r.dependencies = numbers g scope (g.dependencies place.1)
  parents : ∀ a b ra rb, s.record? a = some ra → s.record? b = some rb →
    (b ∈ ra.dependencies ↔ a ∈ rb.parents)
  once : ∀ id r, s.record? id = some r →
    r.parents.Nodup ∧ ∀ a ∈ r.parents, ∃ ra, s.record? a = some ra
  owners : ∀ id r place, s.record? id = some r → (kept g scope)[id]? = some place →
    r.owners = numbers g scope (g.owners place.1) ∧ r.owners.Nodup ∧ r.owners ⊆ r.parents
  fields : ∀ id r, s.record? id = some r → s.FieldsDenote c r.schema r.fields

theorem getElem?_kept {id : Nat} : (kept g scope)[id]? =
    (placed g scope)[id]?.map fun p => (p.node, p.naming) := by
  rw [← map_placed, List.getElem?_map]

namespace ComesOf

variable {drafts : List Entity} {s : Store}

theorem map_entities (hs : s.ComesOf c g scope drafts) :
    s.entities.map (fun e => (some e.schema, e.naming)) =
      (kept g scope).map fun place => (g.type? place.1, place.2) := by
  refine List.ext_getElem? fun id => ?_
  have h := congrArg (Option.map fun e => (some e.1, e.2)) (hs.map_get? id)
  rw [Option.map_map, Option.map_map] at h
  rw [List.getElem?_map, List.getElem?_map, getElem?_kept, Option.map_map]
  refine h.trans (Option.map_congr fun p hp => ?_)
  exact Prod.ext (type?_placed hp).symm rfl

theorem found (hs : s.ComesOf c g scope drafts) (hg : g.Whole c)
    (hscope : (scope.map Prod.fst).Nodup) (n : String) (id : Nat) :
    s.find? n = some id ↔ ∃ place, (kept g scope)[id]? = some place ∧ g.fullname place.1 = n := by
  rw [hs.find?_eq, idAmong_eq_some hg.once hscope, getElem?_kept]
  constructor
  · rintro ⟨p, hp, rfl⟩
    exact ⟨_, congrArg _ hp, rfl⟩
  · rintro ⟨place, hplace, rfl⟩
    obtain ⟨p, hp, rfl⟩ := Option.map_eq_some_iff.1 hplace
    exact ⟨p, hp, rfl⟩

theorem mem_parents_iff (hs : s.ComesOf c g scope drafts) {a b : Nat} {ra rb : RecordEntity}
    (ha : s.record? a = some ra) (hb : s.record? b = some rb) :
    b ∈ ra.dependencies ↔ a ∈ rb.parents := by
  obtain ⟨hrecord, p, hp, _, hdependencies, _, _⟩ := hs.record_eq ha
  obtain ⟨_, _, _, _, _, _, hparents⟩ := hs.record_eq hb
  have hlt : a < (placed g scope).length := (List.getElem?_eq_some_iff.1 hp).1
  rw [hdependencies, hparents, List.mem_filter, ← linksAt_eq hp hrecord]
  simp [hlt]

theorem record_of_mem_parents (hs : s.ComesOf c g scope drafts) {a b : Nat} {rb : RecordEntity}
    (hb : s.record? b = some rb) (h : a ∈ rb.parents) : ∃ ra, s.record? a = some ra := by
  obtain ⟨_, _, _, _, _, _, hparents⟩ := hs.record_eq hb
  rw [hparents, List.mem_filter, linksAt] at h
  refine hs.record?_of_isRecord ?_
  by_contra hnot
  simp [hnot] at h

/-- Owners depend on what they own, so they are parents. -/
theorem owners_subset_parents (hs : s.ComesOf c g scope drafts) (hg : g.Whole c)
    (hscope : (scope.map Prod.fst).Nodup) {id : Nat} {r : RecordEntity}
    (hr : s.record? id = some r) : r.owners ⊆ r.parents := by
  intro o ho
  obtain ⟨_, p, hp, _, _, howners, _⟩ := hs.record_eq hr
  rw [howners] at ho
  obtain ⟨ro, hro⟩ := hs.record?_of_isRecord (isRecord_of_mem_ownerIds hg hscope hs.drafted ho)
  obtain ⟨_, q, hq, _, hdependencies, _, _⟩ := hs.record_eq hro
  refine (hs.mem_parents_iff hro hr).1 ?_
  -- the entity `o` stems from the owner `j`, which depends on the node of `r`
  obtain ⟨j, hj, ho⟩ := List.mem_filterMap.1 ho
  obtain ⟨q', hq', hname⟩ := (idAmong_eq_some hg.once hscope).1 ho
  rw [hq, Option.some.injEq] at hq'
  rw [← hq'] at hname
  have hnode : q.node = j :=
    Graph.fullname_inj hg.once (Graph.lt_of_type? (type?_placed hq)) (hg.owners p.node j hj) hname
  rw [hdependencies, linksOf, hnode]
  refine List.mem_filterMap.2 ⟨p.node, hg.mem_dependencies_of_owner hj, ?_⟩
  exact (idAmong_eq_some hg.once hscope).2 ⟨p, hp, rfl⟩

/-- The numbers that were given out lead to the entities of their definitions. -/
theorem numbers_idAmong (hs : s.ComesOf c g scope drafts) (hg : g.Whole c)
    (hscope : (scope.map Prod.fst).Nodup) :
    FieldType.Numbers c s (idAmong (placed g scope)) := by
  intro n id hid
  refine ⟨(hs.find?_eq n).trans hid, ?_⟩
  obtain ⟨p, hp, rfl⟩ := (idAmong_eq_some hg.once hscope).1 hid
  obtain ⟨e, he, hschema, _, hkind⟩ := hs.exists_get? hp
  have htype := type?_placed hp
  rw [Graph.type?_eq] at htype
  refine ⟨e, he, hkind, ?_⟩
  rw [hschema, ← fullname_placed hp]
  exact hg.typed p.type (List.mem_of_getElem? htype)

theorem fieldsDenote (hs : s.ComesOf c g scope drafts) (hg : g.Whole c)
    (hscope : (scope.map Prod.fst).Nodup) {id : Nat} {r : RecordEntity}
    (hr : s.record? id = some r) : s.FieldsDenote c r.schema r.fields := by
  obtain ⟨p, _, hschema, _, hfields, _⟩ := hs.exists_placed_of_record? hr
  rw [FieldsDenote, ← hschema]
  refine (Answer.forall₂_of_mapM hfields).imp fun f field h => ?_
  obtain ⟨type, htype, h⟩ := Answer.of_bind_ok h
  rw [← Except.ok.inj h]
  exact ⟨rfl, (FieldType.denotes_resolve (hs.numbers_idAmong hg hscope)).1 _ _
    (Answer.of_mapError_ok htype)⟩

theorem mirrors (hs : s.ComesOf c g scope drafts) (hg : g.Whole c) (hc : c.Closed)
    (hscope : (scope.map Prod.fst).Nodup) : s.Mirrors c g scope where
  entities := hs.map_entities
  ofKind := by
    intro e he
    obtain ⟨id, _, heq⟩ := List.mem_iff_getElem.1 he
    have hget : s.get? id = some e := heq ▸ List.getElem?_eq_getElem _
    obtain ⟨_, _, _, _, hkind⟩ := hs.exists_placed hget
    exact hkind
  found := hs.found hg hscope
  dependencies := by
    intro id r place hr hplace
    obtain ⟨_, p, hp, _, hdependencies, _, _⟩ := hs.record_eq hr
    rw [getElem?_kept, hp, Option.map_some, Option.some.injEq] at hplace
    rw [hdependencies, ← hplace]
    refine filterMap_idAmong hg.once hscope fun j hj => ?_
    obtain ⟨t, ht, _⟩ := Graph.exists_type? (hg.dependencies_lt j hj)
    exact ⟨t, ht, hg.kind_of_dependency hc hj ht⟩
  parents := fun a b ra rb ha hb => hs.mem_parents_iff ha hb
  once := by
    intro id r hr
    obtain ⟨_, _, _, _, _, _, hparents⟩ := hs.record_eq hr
    refine ⟨?_, fun a ha => hs.record_of_mem_parents hr ha⟩
    rw [hparents]
    exact List.nodup_range.filter _
  owners := by
    intro id r place hr hplace
    obtain ⟨_, p, hp, _, _, howners, _⟩ := hs.record_eq hr
    rw [getElem?_kept, hp, Option.map_some, Option.some.injEq] at hplace
    have hkinds : ∀ j ∈ g.owners p.node, ∃ t, g.type? j = some t ∧ t.kind ≠ .fixed := by
      intro j hj
      obtain ⟨t, ht, hkind⟩ := hg.kind_of_owner hj
      exact ⟨t, ht, by simp [hkind]⟩
    have hnumbers : r.owners = numbers g scope (g.owners p.node) :=
      howners.trans (filterMap_idAmong hg.once hscope hkinds)
    refine ⟨hplace ▸ hnumbers, ?_, hs.owners_subset_parents hg hscope hr⟩
    rw [hnumbers]
    exact nodup_numbers (hg.nodup_owners p.node) hkinds
  fields := fun id r hr => hs.fieldsDenote hg hscope hr

end ComesOf

/-- **A store shows its scope.** For every graph of a catalog that was read, and any of its nodes in
    any order, building never finds an owner that is no record, and a store that is built shows the
    nodes with their relations. -/
theorem build_mirrors (calls : List Reader.Call) {c : Catalog}
    (h : (Reader.after calls).finish = .ok c) {g : Graph} (hg : g.Built c) (generator : String)
    (scope : List (Nat × Naming)) (hscope : (scope.map Prod.fst).Nodup) :
    (∀ owner owned, build generator g c scope ≠ .error (.relation owner (.ownerNotRecord owned))) ∧
      ∀ s, build generator g c scope = .ok s → s.Mirrors c g scope := by
  have hc := (Reader.sound_after calls).closed_of_finish h
  have hwhole := hg.whole hc
  refine ⟨fun owner owned herror => ?_, fun s hs => ?_⟩
  · rw [build_eq hwhole hscope] at herror
    rcases Answer.of_bind_error herror with herror | ⟨_, _, herror⟩
    · obtain ⟨p, _, hp⟩ := Answer.exists_of_mapM_error herror
      obtain ⟨n, problem, hfault⟩ := draft_error hp
      cases hfault
    · cases herror
  · obtain ⟨drafts, hcomes⟩ := exists_comesOf hwhole hscope hs
    exact hcomes.mirrors hwhole hc hscope

/-- The graph of the tree. -/
def treeGraph : Graph :=
  match Graph.ofCatalog Reader.treeCatalog with
  | .ok g => g
  | .error _ => Graph.empty

theorem ofCatalog_tree : Graph.ofCatalog Reader.treeCatalog = .ok treeGraph := by
  have hok : (Graph.ofCatalog Reader.treeCatalog).toOption.isSome = true := by decide +kernel
  unfold treeGraph
  cases h : Graph.ofCatalog Reader.treeCatalog with
  | ok g => rfl
  | error fault => simp [h, Except.toOption] at hok

/-- The enums of the tree around its record. -/
def treeScope : List (Nat × Naming) :=
  [(2, ⟨"x", "Left", "x.Left"⟩), (0, ⟨"x", "Tree", "x.Tree"⟩), (1, ⟨"x", "Colour", "x.Colour"⟩)]

theorem build_mirrors_tree :
    (Reader.after Reader.treeCalls).finish = .ok Reader.treeCatalog ∧
    treeGraph.Built Reader.treeCatalog ∧ (treeScope.map Prod.fst).Nodup ∧
    ∃ s, build "java" treeGraph Reader.treeCatalog treeScope = .ok s ∧
      s.Mirrors Reader.treeCatalog treeGraph treeScope := by
  have hbuilt : treeGraph.Built Reader.treeCatalog := Graph.built_ofCatalog ofCatalog_tree
  have hscope : (treeScope.map Prod.fst).Nodup := by decide
  have hmirrors := build_mirrors Reader.treeCalls Reader.finish_treeCalls hbuilt "java" treeScope hscope
  have hok : (build "java" treeGraph Reader.treeCatalog treeScope).toOption.isSome = true := by
    decide +kernel
  cases hs : build "java" treeGraph Reader.treeCatalog treeScope with
  | ok s => exact ⟨Reader.finish_treeCalls, hbuilt, hscope, s, rfl, hmirrors.2 s hs⟩
  | error fault => simp [hs, Except.toOption] at hok

end Store

end AvroCodegen
