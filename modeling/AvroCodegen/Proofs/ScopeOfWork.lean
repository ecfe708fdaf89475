import AvroCodegen.Graph.Scope
import AvroCodegen.Proofs.DependencyOrder
import AvroCodegen.Proofs.StoreRelations

set_option autoImplicit false

/-! # The scope of work and what types refer to

The scope holds the roots of a graph and all that they need, so it is closed under the needs of its
records. Types are resolved over the scope by a recursion of its own, which also follows the members
of unions, and the graph does not. So plain references, arrays at any depth and maps always find what
they refer to, and only a reference inside a union can be out of scope. -/

namespace AvroCodegen

/-! ## The scope of a graph -/

namespace Graph

variable {c : Catalog} {g : Graph} {i j : Nat}

theorem Whole.wellKeyed (hg : g.Whole c) : g.walkable.WellKeyed where
  closed := fun _ _ j hj => List.mem_range.2 (hg.dependencies_lt j hj)
  key_inj := fun _ hi _ hj h => fullname_inj hg.once (List.mem_range.1 hi) (List.mem_range.1 hj) h

theorem isFree_findRoots (g : Graph) (i : Nat) : g.findRoots.isFree i = g.isFree i := by
  have htype : g.findRoots.type? i = g.type? i := by rw [type?_eq, types_findRoots, ← type?_eq]
  rw [isFree, htype]
  rfl

/-- Judging roots changes nothing that they are judged by. -/
theorem roots_findRoots (g : Graph) :
    g.findRoots.roots = g.findRoots.ids.filter g.findRoots.isFree := by
  rw [funext (isFree_findRoots g), ids, length_findRoots]
  rfl

/-- The roots of a graph that was drawn are its free nodes, in their order. -/
theorem roots_ofCatalog (h : ofCatalog c = .ok g) : g.roots = g.ids.filter g.isFree := by
  obtain ⟨g₁, _, h⟩ := Answer.of_bind_ok h
  rw [← Except.ok.inj h]
  exact roots_findRoots g₁

theorem roots_subset_ids (h : ofCatalog c = .ok g) : ∀ i ∈ g.roots, i ∈ g.ids := by
  rw [roots_ofCatalog h]
  exact fun i hi => (List.mem_filter.1 hi).1

theorem whole_ofCatalog (hc : c.Closed) (h : ofCatalog c = .ok g) : g.Whole c :=
  (built_ofCatalog h).whole hc

theorem mem_scope_iff (hc : c.Closed) (h : ofCatalog c = .ok g) :
    i ∈ g.scope ↔ ∃ root ∈ g.roots, i = root ∨ g.walkable.Reaches root i := by
  have hflatten : i ∈ g.flatten g.roots ↔ ∃ root ∈ g.roots, g.walkable.Reaches root i :=
    DependencyGraph.mem_flatten_iff (whole_ofCatalog hc h).wellKeyed g.roots (roots_subset_ids h)
  simp only [scope, List.mem_append, List.mem_filter, hflatten]
  constructor
  · rintro (⟨root, hroot, hreach⟩ | ⟨hroot, _⟩)
    · exact ⟨root, hroot, Or.inr hreach⟩
    · exact ⟨i, hroot, Or.inl rfl⟩
  · rintro ⟨root, hroot, rfl | hreach⟩
    · by_cases hneeded : i ∈ g.flatten g.roots
      · exact Or.inl (hflatten.1 hneeded)
      · exact Or.inr ⟨hroot, by simpa using hneeded⟩
    · exact Or.inl ⟨root, hroot, hreach⟩

/-- What a node of the scope needs is in the scope. -/
theorem scope_closed (hc : c.Closed) (h : ofCatalog c = .ok g) (hi : i ∈ g.scope)
    (hj : j ∈ g.dependencies i) : j ∈ g.scope := by
  rw [mem_scope_iff hc h] at hi ⊢
  obtain ⟨root, hroot, rfl | hreach⟩ := hi
  · exact ⟨i, hroot, Or.inr (.single hj)⟩
  · exact ⟨root, hroot, Or.inr (hreach.tail hj)⟩

theorem nodup_scope (hc : c.Closed) (h : ofCatalog c = .ok g) : g.scope.Nodup := by
  have hneeded : (g.flatten g.roots).Nodup :=
    DependencyGraph.nodup_flatten (whole_ofCatalog hc h).wellKeyed g.roots (roots_subset_ids h)
  have hroots : g.roots.Nodup := by
    rw [roots_ofCatalog h]
    exact List.nodup_range.filter _
  refine hneeded.append (hroots.filter _) fun i hi hi' => ?_
  simp [hi] at hi'

theorem lt_of_mem_scope (hc : c.Closed) (h : ofCatalog c = .ok g) (hi : i ∈ g.scope) :
    i < g.nodes.length := by
  obtain ⟨root, hroot, rfl | hreach⟩ := (mem_scope_iff hc h).1 hi
  · exact List.mem_range.1 (roots_subset_ids h i hroot)
  · obtain ⟨_, _, hneeds⟩ := Relation.TransGen.tail'_iff.1 hreach
    exact (whole_ofCatalog hc h).dependencies_lt i hneeds

/-- What a record of the scope refers to plainly, or as the innermost items of an array, is in the
    scope. -/
theorem core_mem_scope (hc : c.Closed) (h : ofCatalog c = .ok g) (hi : i ∈ g.scope) {t : NamedType}
    (ht : g.type? i = some t) {f : FieldDecl} (hf : f ∈ t.fields) {n : String}
    (hn : f.schema.core.reference? = some n) (hentity : (c.entity? n).isSome) :
    n ∈ g.fullnames g.scope := by
  have htarget : n ∈ c.targets t := by
    refine List.mem_filterMap.2 ⟨f, hf, ?_⟩
    simp [Catalog.target?, hn, Option.filter, hentity]
  rw [← List.mem_eraseDups, ← (whole_ofCatalog hc h).fullnames_dependencies hc ht] at htarget
  obtain ⟨j, hj, rfl⟩ := List.mem_map.1 htarget
  exact List.mem_map_of_mem (scope_closed hc h hi hj)

end Graph

/-! ## What resolution follows -/

/-- Resolving a schema looks up a fullname. What a map holds is not looked at. -/
inductive Schema.Follows : Schema → String → Prop
  | named (n : String) (m : Annotations) : Follows (.named n m) n
  | array {s : Schema} {n : String} (m : Annotations) : Follows s n → Follows (.array s m) n
  | union {ss : List Schema} {s : Schema} {n : String} (m : Annotations) :
      s ∈ ss → Follows s n → Follows (.union ss m) n

/-- Resolving a schema looks up a fullname inside a union, arrays around the union taken off. -/
inductive Schema.FollowsInUnion : Schema → String → Prop
  | array {s : Schema} {n : String} (m : Annotations) :
      FollowsInUnion s n → FollowsInUnion (.array s m) n
  | union {ss : List Schema} {s : Schema} {n : String} (m : Annotations) :
      s ∈ ss → Follows s n → FollowsInUnion (.union ss m) n

theorem Schema.FollowsInUnion.follows {s : Schema} {n : String} (h : s.FollowsInUnion n) :
    s.Follows n := by
  induction h with
  | array m _ ih => exact .array m ih
  | union m hs h => exact .union m hs h

/-- What is followed is what the graph looks at, or stands inside a union. -/
theorem Schema.Follows.core_or_inUnion {s : Schema} {n : String} (h : s.Follows n) :
    s.core.reference? = some n ∨ s.FollowsInUnion n := by
  induction h with
  | named n m => exact Or.inl rfl
  | array m _ ih => exact ih.imp (fun h => h) (.array m)
  | union m hs h _ => exact Or.inr (.union m hs h)

namespace FieldType

variable {c : Catalog} {idOf : String → Option Nat} {n : String}

/-- A record or enum without a number. -/
def Unnumbered (c : Catalog) (idOf : String → Option Nat) (n : String) : Prop :=
  (c.entity? n).isSome ∧ idOf n = none

theorem bound_ne_outOfScope {key : String} {value : Nat} :
    bound key value ≠ .error (.outOfScope n) := by
  unfold bound
  split <;> simp

theorem decimal_ne_outOfScope {props : Properties} : decimal props ≠ .error (.outOfScope n) := by
  intro h
  unfold decimal at h
  split at h
  · cases h
  · rcases Answer.of_bind_error h with h | ⟨_, _, h⟩
    · exact bound_ne_outOfScope h
    · rcases Answer.of_bind_error h with h | ⟨_, _, h⟩
      · exact bound_ne_outOfScope h
      · cases h

theorem datetime_ne_outOfScope {props : Properties} : datetime props ≠ .error (.outOfScope n) := by
  unfold datetime
  split <;> simp

/-- Refining a primitive looks up nothing. -/
theorem refine_ne_outOfScope {p : Primitive} {logical : Option String} {props : Properties} :
    refine p logical props ≠ .error (.outOfScope n) := by
  cases p with
  | bytes =>
      dsimp only [refine]
      split
      · exact decimal_ne_outOfScope
      · simp
  | string =>
      dsimp only [refine]
      split
      · simp
      · split
        · exact datetime_ne_outOfScope
        · simp
  | _ => simp [refine]

theorem refer_eq_outOfScope {k : String} {props : Properties}
    (h : refer c idOf k props = .error (.outOfScope n)) : k = n ∧ Unnumbered c idOf n := by
  unfold refer at h
  cases hget : c.get? k with
  | none => simp [hget] at h
  | some t =>
      have hentity : t.kind ≠ .fixed → (c.entity? k).isSome := fun hkind =>
        Option.isSome_iff_exists.2 ⟨t, Catalog.entity?_eq_some.2 ⟨hget, hkind⟩⟩
      cases hid : idOf k with
      | some id => cases hbody : t.body <;> simp [hget, hid, hbody] at h
      | none =>
          cases hbody : t.body with
          | fixed size => simp [hget, hid, hbody] at h
          | record fields =>
              obtain rfl : k = n := by simpa [hget, hid, hbody] using h
              exact ⟨rfl, hentity (by simp [NamedType.kind, hbody]), hid⟩
          | enum symbols =>
              obtain rfl : k = n := by simpa [hget, hid, hbody] using h
              exact ⟨rfl, hentity (by simp [NamedType.kind, hbody]), hid⟩

theorem refer_of_unnumbered {props : Properties} {t : FieldType} (hn : Unnumbered c idOf n) :
    refer c idOf n props ≠ .ok t := by
  obtain ⟨hentity, hid⟩ := hn
  obtain ⟨d, hd⟩ := Option.isSome_iff_exists.1 hentity
  obtain ⟨hget, hkind⟩ := Catalog.entity?_eq_some.1 hd
  unfold refer
  cases hbody : d.body with
  | fixed size => exact absurd (by simp [NamedType.kind, hbody]) hkind
  | record fields => simp [hget, hid, hbody]
  | enum symbols => simp [hget, hid, hbody]

/-- Resolution complains about a fullname out of scope only if it follows a reference to it. -/
theorem resolve_outOfScope :
    (∀ extra schema, resolve c idOf extra schema = .error (.outOfScope n) →
      schema.Follows n ∧ Unnumbered c idOf n) ∧
    (∀ schemas, resolveAll c idOf schemas = .error (.outOfScope n) →
      ∃ schema ∈ schemas, schema.Follows n ∧ Unnumbered c idOf n) := by
  refine resolve.mutual_induct
    (fun extra schema => resolve c idOf extra schema = .error (.outOfScope n) →
      schema.Follows n ∧ Unnumbered c idOf n)
    (fun schemas => resolveAll c idOf schemas = .error (.outOfScope n) →
      ∃ schema ∈ schemas, schema.Follows n ∧ Unnumbered c idOf n)
    ?primitive ?array ?map ?union ?named ?nil ?cons
  case primitive =>
    intro extra p marks h
    rw [resolve] at h
    rcases Answer.of_bind_error h with h | ⟨_, _, h⟩
    · exact absurd h refine_ne_outOfScope
    · cases h
  case array =>
    intro extra items marks ih h
    rw [resolve] at h
    rcases Answer.of_bind_error h with h | ⟨_, _, h⟩
    · exact (ih h).imp_left (.array marks)
    · cases h
  case map =>
    intro extra values marks h
    rw [resolve] at h
    cases h
  case union =>
    intro extra members marks ih h
    rw [resolve] at h
    rcases Answer.of_bind_error h with h | ⟨_, _, h⟩
    · obtain ⟨schema, hmem, hfollows, hn⟩ := ih h
      exact ⟨.union marks hmem hfollows, hn⟩
    · cases h
  case named =>
    intro extra k marks h
    rw [resolve] at h
    obtain ⟨rfl, hn⟩ := refer_eq_outOfScope h
    exact ⟨.named k marks, hn⟩
  case nil =>
    intro h
    rw [resolveAll] at h
    cases h
  case cons =>
    intro schema rest ih ihs h
    rw [resolveAll] at h
    rcases Answer.of_bind_error h with h | ⟨_, _, h⟩
    · exact ⟨schema, by simp, ih h⟩
    · rcases Answer.of_bind_error h with h | ⟨_, _, h⟩
      · obtain ⟨schema', hmem, hfollows⟩ := ihs h
        exact ⟨schema', by simp [hmem], hfollows⟩
      · cases h

theorem exists_of_resolveAll {schemas : List Schema} :
    ∀ {ts : List FieldType}, resolveAll c idOf schemas = .ok ts →
      ∀ s ∈ schemas, ∃ t, resolve c idOf [] s = .ok t := by
  induction schemas with
  | nil => simp
  | cons first rest ih =>
      intro ts h s hs
      rw [resolveAll] at h
      obtain ⟨t, hfirst, h⟩ := Answer.of_bind_ok h
      obtain ⟨ts', hrest, _⟩ := Answer.of_bind_ok h
      rcases List.mem_cons.1 hs with rfl | hs
      · exact ⟨t, hfirst⟩
      · exact ih hrest s hs

/-- A schema is not resolved while something that it follows has no number. -/
theorem resolve_of_unnumbered {schema : Schema} (h : schema.Follows n)
    (hn : Unnumbered c idOf n) :
    ∀ {extra : Properties} {t : FieldType}, resolve c idOf extra schema ≠ .ok t := by
  induction h with
  | named n m =>
      intro extra t ht
      rw [resolve] at ht
      exact refer_of_unnumbered hn ht
  | array m _ ih =>
      intro extra t ht
      rw [resolve] at ht
      obtain ⟨element, helement, _⟩ := Answer.of_bind_ok ht
      exact ih hn helement
  | union m hs _ ih =>
      intro extra t ht
      rw [resolve] at ht
      obtain ⟨types, htypes, _⟩ := Answer.of_bind_ok ht
      obtain ⟨t', ht'⟩ := exists_of_resolveAll htypes _ hs
      exact ih hn ht'

end FieldType

/-! ## Building over the scope -/

namespace Store

variable {c : Catalog} {g : Graph} {scope : List (Nat × Naming)} {generator : String} {n : String}

/-- A record of the scope refers to something inside a union of the field. -/
structure RefersInUnion (g : Graph) (t : NamedType) (f : FieldDecl) (n : String) : Prop where
  inScope : ∃ i ∈ g.scope, g.type? i = some t
  field : f ∈ t.fields
  follows : f.schema.FollowsInUnion n

/-- A record or enum out of the scope. -/
def OutOfScope (c : Catalog) (g : Graph) (n : String) : Prop :=
  (c.entity? n).isSome ∧ n ∉ g.fullnames g.scope

theorem draft_outOfScope {p : Placed} {idOf : String → Option Nat} {place : String}
    (h : draft c g idOf p = .error (.schema place (.outOfScope n))) :
    ∃ f ∈ p.type.fields, place = p.type.fullname ++ "." ++ f.name ∧ f.schema.Follows n ∧
      FieldType.Unnumbered c idOf n := by
  unfold draft at h
  split at h
  · rcases Answer.of_bind_error h with h | ⟨_, _, h⟩
    · rcases Answer.of_bind_error h with h | ⟨_, _, h⟩
      · rcases aliasesOf_error h with h | h | ⟨_, _, h⟩ <;> cases h
      · cases h
    · cases h
  · rcases Answer.of_bind_error h with h | ⟨_, _, h⟩
    · obtain ⟨f, hf, h⟩ := Answer.exists_of_mapM_error h
      rcases Answer.of_bind_error h with h | ⟨_, _, h⟩
      · obtain ⟨problem, hproblem, h⟩ := Answer.of_mapError_error h
        cases h
        exact ⟨f, hf, rfl, FieldType.resolve_outOfScope.1 _ _ hproblem⟩
      · cases h
    · cases h

/-- The definitions without a number are those out of the scope. -/
theorem unnumbered_iff (hc : c.Closed) (h : Graph.ofCatalog c = .ok g)
    (hscope : scope.map Prod.fst = g.scope) :
    FieldType.Unnumbered c (idAmong (placed g scope)) n ↔ OutOfScope c g n := by
  have hwhole := Graph.whole_ofCatalog hc h
  have hnodup : (scope.map Prod.fst).Nodup := hscope ▸ Graph.nodup_scope hc h
  refine and_congr_right fun hentity => ⟨fun hid hmem => ?_, fun hout => ?_⟩
  · obtain ⟨j, hj, rfl⟩ := List.mem_map.1 hmem
    obtain ⟨t, ht, htypes⟩ := Graph.exists_type? (Graph.lt_of_mem_scope hc h hj)
    obtain ⟨d, hd⟩ := Option.isSome_iff_exists.1 hentity
    obtain ⟨hget, hkind⟩ := Catalog.entity?_eq_some.1 hd
    rw [Graph.fullname_of_type? ht, hwhole.typed t htypes, Option.some.injEq] at hget
    rw [idAmong_fullname hwhole.once hnodup ht (hget ▸ hkind), hscope, if_pos hj] at hid
    cases hid
  · cases hid : idAmong (placed g scope) n with
    | none => rfl
    | some id =>
        obtain ⟨p, hp, rfl⟩ := (idAmong_eq_some hwhole.once hnodup).1 hid
        obtain ⟨ht, hkind⟩ := type?_of_mem_placed (List.mem_of_getElem? hp)
        refine absurd (List.mem_map_of_mem (f := g.fullname) ?_) hout
        rw [← hscope, ← mem_kept ht hkind, ← map_node_placed]
        exact List.mem_map_of_mem (List.mem_of_getElem? hp)

/-- A record of the scope is placed. -/
theorem exists_placed_record (hscope : scope.map Prod.fst = g.scope) {i : Nat} (hi : i ∈ g.scope)
    {t : NamedType} (ht : g.type? i = some t) {f : FieldDecl} (hf : f ∈ t.fields) :
    t.kind = .record ∧ ∃ p ∈ placed g scope, p.type = t := by
  have hkind : t.kind = .record := NamedType.kind_of_mem_fields hf
  rw [← hscope] at hi
  obtain ⟨⟨j, naming⟩, hplace, rfl⟩ := List.mem_map.1 hi
  exact ⟨hkind, ⟨j, t, naming⟩, List.mem_filterMap.2 ⟨_, hplace, by simp [ht, hkind]⟩, rfl⟩

/-- **Only a union refers out of the scope.** For the graph of every catalog that sources give, and any
    names for its scope, building complains about a fullname out of scope only where a record of the
    scope refers to it inside a union; and while there is such a reference, nothing is built. -/
theorem build_outOfScope {sources : List (String × String)} (hread : Catalog.ofSources sources = .ok c)
    (hgraph : Graph.ofCatalog c = .ok g) (generator : String)
    (hscope : scope.map Prod.fst = g.scope) :
    (∀ place, build generator g c scope = .error (.schema place (.outOfScope n)) →
      OutOfScope c g n ∧ ∃ t f, RefersInUnion g t f n ∧ place = t.fullname ++ "." ++ f.name) ∧
    (OutOfScope c g n → ∀ t f, RefersInUnion g t f n →
      ∃ fault, build generator g c scope = .error fault) := by
  have hc : c.Closed := Catalog.closed_of_ofSources hread
  have hwhole := Graph.whole_ofCatalog hc hgraph
  have hnodup : (scope.map Prod.fst).Nodup := hscope ▸ Graph.nodup_scope hc hgraph
  refine ⟨fun place h => ?_, fun hout t f ⟨⟨i, hi, ht⟩, hf, hfollows⟩ => ?_⟩
  · rw [build_eq hwhole hnodup] at h
    rcases Answer.of_bind_error h with h | ⟨_, _, h⟩
    · obtain ⟨p, hp, h⟩ := Answer.exists_of_mapM_error h
      obtain ⟨f, hf, hplace, hfollows, hn⟩ := draft_outOfScope h
      have hout := (unnumbered_iff hc hgraph hscope).1 hn
      obtain ⟨ht, hkind⟩ := type?_of_mem_placed hp
      have hi : p.node ∈ g.scope := by
        rw [← hscope, ← mem_kept ht hkind, ← map_node_placed]
        exact List.mem_map_of_mem hp
      refine ⟨hout, p.type, f, ⟨⟨p.node, hi, ht⟩, hf, ?_⟩, hplace⟩
      -- what the graph looks at as well is in the scope
      rcases hfollows.core_or_inUnion with hcore | hunion
      · exact absurd (Graph.core_mem_scope hc hgraph hi ht hf hcore hout.1) hout.2
      · exact hunion
    · cases h
  · cases hbuild : build generator g c scope with
    | error fault => exact ⟨fault, rfl⟩
    | ok s =>
        exfalso
        obtain ⟨drafts, hcomes⟩ := exists_comesOf hwhole hnodup hbuild
        obtain ⟨hkind, p, hp, rfl⟩ := exists_placed_record hscope hi ht hf
        obtain ⟨id, hid⟩ := List.mem_iff_getElem?.1 hp
        obtain ⟨e, _, hdraft⟩ := Answer.getElem?_of_forall₂ hcomes.drafted hid
        cases e with
        | enum e =>
            have hschema : e.schema = p.type := hdraft.schema
            have hof : e.schema.kind = .enum := hdraft.ofKind
            rw [hschema, hkind] at hof
            cases hof
        | record r =>
            have hfields := Answer.forall₂_of_mapM (hdraft.fields r rfl)
            obtain ⟨k, hk⟩ := List.mem_iff_getElem?.1 hf
            obtain ⟨field, _, hfield⟩ := Answer.getElem?_of_forall₂ hfields hk
            obtain ⟨type, htype, _⟩ := Answer.of_bind_ok hfield
            have hn := (unnumbered_iff hc hgraph hscope).2 hout
            exact FieldType.resolve_of_unnumbered hfollows.follows hn (Answer.of_mapError_ok htype)

/-! ## An optional enum

A record refers to an enum in a union with `null` and nowhere else, so the enum has a node that is not
in the scope. -/

/-- The source of the record and the enum. -/
def optionalSources : List (String × String) :=
  [("x.avsc", "[\x7b\"type\":\"enum\",\"name\":\"x.E\",\"symbols\":[\"A\"]\x7d,"
    ++ "\x7b\"type\":\"record\",\"name\":\"x.R\",\"fields\":"
    ++ "[\x7b\"name\":\"e\",\"type\":[\"null\",\"x.E\"]\x7d]\x7d]")]

/-- What comes of reading the source. -/
def optionalCatalog : Catalog :=
  (Catalog.ofSources optionalSources).toOption.getD ⟨[], []⟩

/-- The graph of the record and the enum. -/
def optionalGraph : Graph :=
  (Graph.ofCatalog optionalCatalog).toOption.getD Graph.empty

/-- The scope is the record. -/
def optionalScope : List (Nat × Naming) := [(1, ⟨"x", "R", "x.R"⟩)]

theorem ofSources_optional : Catalog.ofSources optionalSources = .ok optionalCatalog :=
  Answer.eq_ok_getD _ (by decide +kernel)

theorem ofCatalog_optional : Graph.ofCatalog optionalCatalog = .ok optionalGraph :=
  Answer.eq_ok_getD _ (by decide +kernel)

theorem scope_optional : optionalScope.map Prod.fst = optionalGraph.scope := by decide +kernel

theorem build_optional : build "java" optionalGraph optionalCatalog optionalScope =
    .error (.schema "x.R.e" (.outOfScope "x.E")) := by
  have hfault : (match build "java" optionalGraph optionalCatalog optionalScope with
      | .error (.schema place (.outOfScope n)) => place = "x.R.e" && n = "x.E"
      | _ => false) = true := by decide +kernel
  split at hfault
  · next place n h =>
      rw [h]
      simp only [Bool.and_eq_true, decide_eq_true_eq] at hfault
      rw [hfault.1, hfault.2]
  · cases hfault

/-- Not every reference that resolution follows is in the scope. -/
theorem exists_build_outOfScope : Catalog.ofSources optionalSources = .ok optionalCatalog ∧
    Graph.ofCatalog optionalCatalog = .ok optionalGraph ∧
    optionalScope.map Prod.fst = optionalGraph.scope ∧
    build "java" optionalGraph optionalCatalog optionalScope =
      .error (.schema "x.R.e" (.outOfScope "x.E")) :=
  ⟨ofSources_optional, ofCatalog_optional, scope_optional, build_optional⟩

theorem build_outOfScope_optional : Catalog.ofSources optionalSources = .ok optionalCatalog ∧
    Graph.ofCatalog optionalCatalog = .ok optionalGraph ∧
    optionalScope.map Prod.fst = optionalGraph.scope ∧
    OutOfScope optionalCatalog optionalGraph "x.E" ∧
    ∃ t f, RefersInUnion optionalGraph t f "x.E" ∧ t.fullname ++ "." ++ f.name = "x.R.e" ∧
      ∃ fault, build "java" optionalGraph optionalCatalog optionalScope = .error fault := by
  have hscope := build_outOfScope (n := "x.E") ofSources_optional ofCatalog_optional "java"
    scope_optional
  obtain ⟨hout, t, f, hrefers, hplace⟩ := hscope.1 "x.R.e" build_optional
  exact ⟨ofSources_optional, ofCatalog_optional, scope_optional, hout, t, f, hrefers, hplace.symm,
    hscope.2 hout t f hrefers⟩

end Store

end AvroCodegen
