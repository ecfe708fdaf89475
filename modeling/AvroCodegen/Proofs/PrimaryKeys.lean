import AvroCodegen.Graph.Scope
import AvroCodegen.Proofs.Declarations
import AvroCodegen.Proofs.KeyOrder
import AvroCodegen.Proofs.ScopeOfWork

set_option autoImplicit false

/-! # Primary keys, checked and seen

Whether a field is a primary key is decided twice. The check of a graph looks at the attributes of the
field and at those of its type, one by one. The entity of a record looks at one bag of attributes, in
which those of the field hide those of the type, and both hide those of the definition that the type
refers to (`FieldType.props_resolve`).

The two say the same of a field just when it is plainly marked, and so of a record all of whose fields
are: `Store.build_keysCompare`. That the field hides its type needs each attribute of the field to be
there once, which holds of every object that was read. -/

namespace AvroCodegen

/-! ## Attributes as they were written -/

/-- Every definition is written with its keys in order. -/
def Declarations.Ordered (v : Declarations) : Prop :=
  ∀ d ∈ v.all, (Json.obj d.members).Ordered

theorem Declarations.ordered_none : Declarations.none.Ordered := by
  simp [Ordered, all]

theorem Declarations.Ordered.append {v w : Declarations} (hv : v.Ordered) (hw : w.Ordered) :
    (v.append w).Ordered := by
  intro d hd
  rw [all_append, List.mem_append] at hd
  exact hd.elim (hv d) (hw d)

theorem Declarations.Ordered.one {d : Declared} {inner : Declarations}
    (hd : (Json.obj d.members).Ordered) (h : inner.Ordered) :
    (Declarations.one d inner .none).Ordered := by
  intro e he
  rcases List.mem_cons.1 he with rfl | he
  · exact hd
  · exact h e (by simpa [all] using he)

namespace Reader

theorem ordered_declarations :
    (∀ space value, value.Ordered → (declarations space value).Ordered) ∧
    (∀ space values, (∀ value ∈ values, value.Ordered) →
      (declarationsOfFields space values).Ordered) ∧
    (∀ space value, value.Ordered → (declarationsOfField space value).Ordered) ∧
    (∀ space values, (∀ value ∈ values, value.Ordered) →
      (declarationsOfAll space values).Ordered) := by
  refine declarations.mutual_induct
    (fun space value => value.Ordered → (declarations space value).Ordered)
    (fun space values => (∀ value ∈ values, value.Ordered) →
      (declarationsOfFields space values).Ordered)
    (fun space value => value.Ordered → (declarationsOfField space value).Ordered)
    (fun space values => (∀ value ∈ values, value.Ordered) →
      (declarationsOfAll space values).Ordered)
    ?union ?untyped ?unnamed ?definition ?arrayOpen ?array ?mapOpen ?map ?reference ?wrapper ?other
    ?noFields ?fields ?fieldUntyped ?field ?fieldOther ?noNodes ?nodes
  case union =>
    intro space members ih h
    rw [declarations]
    exact ih fun value hv => h.item hv
  case definition =>
    intro space members word ht kind hw name hn fullname ih h
    simp only [declarations_typed ht, hw, hn]
    refine .one h ?_
    unfold declarationsOfBody
    cases kind with
    | enum => exact Declarations.ordered_none
    | fixed => exact Declarations.ordered_none
    | record =>
        dsimp only
        split
        · next fields hf => exact ih fields hf fun value hv => (h.get? hf).item hv
        · exact Declarations.ordered_none
  case array =>
    intro space members word ht hw items hi ih h
    simp only [declarations_typed ht, hw, hi]
    exact ih (h.get? hi)
  case map =>
    intro space members word ht hw values hv ih h
    simp only [declarations_typed ht, hw, hv]
    exact ih (h.get? hv)
  case wrapper =>
    intro space members nested hn ht ih h
    rw [declarations_wrapper ht hn]
    exact ih (h.get? ht)
  case fields =>
    intro space value rest ih ihs h
    rw [declarationsOfFields]
    exact (ih (h _ (by simp))).append (ihs fun v hv => h v (by simp [hv]))
  case field =>
    intro space members type ht ih h
    rw [declarationsOfField_obj ht]
    exact ih (h.get? ht)
  case nodes =>
    intro space value rest ih ihs h
    rw [declarationsOfAll]
    exact (ih (h _ (by simp))).append (ihs fun v hv => h v (by simp [hv]))
  -- in all other places there is no definition
  case untyped =>
    intro space members ht _
    simpa only [declarations_untyped ht] using Declarations.ordered_none
  case unnamed =>
    intro space members word ht kind hw hn _
    simpa only [declarations_typed ht, hw, hn] using Declarations.ordered_none
  case arrayOpen =>
    intro space members word ht hw hi _
    simp only [declarations_typed ht, hw, hi]
    exact Declarations.ordered_none
  case mapOpen =>
    intro space members word ht hw hv _
    simp only [declarations_typed ht, hw, hv]
    exact Declarations.ordered_none
  case reference =>
    intro space members word ht hw _
    simpa only [declarations_typed ht, hw] using Declarations.ordered_none
  case other =>
    intro space value harr hobj _
    simpa only [declarations_other harr hobj] using Declarations.ordered_none
  case noFields =>
    intro space _
    simpa only [declarationsOfFields] using Declarations.ordered_none
  case fieldUntyped =>
    intro space members ht _
    simpa only [declarationsOfField_untyped ht] using Declarations.ordered_none
  case fieldOther =>
    intro space value hobj _
    simpa only [declarationsOfField_other hobj] using Declarations.ordered_none
  case noNodes =>
    intro space _
    simpa only [declarationsOfAll] using Declarations.ordered_none

theorem ordered_declarationsOfSources (sources : List (String × String)) :
    (declarationsOfSources sources).Ordered := by
  induction sources with
  | nil => exact Declarations.ordered_none
  | cons source rest ih =>
      refine Declarations.Ordered.append ?_ ih
      unfold declarationsOfSource
      cases hread : Json.read? source.2 with
      | none => exact Declarations.ordered_none
      | some value => exact ordered_declarations.1 none value (Json.ordered_of_read? hread)

/-- A field is read off an object: its schema off the type written there, and its attributes are those
    written there that have no meaning. -/
theorem of_readField {record : String} {value : Json} {r r' : Reader} {f : FieldDecl}
    (h : Reading.outcome (readField record value) r = (.ok f, r')) :
    ∃ members type, value = .obj members ∧ Keyed.get? "type" members = some type ∧
      Reading.outcome (readNode type) r = (.ok f.schema, r') ∧
      f.props = extras fieldAttributes members := by
  cases value with
  | obj members =>
      rw [readField_obj] at h
      split at h
      · exact absurd h Reading.complain_ne_ok
      · exact absurd h Reading.complain_ne_ok
      · next type _ htype =>
          obtain ⟨schema, r₁, hschema, h⟩ := Reading.of_bind_ok h
          cases h
          exact ⟨members, type, rfl, htype, hschema, rfl⟩
  | _ =>
      rw [readField] at h
      · exact absurd h Reading.complain_ne_ok
      · simp

/-- Some reader takes a written field of a record for the declared one. -/
def TakenFor (record : String) (value : Json) (f : FieldDecl) : Prop :=
  ∃ r r', Reading.outcome (readField record value) r = (.ok f, r')

theorem forall₂_of_readFields {record : String} {values : List Json} :
    ∀ {r r' : Reader} {fields : List FieldDecl},
      Reading.outcome (readFields record values) r = (.ok fields, r') →
      List.Forall₂ (TakenFor record) values fields := by
  induction values with
  | nil =>
      intro r r' fields h
      rw [readFields] at h
      cases h
      exact .nil
  | cons value rest ih =>
      intro r r' fields h
      rw [readFields] at h
      obtain ⟨first, r₁, hfirst, h⟩ := Reading.of_bind_ok h
      obtain ⟨others, r₂, hothers, h⟩ := Reading.of_bind_ok h
      cases h
      exact .cons ⟨r, r₁, hfirst⟩ (ih hothers)

/-- Only the body of a record answers with fields, those in its list. -/
theorem fields_of_bodyOf {kind : Kind} {fullname : String} {members : Properties} {r r' : Reader}
    {fields : List FieldDecl}
    (h : Reading.outcome (bodyOf kind fullname members) r = (.ok (.record fields), r')) :
    ∃ values, Keyed.get? "fields" members = some (.arr values) ∧
      Reading.outcome (readFields fullname values) r = (.ok fields, r') := by
  unfold bodyOf at h
  cases kind with
  | enum =>
      dsimp only [enumBody] at h
      split at h
      · exact absurd h Reading.complain_ne_ok
      · obtain ⟨symbols, r₁, _, h⟩ := Reading.of_bind_ok h
        cases h
  | fixed =>
      dsimp only [fixedBody] at h
      split at h
      · exact absurd h Reading.complain_ne_ok
      · cases h
  | record =>
      dsimp only at h
      split at h
      · next values hvalues =>
          obtain ⟨fields', r₁, hfields, h⟩ := Reading.of_bind_ok h
          cases h
          exact ⟨values, hvalues, hfields⟩
      · exact absurd h Reading.complain_ne_ok

end Reader

/-- The fields of a record are those written in its definition, one by one. -/
theorem Declared.Gives.exists_fields {d : Declared} {t : NamedType} (h : d.Gives t)
    (hkind : t.kind = .record) :
    ∃ values, Keyed.get? "fields" d.members = some (.arr values) ∧
      List.Forall₂ (Reader.TakenFor d.fullname) values t.fields := by
  obtain ⟨body, r, r', rfl, _, hbody⟩ := h
  cases body with
  | enum symbols => cases hkind
  | fixed size => cases hkind
  | record fields =>
      obtain ⟨values, hvalues, hfields⟩ := Reader.fields_of_bodyOf hbody
      exact ⟨values, hvalues, Reader.forall₂_of_readFields hfields⟩

theorem Declared.Gives.sorted_props {d : Declared} {t : NamedType} (h : d.Gives t)
    (hd : (Json.obj d.members).Ordered) {f : FieldDecl} (hf : f ∈ t.fields) :
    Keyed.Sorted f.props := by
  obtain ⟨values, hvalues, hfields⟩ := h.exists_fields (NamedType.kind_of_mem_fields hf)
  obtain ⟨k, hk⟩ := List.mem_iff_getElem?.1 hf
  obtain ⟨value, hvalue, _, _, hread⟩ := Answer.getElem?_of_forall₂ hfields.flip hk
  obtain ⟨members, _, rfl, _, _, hprops⟩ := Reader.of_readField hread
  rw [hprops]
  exact ((hd.get? hvalues).item (List.mem_of_getElem? hvalue)).sorted.filter _

/-- What is stored comes of a definition in the sources. -/
theorem Catalog.exists_gives {sources : List (String × String)} {c : Catalog}
    (h : ofSources sources = .ok c) {n : String} {t : NamedType} (ht : c.get? n = some t) :
    ∃ d ∈ (Reader.declarationsOfSources sources).all, d.fullname = n ∧ d.Gives t := by
  have hadds := adds_of_ofSources h
  have hn : n ∈ (Reader.declarationsOfSources sources).names :=
    (hadds.mem_keys.1 (Keyed.mem_keys_of_get? ht)).resolve_left (by simp [Keyed.keys])
  obtain ⟨d, hd, rfl⟩ := List.mem_map.1 (Declarations.mem_names_iff.1 hn)
  obtain ⟨t', ht', hgives⟩ := hadds.stored d hd
  obtain rfl : t' = t := Option.some.inj (ht'.symm.trans ht)
  exact ⟨d, (Declarations.outermost_sublist _).subset hd, rfl, hgives⟩

/-- The attributes of every field in a catalog are in order. -/
theorem Catalog.sorted_props {sources : List (String × String)} {c : Catalog}
    (h : ofSources sources = .ok c) {n : String} {t : NamedType} (ht : c.get? n = some t)
    {f : FieldDecl} (hf : f ∈ t.fields) : Keyed.Sorted f.props := by
  obtain ⟨d, hd, _, hgives⟩ := exists_gives h ht
  exact hgives.sorted_props (Reader.ordered_declarationsOfSources sources d hd) hf

/-! ## The marks of a field -/

theorem Properties.isPrimary_eq (props : Properties) :
    props.isPrimary = (Keyed.get? "primary" props).any Json.isTrue := by
  unfold isPrimary
  split
  · next b h => rw [h]; rfl
  · next h =>
      cases hget : Keyed.get? "primary" props with
      | none => rfl
      | some value =>
          cases value with
          | bool b => exact absurd hget (h b)
          | _ => rfl

namespace Catalog

/-- An attribute of a field: that of the field, else that of its type, else that of the definition
    which the type refers to. -/
def attribute? (c : Catalog) (key : String) (f : FieldDecl) : Option Json :=
  (Keyed.get? key f.props).or ((Keyed.get? key f.schema.marks.props).or
    ((f.schema.reference?.bind c.get?).bind fun t => Keyed.get? key t.props))

/-- A field is a key if its attribute says so. -/
def isKey (c : Catalog) (f : FieldDecl) : Bool :=
  (c.attribute? "primary" f).any Json.isTrue

/-- The attributes of a field mark it plainly: none that is written on the field takes back one on its
    type, and none is left to the definition alone. -/
structure PlainlyMarked (c : Catalog) (f : FieldDecl) : Prop where
  kept : ∀ value, Keyed.get? "primary" f.props = some value → value.isTrue = false →
    f.schema.marks.props.isPrimary = false
  written : Keyed.get? "primary" f.props = none → Keyed.get? "primary" f.schema.marks.props = none →
    ∀ t, f.schema.reference?.bind c.get? = some t → t.props.isPrimary = false

/-- The check looks at the field and at its type one by one; it sees a key where there is one, and
    nowhere else, just when the field is plainly marked. -/
theorem isKey_eq_isPrimary_iff {c : Catalog} {f : FieldDecl} :
    c.isKey f = f.isPrimary ↔ c.PlainlyMarked f := by
  unfold isKey attribute? FieldDecl.isPrimary
  rw [Properties.isPrimary_eq f.props]
  cases hfield : Keyed.get? "primary" f.props with
  | some value =>
      have hplain : c.PlainlyMarked f ↔
          (value.isTrue = false → f.schema.marks.props.isPrimary = false) :=
        ⟨fun h => h.kept value hfield, fun h =>
          ⟨fun _ hv => Option.some.inj (hfield.symm.trans hv) ▸ h,
            fun hnone => by simp [hfield] at hnone⟩⟩
      rw [hplain]
      cases htrue : value.isTrue <;> simp [htrue]
  | none =>
      cases htype : Keyed.get? "primary" f.schema.marks.props with
      | some value =>
          have hplain : c.PlainlyMarked f :=
            ⟨fun _ hv => by simp [hfield] at hv, fun _ hnone => by simp [htype] at hnone⟩
          simp [hplain, Properties.isPrimary_eq, htype]
      | none =>
          have hplain : c.PlainlyMarked f ↔
              ∀ t, f.schema.reference?.bind c.get? = some t → t.props.isPrimary = false :=
            ⟨fun h => h.written hfield htype, fun h =>
              ⟨fun _ hv => by simp [hfield] at hv, fun _ _ => h⟩⟩
          rw [hplain, Properties.isPrimary_eq, htype]
          cases f.schema.reference?.bind c.get? with
          | none => simp
          | some t => simp [Properties.isPrimary_eq]

end Catalog

/-- A type has the attributes of its schema under those of its field, and for a reference those of the
    definition below both. -/
theorem FieldType.props_resolve {c : Catalog} {idOf : String → Option Nat} {extra : Properties}
    {s : Schema} {type : FieldType} (h : resolve c idOf extra s = .ok type) :
    type.props = Keyed.underlay (Keyed.overlay s.marks.props extra)
      (((s.reference?.bind c.get?).map NamedType.props).getD []) := by
  cases s with
  | primitive p marks =>
      rw [resolve] at h
      obtain ⟨plain, _, h⟩ := Answer.of_bind_ok h
      rw [← Except.ok.inj h]
      rfl
  | array items marks =>
      rw [resolve] at h
      obtain ⟨element, _, h⟩ := Answer.of_bind_ok h
      rw [← Except.ok.inj h]
      rfl
  | map values marks =>
      rw [resolve] at h
      rw [← Except.ok.inj h]
      rfl
  | union members marks =>
      rw [resolve] at h
      obtain ⟨types, _, h⟩ := Answer.of_bind_ok h
      rw [← Except.ok.inj h]
      rfl
  | named n marks =>
      rw [resolve, refer] at h
      cases hget : c.get? n with
      | none =>
          rw [hget] at h
          cases h
      | some t =>
          rw [hget] at h
          simp only [Schema.reference?, Option.bind_some, hget, Option.map_some, Option.getD_some]
          dsimp only at h
          split at h
          · rw [← Except.ok.inj h]; rfl
          · cases h
          · rw [← Except.ok.inj h]; rfl
          · rw [← Except.ok.inj h]; rfl

theorem FieldType.get?_props_resolve {c : Catalog} {idOf : String → Option Nat} {f : FieldDecl}
    (hf : Keyed.Sorted f.props) {type : FieldType}
    (h : resolve c idOf f.props f.schema = .ok type) (key : String) :
    Keyed.get? key type.props = c.attribute? key f := by
  rw [props_resolve h, Keyed.get?_underlay, Keyed.get?_overlay hf.nodup, Catalog.attribute?,
    Option.or_assoc]
  cases f.schema.reference?.bind c.get? with
  | none => rfl
  | some t => rfl

theorem FieldType.isPrimary_resolve {c : Catalog} {idOf : String → Option Nat} {f : FieldDecl}
    (hf : Keyed.Sorted f.props) {type : FieldType}
    (h : resolve c idOf f.props f.schema = .ok type) : type.isPrimary = c.isKey f := by
  rw [isPrimary, Properties.isPrimary_eq, get?_props_resolve hf h]
  rfl

/-! ## Exactly one key -/

theorem length_filter_of_forall₂ {α β : Type} {p : α → Bool} {q : β → Bool} {as : List α}
    {bs : List β} (h : List.Forall₂ (fun a b => q b = p a) as bs) :
    (as.filter p).length = (bs.filter q).length := by
  induction h with
  | nil => rfl
  | cons hab _ ih =>
      rw [List.filter_cons, List.filter_cons, hab]
      split <;> simp [ih]

theorem NamedType.checkKey_eq_ok {t : NamedType} :
    t.checkKey = .ok () ↔ t.primaryFields.length = 1 := by
  unfold checkKey
  split <;> simp_all

theorem RecordEntity.exists_primaryKey {r : RecordEntity} :
    (∃ field, r.primaryKey = .ok field) ↔ (r.fields.filter Field.isPrimary).length = 1 := by
  unfold primaryKey
  split
  · next h => simp [h]
  · next h => simp [h]
  · next hone _ =>
      refine ⟨fun ⟨_, h⟩ => (nomatch h), fun h => ?_⟩
      obtain ⟨field, hfield⟩ := List.length_eq_one_iff.1 h
      exact absurd hfield (hone field)

namespace Graph

theorem mem_keyed {g : Graph} {i j : Nat} {t : NamedType} (ht : g.type? i = some t)
    (hkind : t.kind = .record) (hj : j ∈ g.owners i) :
    t ∈ g.keyed ∧ ∀ u, g.type? j = some u → u ∈ g.keyed := by
  obtain ⟨n, hn, rfl⟩ := Option.map_eq_some_iff.1 ht
  have howners : j ∈ n.owners := by simpa [owners, hn] using hj
  have hsome : (n.schema.kind = .record && !n.owners.isEmpty) = true := by
    simp [hkind, List.ne_nil_of_mem howners]
  have hmem : ∀ u, u ∈ n.schema :: n.owners.filterMap g.type? → u ∈ g.keyed := fun u hu =>
    List.mem_flatMap.2 ⟨n, List.mem_of_getElem? hn, by rwa [if_pos hsome]⟩
  exact ⟨hmem _ (by simp), fun u hu =>
    hmem u (List.mem_cons_of_mem _ (List.mem_filterMap.2 ⟨j, howners, hu⟩))⟩

end Graph

/-! ## The keys of a store -/

namespace Store

/-- How the keys of a store compare with those that the graph checks. -/
structure KeysCompare (c : Catalog) (g : Graph) (s : Store) : Prop where
  /-- A record has a primary key just when one of its fields is a key. -/
  one : ∀ id r, s.record? id = some r →
    ((∃ field, r.primaryKey = .ok field) ↔ (r.schema.fields.filter c.isKey).length = 1)
  /-- Of a field, the record and the check say the same just when it is plainly marked. -/
  field : ∀ id r, s.record? id = some r →
    List.Forall₂ (fun f field => field.isPrimary = f.isPrimary ↔ c.PlainlyMarked f)
      r.schema.fields r.fields
  /-- So they say the same of a record whose fields are all plainly marked. -/
  record : ∀ id r, s.record? id = some r → (∀ f ∈ r.schema.fields, c.PlainlyMarked f) →
    (r.schema.checkKey = .ok () ↔ ∃ field, r.primaryKey = .ok field)
  /-- Once the graph is checked, such records have a key if they are owned or own a record. -/
  checked : g.checkKeys = .ok () → ∀ id r, s.record? id = some r →
    (∀ f ∈ r.schema.fields, c.PlainlyMarked f) →
    (r.isDependent = true ∨ ∃ id' r', s.record? id' = some r' ∧ id ∈ r'.owners) →
    ∃ field, r.primaryKey = .ok field

variable {c : Catalog} {g : Graph} {scope : List (Nat × Naming)} {drafts : List Entity} {s : Store}
  {id : Nat} {r : RecordEntity}

namespace ComesOf

theorem isPrimary_fields (hs : s.ComesOf c g scope drafts) (hg : g.Whole c)
    {sources : List (String × String)} (hread : Catalog.ofSources sources = .ok c)
    (hr : s.record? id = some r) :
    List.Forall₂ (fun f field => field.isPrimary = c.isKey f) r.schema.fields r.fields := by
  obtain ⟨p, hp, hschema, _, hfields, _⟩ := hs.exists_placed_of_record? hr
  have htype := type?_placed hp
  rw [Graph.type?_eq] at htype
  have hget := hg.typed p.type (List.mem_of_getElem? htype)
  have hmap := Answer.forall₂_of_mapM hfields
  rw [← hschema]
  rw [List.forall₂_iff_get] at hmap ⊢
  refine ⟨hmap.1, fun k hk hk' => ?_⟩
  obtain ⟨type, hresolve, hfield⟩ := Answer.of_bind_ok (hmap.2 k hk hk')
  rw [← Except.ok.inj hfield]
  exact FieldType.isPrimary_resolve (Catalog.sorted_props hread hget (List.get_mem _ _))
    (Answer.of_mapError_ok hresolve)

/-- An owned record is checked. -/
theorem mem_keyed_of_isDependent (hs : s.ComesOf c g scope drafts) (hr : s.record? id = some r)
    (h : r.isDependent = true) : r.schema ∈ g.keyed := by
  obtain ⟨p, hp, hschema, hkind, _, howners⟩ := hs.exists_placed_of_record? hr
  have hne : r.owners ≠ [] := by simpa [RecordEntity.isDependent] using h
  obtain ⟨id', hid'⟩ := List.exists_mem_of_ne_nil _ hne
  rw [howners] at hid'
  obtain ⟨j, hj, _⟩ := List.mem_filterMap.1 hid'
  exact (Graph.mem_keyed (hschema ▸ type?_placed hp) hkind hj).1

/-- An owner is checked. -/
theorem mem_keyed_of_mem_owners (hs : s.ComesOf c g scope drafts) (hg : g.Whole c)
    (hscope : (scope.map Prod.fst).Nodup) (hr : s.record? id = some r) {id' : Nat}
    {r' : RecordEntity} (hr' : s.record? id' = some r') (h : id ∈ r'.owners) : r.schema ∈ g.keyed := by
  obtain ⟨p, hp, hschema, _⟩ := hs.exists_placed_of_record? hr
  obtain ⟨p', hp', hschema', hkind', _, howners'⟩ := hs.exists_placed_of_record? hr'
  rw [howners'] at h
  obtain ⟨j, hj, hid⟩ := List.mem_filterMap.1 h
  -- the owner `j` is the node that `r` stems from
  obtain ⟨q, hq, hname⟩ := (idAmong_eq_some hg.once hscope).1 hid
  obtain rfl : q = p := Option.some.inj (hq.symm.trans hp)
  obtain ⟨u, hu, _⟩ := hg.kind_of_owner hj
  have hnode : q.node = j :=
    Graph.fullname_inj hg.once (Graph.lt_of_type? (type?_placed hp)) (Graph.lt_of_type? hu) hname
  refine (Graph.mem_keyed (hschema' ▸ type?_placed hp') hkind' hj).2 _ ?_
  rw [← hnode, type?_placed hp, hschema]

theorem keysCompare (hs : s.ComesOf c g scope drafts) (hg : g.Whole c)
    (hscope : (scope.map Prod.fst).Nodup) {sources : List (String × String)}
    (hread : Catalog.ofSources sources = .ok c) : s.KeysCompare c g := by
  have hone : ∀ id r, s.record? id = some r →
      ((∃ field, r.primaryKey = .ok field) ↔ (r.schema.fields.filter c.isKey).length = 1) := by
    intro id r hr
    rw [RecordEntity.exists_primaryKey, length_filter_of_forall₂ (hs.isPrimary_fields hg hread hr)]
  have hrecord : ∀ id r, s.record? id = some r → (∀ f ∈ r.schema.fields, c.PlainlyMarked f) →
      (r.schema.checkKey = .ok () ↔ ∃ field, r.primaryKey = .ok field) := by
    intro id r hr hplain
    rw [hone id r hr, NamedType.checkKey_eq_ok, NamedType.primaryFields]
    rw [List.filter_congr fun f hf => (Catalog.isKey_eq_isPrimary_iff.2 (hplain f hf)).symm]
  refine ⟨hone, fun id r hr => ?_, hrecord, fun hchecked id r hr hplain hrelated => ?_⟩
  · refine (hs.isPrimary_fields hg hread hr).imp fun f field h => ?_
    rw [h]
    exact Catalog.isKey_eq_isPrimary_iff
  · refine (hrecord id r hr hplain).1 (Answer.forall_of_forM hchecked _ ?_)
    rcases hrelated with hdependent | ⟨id', r', hr', howner⟩
    · exact hs.mem_keyed_of_isDependent hr hdependent
    · exact hs.mem_keyed_of_mem_owners hg hscope hr hr' howner

end ComesOf

/-- **Primary keys, checked and seen.** For the graph of every catalog that sources give, a store over
    its scope has primary keys where the check finds them, given that the fields of the record are
    plainly marked. -/
theorem build_keysCompare {sources : List (String × String)}
    (hread : Catalog.ofSources sources = .ok c) (hgraph : Graph.ofCatalog c = .ok g)
    {generator : String} (hscope : scope.map Prod.fst = g.scope)
    (hbuild : build generator g c scope = .ok s) : s.KeysCompare c g := by
  have hc : c.Closed := Catalog.closed_of_ofSources hread
  have hwhole := Graph.whole_ofCatalog hc hgraph
  have hnodup : (scope.map Prod.fst).Nodup := hscope ▸ Graph.nodup_scope hc hgraph
  obtain ⟨drafts, hs⟩ := exists_comesOf hwhole hnodup hbuild
  exact hs.keysCompare hwhole hnodup hread

/-! ## A key that is taken back

A record is held in a list. The type of its only field is marked as a key, and the field takes the mark
back: the check finds a key, and the entity has none. -/

/-- The sources of the record and of its owner. -/
def takenBackSources : List (String × String) :=
  [("item.avsc", "\x7b\"type\":\"record\",\"name\":\"I\",\"fields\":[\x7b\"name\":\"k\","
      ++ "\"primary\":false,\"type\":\x7b\"type\":\"int\",\"primary\":true\x7d\x7d]\x7d"),
    ("box.avsc", "\x7b\"type\":\"record\",\"name\":\"B\",\"fields\":[\x7b\"name\":\"k\","
      ++ "\"primary\":true,\"type\":\"int\"\x7d,\x7b\"name\":\"i\","
      ++ "\"type\":\x7b\"type\":\"array\",\"items\":\"I\"\x7d\x7d]\x7d")]

/-- The record and then its owner. -/
def takenBackScope : List (Nat × Naming) :=
  [(0, ⟨"", "I", "I"⟩), (1, ⟨"", "B", "B"⟩)]

/-- The steps from the sources to a store all succeed, the check as well, and the record of number 0 is
    owned, passes the check and has no key. -/
theorem exists_takenBack : ∃ c g s, Catalog.ofSources takenBackSources = .ok c ∧
    Graph.ofCatalog c = .ok g ∧ takenBackScope.map Prod.fst = g.scope ∧
    build "java" g c takenBackScope = .ok s ∧ g.checkKeys.toOption.isSome = true ∧
    (s.record? 0).any (fun r => r.isDependent && r.schema.checkKey.toOption.isSome &&
      r.primaryKey.toOption.isNone) = true := by
  have hrun : (match Catalog.ofSources takenBackSources with
      | .error _ => false
      | .ok c => match Graph.ofCatalog c with
        | .error _ => false
        | .ok g => match build "java" g c takenBackScope with
          | .error _ => false
          | .ok s => takenBackScope.map Prod.fst == g.scope && g.checkKeys.toOption.isSome &&
              (s.record? 0).any fun r => r.isDependent && r.schema.checkKey.toOption.isSome &&
                r.primaryKey.toOption.isNone) = true := by
    decide +kernel
  split at hrun
  · cases hrun
  split at hrun
  · cases hrun
  split at hrun
  · cases hrun
  · next c hc _ g hg _ s hs =>
      simp only [Bool.and_eq_true, beq_iff_eq] at hrun
      exact ⟨c, g, s, hc, hg, hrun.1.1, hs, hrun.1.2, hrun.2⟩

/-- The check and a record do not always agree. -/
theorem checkKeys_takenBack : ∃ c g s r, Catalog.ofSources takenBackSources = .ok c ∧
    Graph.ofCatalog c = .ok g ∧ takenBackScope.map Prod.fst = g.scope ∧
    build "java" g c takenBackScope = .ok s ∧ g.checkKeys = .ok () ∧
    s.record? 0 = some r ∧ r.isDependent = true ∧ r.schema.checkKey = .ok () ∧
    ∀ field, r.primaryKey ≠ .ok field := by
  obtain ⟨c, g, s, hc, hg, hscope, hs, hchecked, hitem⟩ := exists_takenBack
  obtain ⟨r, hr, hkey⟩ := (Option.any_eq_true _ _).1 hitem
  rw [Bool.and_eq_true, Bool.and_eq_true] at hkey
  refine ⟨c, g, s, r, hc, hg, hscope, hs, Answer.eq_ok_getD () hchecked, hr, hkey.1.1,
    Answer.eq_ok_getD () hkey.1.2, fun field h => ?_⟩
  rw [h] at hkey
  exact absurd hkey.2 (by simp [Except.toOption])

theorem build_keysCompare_takenBack : ∃ c g s, Catalog.ofSources takenBackSources = .ok c ∧
    Graph.ofCatalog c = .ok g ∧ takenBackScope.map Prod.fst = g.scope ∧
    build "java" g c takenBackScope = .ok s ∧ s.KeysCompare c g := by
  obtain ⟨c, g, s, hc, hg, hscope, hs, _⟩ := exists_takenBack
  exact ⟨c, g, s, hc, hg, hscope, hs, build_keysCompare hc hg hscope hs⟩

end Store

end AvroCodegen
