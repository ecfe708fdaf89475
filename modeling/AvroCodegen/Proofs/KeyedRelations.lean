import AvroCodegen.Proofs.Ownership
import AvroCodegen.Proofs.PrimaryKeys

set_option autoImplicit false

/-! # The keys of records that hold each other

A record that holds others in an array finds them by their keys, and has to be found by its own. The
check goes over the owners that the nodes collected while the graph grew, in whatever order fields
were taken and however the records lead back to each other; what it means can be said of the fields
alone: `Graph.checkKeys_iff` finds a fault just where one record holds another, at any depth of
arrays, and one of the two does not mark exactly one field. -/

namespace AvroCodegen

/-! ## The rule -/

/-- The attributes of a field, or those on its type, say that it is a key. -/
def FieldDecl.Marked (f : FieldDecl) : Prop :=
  Keyed.get? "primary" f.props = some (.bool true) ∨
    Keyed.get? "primary" f.schema.marks.props = some (.bool true)

/-- One field is marked and no other is. -/
def NamedType.OneKey (t : NamedType) : Prop :=
  ∃ before key after, t.fields = before ++ key :: after ∧ key.Marked ∧
    ∀ f ∈ before ++ after, ¬ f.Marked

namespace Graph

/-- Some field of a type in the graph is an array, and the name of its innermost items is that of a
    record. The holder is one as well, since it has a field. -/
structure HoldsRecord (c : Catalog) (g : Graph) (owner item : NamedType) : Prop where
  mem : owner ∈ g.types
  held : ∃ f ∈ owner.fields, ∃ n,
    f.schema.element?.bind Schema.reference? = some n ∧ c.get? n = some item
  kind : item.kind = .record

/-- A type holds a record or is a record that is held. -/
def InRelation (c : Catalog) (g : Graph) (t : NamedType) : Prop :=
  ∃ u, HoldsRecord c g t u ∨ HoldsRecord c g u t

end Graph

/-! ## The marks of one record -/

theorem Json.isTrue_iff {value : Json} : value.isTrue = true ↔ value = .bool true := by
  cases value with
  | bool b => simp [isTrue]
  | _ => simp [isTrue]

theorem Properties.isPrimary_iff {props : Properties} :
    props.isPrimary = true ↔ Keyed.get? "primary" props = some (.bool true) := by
  simp [isPrimary_eq, Option.any_eq_true_iff_get, Json.isTrue_iff, Option.eq_some_iff_get_eq]

theorem FieldDecl.isPrimary_iff {f : FieldDecl} : f.isPrimary = true ↔ f.Marked := by
  rw [isPrimary, Bool.or_eq_true, Properties.isPrimary_iff, Properties.isPrimary_iff]
  rfl

theorem NamedType.length_primaryFields_iff {t : NamedType} :
    t.primaryFields.length = 1 ↔ t.OneKey := by
  simp only [List.length_eq_one_iff, primaryFields, List.filter_eq_cons_iff, List.filter_eq_nil_iff,
    FieldDecl.isPrimary_iff, OneKey, List.forall_mem_append]
  constructor
  · rintro ⟨key, before, after, hfields, hbefore, hkey, hafter⟩
    exact ⟨before, key, after, hfields, hkey, hbefore, hafter⟩
  · rintro ⟨before, key, after, hfields, hkey, hbefore, hafter⟩
    exact ⟨key, before, after, hfields, hbefore, hkey, hafter⟩

/-- The check of one record refuses it by its fullname. -/
theorem NamedType.checkKey_eq_error {t : NamedType} {fault : Fault}
    (h : t.checkKey = .error fault) :
    ¬ t.OneKey ∧ ∃ problem, fault = .relation t.fullname problem := by
  refine ⟨fun hone => ?_, ?_⟩
  · rw [checkKey_eq_ok.2 (length_primaryFields_iff.2 hone)] at h
    cases h
  · unfold checkKey at h
    split at h
    · exact ⟨_, (Except.error.inj h).symm⟩
    · cases h
    · exact ⟨_, (Except.error.inj h).symm⟩

namespace Graph

variable {c : Catalog} {g : Graph} {owner item t : NamedType}

/-! ## What is checked -/

theorem mem_types_iff : t ∈ g.types ↔ ∃ i, g.type? i = some t := by
  simp only [type?_eq]
  exact List.mem_iff_getElem?

/-- What a type holds by name is what its arrays refer to, as far as it is a record or enum. -/
theorem holds_iff {n : String} : c.Holds t n ↔
    (∃ f ∈ t.fields, f.schema.element?.bind Schema.reference? = some n) ∧ (c.entity? n).isSome := by
  have hschema : ∀ s : Schema, (s.element?.isSome ∧ c.target? s = some n) ↔
      (s.element?.bind Schema.reference? = some n ∧ (c.entity? n).isSome) := by
    intro s
    cases s with
    | array items m =>
        simp [Schema.element?, Catalog.target?, Schema.core, Option.filter_eq_some_iff]
    | _ => simp [Schema.element?]
  unfold Catalog.Holds
  simp only [hschema]
  constructor
  · rintro ⟨f, hf, href, hn⟩
    exact ⟨⟨f, hf, href⟩, hn⟩
  · rintro ⟨⟨f, hf, href⟩, hn⟩
    exact ⟨f, hf, href, hn⟩

/-- Records hold each other just where the node of one is an owner of that of the other. -/
theorem Whole.holdsRecord_iff (hg : g.Whole c) (hc : c.Closed) : HoldsRecord c g owner item ↔
    item.kind = .record ∧
      ∃ i j, g.type? i = some owner ∧ g.type? j = some item ∧ i ∈ g.owners j := by
  constructor
  · intro h
    obtain ⟨f, hf, n, href, hget⟩ := h.held
    obtain ⟨i, hi⟩ := mem_types_iff.1 h.mem
    have hentity : c.entity? n = some item :=
      Catalog.entity?_eq_some.2 ⟨hget, by rw [h.kind]; simp⟩
    have hholds : c.Holds owner n := holds_iff.2 ⟨⟨f, hf, href⟩, by rw [hentity]; rfl⟩
    -- what is held is linked to, so it has a node
    obtain ⟨j, hj, rfl⟩ := exists_of_mem_names
      ((hg.complete i (lt_of_type? hi) owner hi).mem_names hg.toSound
        ((c.mem_links_items hc).2 hholds))
    obtain ⟨u, hu, hmem⟩ := exists_type? hj
    have htyped := hg.typed u hmem
    rw [← fullname_of_type? hu, hget, Option.some.injEq] at htyped
    exact ⟨h.kind, i, j, hi, htyped ▸ hu, (hg.mem_owners_iff hc hi hj).2 hholds⟩
  · rintro ⟨hkind, i, j, hi, hj, hmem⟩
    have hholds := (hg.mem_owners_iff hc hi (lt_of_type? hj)).1 hmem
    rw [fullname_of_type? hj] at hholds
    obtain ⟨⟨f, hf, href⟩, _⟩ := holds_iff.1 hholds
    exact ⟨mem_types_iff.2 ⟨i, hi⟩,
      ⟨f, hf, _, href, hg.typed item (mem_types_iff.2 ⟨j, hj⟩)⟩, hkind⟩

/-- The records that are checked are those that hold a record and those that are held. -/
theorem Whole.mem_keyed_iff (hg : g.Whole c) (hc : c.Closed) : t ∈ g.keyed ↔ InRelation c g t := by
  constructor
  · intro h
    obtain ⟨n, hn, ht⟩ := List.mem_flatMap.1 h
    obtain ⟨j, hj⟩ := List.mem_iff_getElem?.1 hn
    have hitem : g.type? j = some n.schema := by rw [type?, hj]; rfl
    have howners : g.owners j = n.owners := by rw [owners, hj]; rfl
    split at ht
    · next hrelated =>
        rw [Bool.and_eq_true, decide_eq_true_eq, Bool.not_eq_true', List.isEmpty_eq_false_iff]
          at hrelated
        obtain ⟨hkind, howned⟩ := hrelated
        rcases List.mem_cons.1 ht with rfl | ht
        · -- the record itself, held by the first of its owners
          obtain ⟨i, hi⟩ := List.exists_mem_of_ne_nil _ howned
          rw [← howners] at hi
          obtain ⟨u, hu, _⟩ := hg.kind_of_owner hi
          exact ⟨u, Or.inr ((hg.holdsRecord_iff hc).2 ⟨hkind, i, j, hu, hitem, hi⟩)⟩
        · -- one of its owners
          obtain ⟨i, hi, ht⟩ := List.mem_filterMap.1 ht
          rw [← howners] at hi
          exact ⟨n.schema, Or.inl ((hg.holdsRecord_iff hc).2 ⟨hkind, i, j, ht, hitem, hi⟩)⟩
    · cases ht
  · rintro ⟨u, h | h⟩
    · obtain ⟨hkind, i, j, hi, hj, hmem⟩ := (hg.holdsRecord_iff hc).1 h
      exact (mem_keyed hj hkind hmem).2 t hi
    · obtain ⟨hkind, i, j, hi, hj, hmem⟩ := (hg.holdsRecord_iff hc).1 h
      exact (mem_keyed hj hkind hmem).1

/-- **What the check of keys finds.** Whatever was read and in whatever order its names were added,
    the check of a graph succeeds just where each record that holds another marks one field, and so
    does the other; otherwise it names one of them that does not. Nothing else counts. -/
theorem checkKeys_iff (calls : List Reader.Call) {c : Catalog}
    (h : (Reader.after calls).finish = .ok c) {g : Graph} (hg : g.Built c) :
    (g.checkKeys = .ok () ↔
      ∀ owner item, HoldsRecord c g owner item → owner.OneKey ∧ item.OneKey) ∧
    (¬ (∀ owner item, HoldsRecord c g owner item → owner.OneKey ∧ item.OneKey) →
      ∃ t problem, g.checkKeys = .error (.relation t.fullname problem) ∧ InRelation c g t ∧
        ¬ t.OneKey) := by
  have hc := (Reader.sound_after calls).closed_of_finish h
  have hwhole := hg.whole hc
  have hok : g.checkKeys = .ok () ↔
      ∀ owner item, HoldsRecord c g owner item → owner.OneKey ∧ item.OneKey := by
    constructor
    · intro hchecked owner item hholds
      have hone : ∀ t, InRelation c g t → t.OneKey := fun t ht =>
        NamedType.length_primaryFields_iff.1 (NamedType.checkKey_eq_ok.1
          (Answer.forall_of_forM hchecked t ((hwhole.mem_keyed_iff hc).2 ht)))
      exact ⟨hone owner ⟨item, Or.inl hholds⟩, hone item ⟨owner, Or.inr hholds⟩⟩
    · intro hone
      refine Answer.forM_of_forall fun t ht => ?_
      rw [NamedType.checkKey_eq_ok, NamedType.length_primaryFields_iff]
      obtain ⟨u, hholds | hholds⟩ := (hwhole.mem_keyed_iff hc).1 ht
      · exact (hone t u hholds).1
      · exact (hone u t hholds).2
  refine ⟨hok, fun hnot => ?_⟩
  cases hcheck : g.checkKeys with
  | ok _ => exact absurd (hok.1 hcheck) hnot
  | error fault =>
      obtain ⟨t, ht, hfault⟩ := Answer.exists_of_forM_error hcheck
      obtain ⟨hmiss, problem, rfl⟩ := NamedType.checkKey_eq_error hfault
      exact ⟨t, problem, rfl, (hwhole.mem_keyed_iff hc).1 ht, hmiss⟩

/-! ## A forest

A tree holds its branches, which are trees, and its rings, rows of them; no ring has a key. The
trunk is held as a plain field and the colours are an enum, so neither counts. -/

/-- The calls that read the trees. -/
def forestCalls : List Reader.Call :=
  [ .node (Reader.recordNode "x.Tree"
      [ ("id", .obj [("primary", .bool true), ("type", .str "long")]),
        ("branches", Reader.arrayNode (.str "Tree")),
        ("colours", Reader.arrayNode (.str "Colour")),
        ("rings", Reader.arrayNode (Reader.arrayNode (.str "Ring"))),
        ("trunk", .str "Trunk") ]),
    .node (Reader.recordNode "x.Ring" [("year", .str "int")]),
    .node (Reader.recordNode "x.Trunk" [("height", .str "int")]),
    .node (Reader.enumNode "x.Colour" "GREEN"),
    .source "forest" "[\"x.Tree\"]" ]

/-- What comes of reading them. -/
def forestCatalog : Catalog :=
  (Reader.after forestCalls).finish.toOption.getD ⟨[], []⟩

def forestGraph : Graph :=
  (ofCatalog forestCatalog).toOption.getD empty

theorem finish_forest : (Reader.after forestCalls).finish = .ok forestCatalog :=
  Answer.eq_ok_getD _ (by decide +kernel)

theorem ofCatalog_forest : ofCatalog forestCatalog = .ok forestGraph :=
  Answer.eq_ok_getD _ (by decide +kernel)

theorem checkKeys_forest : (Reader.after forestCalls).finish = .ok forestCatalog ∧
    forestGraph.Built forestCatalog ∧
    (¬ ∀ owner item, HoldsRecord forestCatalog forestGraph owner item →
      owner.OneKey ∧ item.OneKey) ∧
    ∃ t problem, forestGraph.checkKeys = .error (.relation t.fullname problem) ∧
      InRelation forestCatalog forestGraph t ∧ ¬ t.OneKey := by
  have hbuilt : forestGraph.Built forestCatalog := built_ofCatalog ofCatalog_forest
  have hfails : forestGraph.checkKeys.toOption = none := by decide +kernel
  obtain ⟨hok, herror⟩ := checkKeys_iff forestCalls finish_forest hbuilt
  have hmiss : ¬ ∀ owner item, HoldsRecord forestCatalog forestGraph owner item →
      owner.OneKey ∧ item.OneKey := by
    intro hall
    rw [hok.2 hall] at hfails
    cases hfails
  exact ⟨finish_forest, hbuilt, hmiss, herror hmiss⟩

end Graph

end AvroCodegen
