import AvroCodegen.Entity.Build
import AvroCodegen.Proofs.SchemaReading
import AvroCodegen.Proofs.StoreWiring
import AvroCodegen.Proofs.Unfolding

set_option autoImplicit false

/-! # Forms of one expansion

Templates take the bracketed form of an expansion apart by its entries alone: an entry of record type
opens a span and one of closing type ends it. That works because no field of a store that was built has
a closing type (`Store.unclosed_of_build`). So the types tell what each entry is, and the other two
forms can be read off the bracketed one. -/

namespace AvroCodegen

/-! ## What an entry shows -/

/-- The type whose span a type closes. -/
def FieldType.opened? : FieldType → Option FieldType
  | .close opened => some opened
  | _ => none

namespace Field

/-- Whether an entry opens the span of a record. -/
def opens (f : Field) : Bool :=
  f.type.record?.isSome

/-- Whether an entry closes the span of a record. -/
def closes (f : Field) : Bool :=
  f.type.opened?.isSome

end Field

namespace Store

/-! ## Types of a store -/

/-- No field of a record has a closing type. -/
def Unclosed (s : Store) : Prop :=
  ∀ id, ∀ f ∈ s.fieldsAt id, f.closes = false

variable {c : Catalog} {g : Graph} {scope : List (Nat × Naming)} {generator : String} {s : Store}

theorem opened?_refer {idOf : String → Option Nat} {n : String} {props : Properties}
    {t : FieldType} (h : FieldType.refer c idOf n props = .ok t) : t.opened? = none := by
  unfold FieldType.refer at h
  split at h
  · cases h
  · dsimp only at h
    split at h
    · rw [← Except.ok.inj h]; rfl
    · cases h
    · rw [← Except.ok.inj h]; rfl
    · rw [← Except.ok.inj h]; rfl

/-- No schema describes a closing type. -/
theorem opened?_resolve {idOf : String → Option Nat} {extra : Properties} {schema : Schema}
    {t : FieldType} (h : FieldType.resolve c idOf extra schema = .ok t) : t.opened? = none := by
  cases schema with
  | primitive p marks =>
      rw [FieldType.resolve] at h
      obtain ⟨type, _, h⟩ := Answer.of_bind_ok h
      rw [← Except.ok.inj h]; rfl
  | array items marks =>
      rw [FieldType.resolve] at h
      obtain ⟨element, _, h⟩ := Answer.of_bind_ok h
      rw [← Except.ok.inj h]; rfl
  | map values marks =>
      rw [FieldType.resolve] at h
      rw [← Except.ok.inj h]; rfl
  | union members marks =>
      rw [FieldType.resolve] at h
      obtain ⟨types, _, h⟩ := Answer.of_bind_ok h
      rw [← Except.ok.inj h]; rfl
  | named n marks =>
      rw [FieldType.resolve] at h
      exact opened?_refer h

theorem fieldsOf_of_draft {idOf : String → Option Nat} {p : Placed} {r : RecordEntity}
    (h : draft c g idOf p = .ok (.record r)) : fieldsOf c idOf p.type = .ok r.fields := by
  unfold draft at h
  split at h
  · obtain ⟨_, _, h⟩ := Answer.of_bind_ok h
    cases h
  · obtain ⟨fields, hfields, h⟩ := Answer.of_bind_ok h
    rw [← Entity.record.inj (Except.ok.inj h)]
    exact hfields

/-- The fields of a record in a store are those of a definition, with their types resolved. -/
theorem fieldsOf_of_build (hs : build generator g c scope = .ok s) {id : Nat} {r : RecordEntity}
    (hr : s.record? id = some r) :
    ∃ p : Placed, fieldsOf c (idAmong (placed g scope)) p.type = .ok r.fields := by
  obtain ⟨p, r₀, _, hdraft, hbare⟩ := exists_draft_of_build hs hr
  have hfields : r₀.fields = r.fields := by
    show (bare r₀).fields = (bare r).fields
    rw [hbare]
  exact ⟨p, hfields ▸ fieldsOf_of_draft hdraft⟩

/-- The type of a field in a store was resolved from a schema. -/
theorem exists_resolve_of_build (hs : build generator g c scope = .ok s) {id : Nat} {f : Field}
    (hf : f ∈ s.fieldsAt id) : ∃ extra schema,
      FieldType.resolve c (idAmong (placed g scope)) extra schema = .ok f.type := by
  obtain ⟨r, hr, hf⟩ := mem_fieldsAt.1 hf
  obtain ⟨p, hp⟩ := fieldsOf_of_build hs hr
  obtain ⟨i, hi⟩ := List.mem_iff_getElem?.1 hf
  obtain ⟨decl, _, hdecl⟩ := Answer.getElem?_of_forall₂ (Answer.forall₂_of_mapM hp).flip hi
  obtain ⟨type, htype, hfield⟩ := Answer.of_bind_ok hdecl
  rw [← Except.ok.inj hfield]
  exact ⟨_, _, Answer.of_mapError_ok htype⟩

theorem unclosed_of_build (hs : build generator g c scope = .ok s) : s.Unclosed := by
  intro id f hf
  obtain ⟨extra, schema, htype⟩ := exists_resolve_of_build hs hf
  simp [Field.closes, opened?_resolve htype]

/-! ## Read off the bracketed form -/

variable {shown : Shown} {joiner before : String} {id : Nat} {fs : List Field} {ts : List Trail}

/-- In a store without closing types an entry tells by its type what it is. -/
theorem Unfolds.entry_kind (h : s.Unfolds (s.fieldsAt id) ts) (hs : s.Unclosed) {t : Trail}
    (ht : t ∈ ts) : (t.entry joiner before).opens = decide (t.mark = .opening) ∧
      (t.entry joiner before).closes = decide (t.mark = .closing) := by
  have hleaf : t.mark = .leaf ↔ t.field.type.record? = none := h.mark t ht
  have hunclosed : t.field.closes = false :=
    (h.leads t ht).forall_mem (hs id) hs t.field (by simp [Trail.fields])
  obtain ⟨around, f, mark⟩ := t
  cases mark with
  | leaf =>
      have hnone : f.type.record? = none := hleaf.1 rfl
      exact ⟨by simp [Field.opens, Trail.entry, Trail.type, hnone], hunclosed⟩
  | opening =>
      have hsome : f.type.record? ≠ none := fun hnone => by cases hleaf.2 hnone
      exact ⟨Option.isSome_iff_ne_none.2 hsome, hunclosed⟩
  | closing => exact ⟨rfl, rfl⟩

/-- What a form shows is what of the bracketed form is of its kinds, if a test tells the kinds. -/
theorem entries_eq_filter {test : Field → Bool}
    (htest : ∀ t ∈ ts, test (t.entry joiner before) = shown.shows t.mark) :
    Trail.entries shown joiner before ts =
      (Trail.entries .bracketed joiner before ts).filter test := by
  have hall : ts.filter (fun t => Shown.bracketed.shows t.mark) = ts :=
    List.filter_eq_self.2 fun _ _ => rfl
  rw [Trail.entries, Trail.entries, hall, List.filter_map]
  exact congrArg _ (List.filter_congr fun t ht => (htest t ht).symm)

/-- **The forms are views of one expansion.** In every store that was built, the three expansions of a
    record under a joiner fail together, with one fault, or succeed together. Then the leaves are the
    bracketed form without the entries that open or close a record, and the record fields are those
    that open one. -/
theorem expand_forms (hs : build generator g c scope = .ok s) (joiner : String) (id : Nat) :
    (∃ e, ∀ shown, s.expand shown joiner id = .error e) ∨
    ∃ out, s.expand .bracketed joiner id = .ok out ∧
      s.expand .leaves joiner id = .ok (out.filter fun f => !f.opens && !f.closes) ∧
      s.expand .records joiner id = .ok (out.filter Field.opens) := by
  cases s.comesOut_expand id with
  | breaks _ herror => exact Or.inl ⟨_, fun shown => herror 0 shown joiner ""⟩
  | @unfolds ts hts hok =>
      have hanswer : ∀ shown, s.expand shown joiner id = .ok (Trail.entries shown joiner "" ts) :=
        fun shown => hok 0 shown joiner ""
      have hkind : ∀ t ∈ ts, (t.entry joiner "").opens = decide (t.mark = .opening) ∧
          (t.entry joiner "").closes = decide (t.mark = .closing) :=
        fun t ht => hts.entry_kind (unclosed_of_build hs) ht
      refine Or.inr ⟨_, hanswer .bracketed, ?_, ?_⟩
      · rw [hanswer, entries_eq_filter fun t ht => ?_]
        rw [(hkind t ht).1, (hkind t ht).2]
        cases t.mark <;> rfl
      · rw [hanswer, entries_eq_filter fun t ht => ?_]
        rw [(hkind t ht).1]
        rfl

/-! ## A parcel

The sender and the recipient of a parcel have each an address, and each address a city. -/

/-- The calls that read the parcel. -/
def parcelCalls : List Reader.Call :=
  [ .node (Reader.recordNode "x.Parcel"
      [ ("id", .str "string"),
        ("from", Reader.recordNode "Address"
          [ ("street", .str "string"),
            ("city", Reader.recordNode "City" [("name", .str "string")]) ]),
        ("to", .str "Address"),
        ("seals", Reader.arrayNode (.str "City")) ]),
    .source "parcel" "[\"x.Parcel\"]" ]

/-- What comes of reading the parcel. -/
def parcelCatalog : Catalog :=
  (Reader.after parcelCalls).finish.toOption.getD ⟨[], []⟩

/-- The graph of the parcel. -/
def parcelGraph : Graph :=
  (Graph.ofCatalog parcelCatalog).toOption.getD Graph.empty

/-- The nodes of the parcel: city, address and parcel. -/
def parcelScope : List (Nat × Naming) :=
  [ (2, ⟨"x", "City", "x.City"⟩), (1, ⟨"x", "Address", "x.Address"⟩),
    (0, ⟨"x", "Parcel", "x.Parcel"⟩) ]

/-- The store of the parcel. -/
def parcelStore : Store :=
  (build "sql" parcelGraph parcelCatalog parcelScope).toOption.getD (Store.empty "sql")

theorem build_parcel : build "sql" parcelGraph parcelCatalog parcelScope = .ok parcelStore :=
  Answer.eq_ok_getD (Store.empty "sql") (by decide +kernel)

theorem expand_forms_parcel :
    build "sql" parcelGraph parcelCatalog parcelScope = .ok parcelStore ∧
    ∃ out, parcelStore.expand .bracketed "_" 2 = .ok out ∧
      out.map Field.name =
        ["id", "from", "from_street", "from_city", "from_city_name", "from_city", "from",
          "to", "to_street", "to_city", "to_city_name", "to_city", "to", "seals"] ∧
      parcelStore.expand .leaves "_" 2 = .ok (out.filter fun f => !f.opens && !f.closes) ∧
      parcelStore.expand .records "_" 2 = .ok (out.filter Field.opens) := by
  have hnames : (parcelStore.expand .bracketed "_" 2).toOption.map (·.map Field.name) = some
      ["id", "from", "from_street", "from_city", "from_city_name", "from_city", "from",
        "to", "to_street", "to_city", "to_city_name", "to_city", "to", "seals"] := by
    decide +kernel
  rcases expand_forms build_parcel "_" 2 with ⟨e, herror⟩ | ⟨out, hout, hleaves, hrecords⟩
  · rw [herror .bracketed] at hnames
    cases hnames
  · rw [hout] at hnames
    exact ⟨build_parcel, out, hout, Option.some.inj hnames, hleaves, hrecords⟩

end Store

end AvroCodegen
