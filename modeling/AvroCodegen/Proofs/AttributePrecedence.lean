import AvroCodegen.Proofs.PrimaryKeys

set_option autoImplicit false

/-! # Which attributes win

The type of a field may be written as objects one inside the other, each the `type` of the one
around it. Reading works from the inside out, and each object lays its attributes over those that it
finds (`marks_of_readNode`); an object that defines a type keeps its own for the definition. Then
resolution lays the attributes of the field over all of them, and below them those of the definition
that the type refers to.

So of each attribute the outermost value counts, that of the definition last. The logical type comes
from the outermost object as well, but never from the field: there `logicalType` is an attribute like
any other, which nothing reads. -/

namespace AvroCodegen

namespace Reader

/-! ## The layers of a written type -/

/-- The objects whose attributes a written type has, the outermost first: those around the innermost
    type, and its own object unless that defines a type. -/
def layers (value : Json) : List Properties :=
  match value with
  | .obj members =>
    match _ht : Keyed.get? "type" members with
    | none => []
    | some (.str word) =>
      match Word.of word with
      | .definition _ => []
      | _ => [members]
    | some nested => members :: layers nested
  | _ => []
termination_by sizeOf value
decreasing_by
  have := Keyed.sizeOf_get?_lt _ht
  simp only [Json.obj.sizeOf_spec]
  omega

/-- An attribute without a meaning, from the outermost object that has it. -/
def attributeIn (key : String) (objects : List Properties) : Option Json :=
  objects.findSome? fun members => Keyed.get? key (extras typeAttributes members)

/-- The logical type, from the outermost object that has one. -/
def logicalTypeIn (objects : List Properties) : Option String :=
  objects.findSome? (text? "logicalType")

variable {members : Properties} {word : String}

theorem layers_typed (h : Keyed.get? "type" members = some (.str word)) :
    layers (.obj members) = match Word.of word with
      | .definition _ => []
      | _ => [members] := by
  rw [layers]
  split
  · simp_all
  · next word' h' =>
      obtain rfl : word' = word := by simpa [h] using h'.symm
      rfl
  · simp_all

theorem layers_wrapper {nested : Json} (h : Keyed.get? "type" members = some nested)
    (hn : ∀ word, nested ≠ .str word) : layers (.obj members) = members :: layers nested := by
  rw [layers]
  split
  · simp_all
  · next word h' => exact absurd (by simpa [h] using h') (hn word)
  · next nested' _ h' =>
      obtain rfl : nested' = nested := by simpa [h] using h'.symm
      rfl

@[simp] theorem attributeIn_nil (key : String) : attributeIn key [] = none := rfl

@[simp] theorem attributeIn_cons (key : String) (members : Properties) (rest : List Properties) :
    attributeIn key (members :: rest) =
      (Keyed.get? key (extras typeAttributes members)).or (attributeIn key rest) := by
  rw [attributeIn, List.findSome?_cons]
  cases Keyed.get? key (extras typeAttributes members) <;> rfl

@[simp] theorem logicalTypeIn_nil : logicalTypeIn [] = none := rfl

@[simp] theorem logicalTypeIn_cons (members : Properties) (rest : List Properties) :
    logicalTypeIn (members :: rest) = (text? "logicalType" members).or (logicalTypeIn rest) := by
  rw [logicalTypeIn, List.findSome?_cons]
  cases text? "logicalType" members <;> rfl

/-! ## What reading leaves on a node -/

/-- A node has the attributes and the logical type of some objects, the outermost first. -/
structure HasMarks (s : Schema) (objects : List Properties) : Prop where
  logicalType : s.marks.logicalType = logicalTypeIn objects
  attributes : ∀ key, Keyed.get? key s.marks.props = attributeIn key objects

theorem hasMarks_nil {s : Schema} (h : s.marks = .none) : HasMarks s [] :=
  ⟨by rw [h]; rfl, fun key => by rw [h]; rfl⟩

theorem hasMarks_one {s : Schema} (h : s.marks = annotations members) : HasMarks s [members] :=
  ⟨by rw [h]; simp [annotations], fun key => by rw [h]; simp [annotations]⟩

/-- An object around a type lays its attributes over those within. -/
theorem HasMarks.annotate {s : Schema} {objects : List Properties} (hs : HasMarks s objects)
    (h : Keyed.Sorted members) : HasMarks (annotate members s) (members :: objects) := by
  have hnodup := (h.filter (fun m => !typeAttributes.contains m.1)).nodup
  refine ⟨?_, fun key => ?_⟩
  · rw [Reader.annotate, Schema.marks_withMarks, logicalTypeIn_cons, ← hs.logicalType]
    cases text? "logicalType" members <;> rfl
  · rw [Reader.annotate, Schema.marks_withMarks, attributeIn_cons, ← hs.attributes]
    exact Keyed.get?_overlay hnodup

theorem marks_of_wordNode {marks : Annotations} {r r' : Reader} {s : Schema}
    (h : Reading.outcome (wordNode word marks) r = (.ok s, r')) : s.marks = marks := by
  unfold wordNode at h
  cases hp : Primitive.ofWord? word with
  | some p =>
      rw [hp] at h
      cases h
      rfl
  | none =>
      rw [hp] at h
      obtain ⟨n, r₁, _, h⟩ := Reading.of_bind_ok h
      cases h
      rfl

theorem marks_of_closeType {fullname : String} {body : NamedBody} {r r' : Reader} {s : Schema}
    (h : Reading.outcome (closeType fullname members body) r = (.ok s, r')) : s.marks = .none := by
  have hs : Except.ok (Schema.named fullname .none) = Except.ok s := congrArg Prod.fst h
  rw [← Except.ok.inj hs]
  rfl

/-- **Reading keeps the layers.** A type that is read has the attributes and the logical type of the
    objects in which it is written. -/
theorem marks_of_readNode (value : Json) : ∀ {r r' : Reader} {s : Schema}, value.Ordered →
    Reading.outcome (readNode value) r = (.ok s, r') → HasMarks s (layers value) := by
  induction value using layers.induct with
  | case1 members ht =>
      intro r r' s _ h
      rw [readNode_untyped ht] at h
      exact absurd h Reading.complain_ne_ok
  | case2 members word ht kind hw =>
      intro r r' s _ h
      rw [readNode_typed ht, hw] at h
      obtain ⟨fullname, r₁, _, h⟩ := Reading.of_bind_ok h
      obtain ⟨body, r₂, _, h⟩ := Reading.of_bind_ok h
      simp only [layers_typed ht, hw]
      exact hasMarks_nil (marks_of_closeType h)
  | case3 members word ht hw =>
      intro r r' s _ h
      rw [readNode_typed ht] at h
      rw [layers_typed ht]
      cases hword : Word.of word with
      | definition kind => exact absurd hword (hw kind)
      | array =>
          simp only [hword] at h
          split at h
          · exact absurd h Reading.complain_ne_ok
          · obtain ⟨items, r₁, _, h⟩ := Reading.of_bind_ok h
            cases h
            exact hasMarks_one rfl
      | map =>
          simp only [hword] at h
          split at h
          · exact absurd h Reading.complain_ne_ok
          · obtain ⟨values, r₁, _, h⟩ := Reading.of_bind_ok h
            cases h
            exact hasMarks_one rfl
      | other =>
          simp only [hword] at h
          exact hasMarks_one (marks_of_wordNode h)
  | case4 members nested hn ht ih =>
      intro r r' s hvalue h
      rw [readNode_wrapper ht hn] at h
      obtain ⟨inner, r₁, hinner, h⟩ := Reading.of_bind_ok h
      cases h
      rw [layers_wrapper ht hn]
      exact (ih (hvalue.get? ht) hinner).annotate hvalue.sorted
  | case5 value hobj =>
      intro r r' s _ h
      have hlayers : layers value = [] := by
        rw [layers]
        exact hobj
      rw [hlayers]
      cases value with
      | str word =>
          rw [readNode] at h
          exact hasMarks_nil (marks_of_wordNode h)
      | arr members =>
          rw [readNode] at h
          obtain ⟨nodes, r₁, _, h⟩ := Reading.of_bind_ok h
          cases h
          exact hasMarks_nil rfl
      | obj members => exact absurd rfl (hobj members)
      | _ =>
          rw [readNode] at h
          · exact absurd h Reading.complain_ne_ok
          all_goals simp

end Reader

/-! ## What resolution does not read -/

namespace FieldType

/-- A type without its attributes; what it holds keeps its own. -/
def bare : FieldType → FieldType
  | .plain p _ => .plain p []
  | .array element _ => .array element []
  | .union members _ => .union members []
  | .close opened => .close opened

variable {c : Catalog} {idOf : String → Option Nat} {props props' : Properties}

/-- Attributes are the same but for `logicalType`. -/
def SameButLogical (props props' : Properties) : Prop :=
  ∀ key, key ≠ "logicalType" → Keyed.get? key props = Keyed.get? key props'

theorem SameButLogical.overlay {base : Properties} (h : SameButLogical props props')
    (hp : Keyed.Sorted props) (hp' : Keyed.Sorted props') :
    SameButLogical (Keyed.overlay base props) (Keyed.overlay base props') := by
  intro key hkey
  rw [Keyed.get?_overlay hp.nodup, Keyed.get?_overlay hp'.nodup, h key hkey]

/-- Refining looks at the logical type of the node, and not at an attribute of that name. -/
theorem refine_congr (h : SameButLogical props props') (p : Primitive) (logical : Option String) :
    refine p logical props = refine p logical props' := by
  have hdecimal : decimal props = decimal props' := by
    rw [decimal, decimal, h "precision" (by decide), h "scale" (by decide)]
  have hdatetime : datetime props = datetime props' := by
    rw [datetime, datetime, h "datetime-format" (by decide)]
  cases p <;> simp only [refine, hdecimal, hdatetime]

theorem refer_congr {n : String} {type : FieldType} (h : refer c idOf n props = .ok type) :
    ∃ type', refer c idOf n props' = .ok type' ∧ type'.bare = type.bare := by
  unfold refer at h ⊢
  cases hget : c.get? n with
  | none =>
      rw [hget] at h
      cases h
  | some t =>
      simp only [hget] at h ⊢
      split at h
      · next hbody => exact ⟨_, rfl, by rw [← Except.ok.inj h]; rfl⟩
      · cases h
      · exact ⟨_, rfl, by rw [← Except.ok.inj h]; rfl⟩
      · exact ⟨_, rfl, by rw [← Except.ok.inj h]; rfl⟩

/-- A `logicalType` on the field has no part in the type. -/
theorem resolve_congr (h : SameButLogical props props') (hp : Keyed.Sorted props)
    (hp' : Keyed.Sorted props') {s : Schema} {type : FieldType}
    (hs : resolve c idOf props s = .ok type) :
    ∃ type', resolve c idOf props' s = .ok type' ∧ type'.bare = type.bare := by
  cases s with
  | primitive p marks =>
      rw [resolve] at hs ⊢
      obtain ⟨plain, hplain, hs⟩ := Answer.of_bind_ok hs
      rw [refine_congr (h.overlay hp hp')] at hplain
      rw [hplain]
      exact ⟨_, rfl, by rw [← Except.ok.inj hs]; rfl⟩
  | array items marks =>
      rw [resolve] at hs ⊢
      obtain ⟨element, helement, hs⟩ := Answer.of_bind_ok hs
      rw [helement]
      exact ⟨_, rfl, by rw [← Except.ok.inj hs]; rfl⟩
  | map values marks =>
      rw [resolve] at hs ⊢
      exact ⟨_, rfl, by rw [← Except.ok.inj hs]; rfl⟩
  | union members marks =>
      rw [resolve] at hs ⊢
      obtain ⟨types, htypes, hs⟩ := Answer.of_bind_ok hs
      rw [htypes]
      exact ⟨_, rfl, by rw [← Except.ok.inj hs]; rfl⟩
  | named n marks =>
      rw [resolve] at hs ⊢
      exact refer_congr hs

end FieldType

/-! ## Results -/

/-- Where the type of a field has its attributes and its logical type from, given the members of the
    written field and the type written there. -/
structure FieldType.TakenFrom (c : Catalog) (idOf : String → Option Nat) (members : Properties)
    (written : Json) (f : FieldDecl) (type : FieldType) : Prop where
  /-- The field comes first, then the objects of its type, then the definition it refers to. -/
  attributes : ∀ key, Keyed.get? key type.props =
    (Keyed.get? key (Reader.extras Reader.fieldAttributes members)).or
      ((Reader.attributeIn key (Reader.layers written)).or
        ((f.schema.reference?.bind c.get?).bind fun t => Keyed.get? key t.props))
  /-- A primitive is refined by the logical type of the objects. -/
  refined : ∀ p marks, f.schema = .primitive p marks → ∃ plain,
    refine p (Reader.logicalTypeIn (Reader.layers written)) type.props = .ok plain ∧
      type = .plain plain type.props
  /-- Whatever the field says of `logicalType`, the type is the same but for its attributes. -/
  unread : ∀ props, Keyed.Sorted props → SameButLogical f.props props →
    ∃ type', resolve c idOf props f.schema = .ok type' ∧ type'.bare = type.bare

/-- A written field that is taken for a declared one decides what its type has. -/
theorem FieldType.takenFrom_of_readField {c : Catalog} {record : String} {value : Json}
    {f : FieldDecl} (hvalue : value.Ordered) (h : Reader.TakenFor record value f) :
    ∃ members written, value = .obj members ∧ Keyed.get? "type" members = some written ∧
      ∀ idOf type, resolve c idOf f.props f.schema = .ok type →
        TakenFrom c idOf members written f type := by
  obtain ⟨r, r', h⟩ := h
  obtain ⟨members, written, rfl, hwritten, hschema, hprops⟩ := Reader.of_readField h
  have hmarks := Reader.marks_of_readNode written (hvalue.get? hwritten) hschema
  have hsorted : Keyed.Sorted f.props := hprops ▸ hvalue.sorted.filter _
  refine ⟨members, written, rfl, hwritten, fun idOf type htype => ⟨fun key => ?_, ?_, ?_⟩⟩
  · rw [get?_props_resolve hsorted htype, Catalog.attribute?, hprops, hmarks.attributes]
  · intro p marks hs
    have hlogical := hmarks.logicalType
    rw [hs] at htype hlogical
    rw [resolve] at htype
    obtain ⟨plain, hplain, htype⟩ := Answer.of_bind_ok htype
    rw [← Except.ok.inj htype, ← hlogical]
    exact ⟨plain, hplain, rfl⟩
  · exact fun props hp hsame => resolve_congr hsame hsorted hp htype

/-- **The outermost attribute wins.** Of every list of sources that is accepted, and every record that
    is defined in them at any depth: whichever declaration comes of a field, the type which it is
    resolved to has each attribute from the field, else from the outermost object of its written type
    that has it, else from the definition it refers to; and its logical type is that of the outermost
    object, never that of the field. The fields of the records in the catalog are such
    declarations. -/
theorem Catalog.ofSources_attributes {sources : List (String × String)} {c : Catalog}
    (h : ofSources sources = .ok c) :
    (∀ d ∈ (Reader.declarationsOfSources sources).all, ∀ values,
      Keyed.get? "fields" d.members = some (.arr values) → ∀ value ∈ values, ∀ f,
        Reader.TakenFor d.fullname value f →
        ∃ members written, value = .obj members ∧ Keyed.get? "type" members = some written ∧
          ∀ idOf type, FieldType.resolve c idOf f.props f.schema = .ok type →
            FieldType.TakenFrom c idOf members written f type) ∧
    (∀ n t, c.get? n = some t → t.kind = .record →
      ∃ d ∈ (Reader.declarationsOfSources sources).all, d.fullname = n ∧ ∃ values,
        Keyed.get? "fields" d.members = some (.arr values) ∧
          List.Forall₂ (Reader.TakenFor n) values t.fields) := by
  refine ⟨fun d hd values hvalues value hvalue f hf => ?_, fun n t ht hkind => ?_⟩
  · have hordered := Reader.ordered_declarationsOfSources sources d hd
    exact FieldType.takenFrom_of_readField ((hordered.get? hvalues).item hvalue) hf
  · obtain ⟨d, hd, rfl, hgives⟩ := exists_gives h ht
    exact ⟨d, hd, rfl, hgives.exists_fields hkind⟩

/-! ## Overlapping layers

A date with attributes on its field, around it and on itself, some of them the same, and a fixed type
that is defined inside an object. -/

def layeredSources : List (String × String) :=
  [("day.avsc", "\x7b\"type\":\"record\",\"name\":\"R\",\"fields\":[\x7b\"name\":\"f\",\"k\":1,"
      ++ "\"logicalType\":\"time-millis\",\"type\":\x7b\"k\":2,\"m\":3,\"logicalType\":\"date\","
      ++ "\"type\":\x7b\"type\":\"int\",\"m\":4,\"n\":5\x7d\x7d\x7d]\x7d"),
    ("side.avsc", "\x7b\"type\":\"record\",\"name\":\"S\",\"fields\":[\x7b\"name\":\"g\","
      ++ "\"type\":\x7b\"m\":1,"
      ++ "\"type\":\x7b\"type\":\"fixed\",\"name\":\"E\",\"size\":1,\"k\":8,\"m\":9\x7d\x7d\x7d]\x7d")]

/-- The names of the types of the fields, each with the numbers among some of its attributes. -/
def Catalog.shownTypes (c : Catalog) (t : NamedType) : List (String × List (Option Nat)) :=
  t.fields.map fun f =>
    match FieldType.resolve c (fun _ => none) f.props f.schema with
    | .ok type =>
      (type.name, ["k", "m", "n"].map fun key => (Keyed.get? key type.props).bind Json.nat?)
    | .error _ => ("", [])

/-- What is shown of the types of the two records. -/
theorem exists_layered : ∃ c r s, Catalog.ofSources layeredSources = .ok c ∧
    c.get? "R" = some r ∧ r.kind = .record ∧
    c.shownTypes r = [("date", [some 1, some 3, some 5])] ∧
    c.get? "S" = some s ∧ s.kind = .record ∧
    c.shownTypes s = [("fixed", [some 8, some 1, none])] := by
  have hrun : ((Catalog.ofSources layeredSources).toOption.any fun c =>
      (c.get? "R").any fun r => (c.get? "S").any fun s =>
        r.kind == .record && s.kind == .record &&
          c.shownTypes r == [("date", [some 1, some 3, some 5])] &&
          c.shownTypes s == [("fixed", [some 8, some 1, none])]) = true := by
    decide +kernel
  obtain ⟨c, hc, hrun⟩ := (Option.any_eq_true _ _).1 hrun
  obtain ⟨r, hr, hrun⟩ := (Option.any_eq_true _ _).1 hrun
  obtain ⟨s, hs, hrun⟩ := (Option.any_eq_true _ _).1 hrun
  simp only [Bool.and_eq_true, beq_iff_eq] at hrun
  exact ⟨c, r, s, Answer.eq_ok_of_toOption hc, hr, hrun.1.1.1, hrun.1.2, hs, hrun.1.1.2, hrun.2⟩

theorem ofSources_attributes_layered : ∃ c r s, Catalog.ofSources layeredSources = .ok c ∧
    c.get? "R" = some r ∧ c.shownTypes r = [("date", [some 1, some 3, some 5])] ∧
    c.get? "S" = some s ∧ c.shownTypes s = [("fixed", [some 8, some 1, none])] ∧
    ∀ f ∈ r.fields ++ s.fields, ∃ members written, Keyed.get? "type" members = some written ∧
      ∀ idOf type, FieldType.resolve c idOf f.props f.schema = .ok type →
        FieldType.TakenFrom c idOf members written f type := by
  obtain ⟨c, r, s, hread, hr, hrkind, hrtypes, hs, hskind, hstypes⟩ := exists_layered
  obtain ⟨hwritten, hstored⟩ := Catalog.ofSources_attributes hread
  have hfields : ∀ n t, c.get? n = some t → t.kind = .record → ∀ f ∈ t.fields,
      ∃ members written, Keyed.get? "type" members = some written ∧
        ∀ idOf type, FieldType.resolve c idOf f.props f.schema = .ok type →
          FieldType.TakenFrom c idOf members written f type := by
    intro n t ht hkind f hf
    obtain ⟨d, hd, rfl, values, hvalues, htaken⟩ := hstored n t ht hkind
    obtain ⟨k, hk⟩ := List.mem_iff_getElem?.1 hf
    obtain ⟨value, hvalue, htakenFor⟩ := Answer.getElem?_of_forall₂ htaken.flip hk
    obtain ⟨members, written, _, htype, hfrom⟩ :=
      hwritten d hd values hvalues value (List.mem_of_getElem? hvalue) f htakenFor
    exact ⟨members, written, htype, hfrom⟩
  refine ⟨c, r, s, hread, hr, hrtypes, hs, hstypes, fun f hf => ?_⟩
  rcases List.mem_append.1 hf with hf | hf
  · exact hfields "R" r hr hrkind f hf
  · exact hfields "S" s hs hskind f hf

end AvroCodegen
