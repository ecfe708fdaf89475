import AvroCodegen.Proofs.PrimaryKeys
import AvroCodegen.Proofs.SourceOrder
import Mathlib.Data.Prod.Basic

set_option autoImplicit false

/-! # The scope of a namespace

A reader keeps one namespace, which it changes as it goes into a definition and sets back as it
comes out. What this amounts to can be said of the text alone: the fullname of a definition follows
from what is written in it and from the definitions around it, the nearest first (`Fullname`). What
stands beside it, or beside one of those, has no say.

`readSource_scopes` puts the two together: whatever was read before, a source that is accepted
registers each definition that is `Written` in it under the one fullname that the rule gives. -/

namespace AvroCodegen

/-! ## Definitions in a forest -/

namespace Declarations

/-- A definition stands inside others of a forest, the nearest first. -/
inductive Stands : Declarations → Declared → List Declared → Prop
  | here {d : Declared} {inner next : Declarations} : Stands (.one d inner next) d []
  | inner {d e : Declared} {inner next : Declarations} {around : List Declared} :
      Stands inner e around → Stands (.one d inner next) e (around ++ [d])
  | next {d e : Declared} {inner next : Declarations} {around : List Declared} :
      Stands next e around → Stands (.one d inner next) e around

variable {v w : Declarations} {e f : Declared} {around before behind : List Declared}
  {m m' : Keyed NamedType}

theorem not_stands_none : ¬ Declarations.none.Stands e around := by
  intro h
  cases h

theorem stands_append_iff :
    (v.append w).Stands e around ↔ v.Stands e around ∨ w.Stands e around := by
  induction v with
  | none => simp [append, not_stands_none]
  | one d inner next _ ih =>
      constructor
      · intro h
        cases h with
        | here => exact Or.inl .here
        | inner h => exact Or.inl (.inner h)
        | next h => exact (ih.1 h).imp_left .next
      · rintro (h | h)
        · cases h with
          | here => exact .here
          | inner h => exact .inner h
          | next h => exact .next (ih.2 (Or.inl h))
        · exact .next (ih.2 (Or.inr h))

theorem Stands.mem_all (h : v.Stands e around) : e ∈ v.all := by
  induction h with
  | here => exact List.mem_cons_self
  | inner _ ih => exact List.mem_cons_of_mem _ (List.mem_append_left _ ih)
  | next _ ih => exact List.mem_cons_of_mem _ (List.mem_append_right _ ih)

theorem exists_stands (h : e ∈ v.all) : ∃ around, v.Stands e around := by
  induction v with
  | none => cases h
  | one d inner next ihinner ihnext =>
      rcases List.mem_cons.1 h with rfl | h
      · exact ⟨[], .here⟩
      · rcases List.mem_append.1 h with h | h
        · obtain ⟨around, h⟩ := ihinner h
          exact ⟨_, .inner h⟩
        · obtain ⟨around, h⟩ := ihnext h
          exact ⟨around, .next h⟩

/-- A definition around another stands inside the rest of those around it. -/
theorem Stands.outer (h : v.Stands e (before ++ f :: behind)) : v.Stands f behind := by
  generalize haround : before ++ f :: behind = around at h
  induction h generalizing before behind with
  | here => simp at haround
  | @inner d e inner next around _ ih =>
      -- the outermost of those around is `d`: it is the other itself, or the last of the rest
      rcases List.eq_nil_or_concat behind with rfl | ⟨behind', d', rfl⟩
      · obtain ⟨_, rfl⟩ := (List.append_singleton_inj).1 haround
        exact .here
      · have hsplit : (before ++ f :: behind') ++ [d'] = around ++ [d] := by simpa using haround
        obtain ⟨hrest, rfl⟩ := (List.append_singleton_inj).1 hsplit
        rw [List.concat_eq_append]
        exact .inner (ih hrest)
  | next _ ih => exact .next (ih haround)

theorem Stands.mem_outermost (h : v.Stands e around) (hne : ∀ f ∈ around, f.fullname ≠ e.fullname) :
    e ∈ v.outermost := by
  induction h with
  | here => exact List.mem_cons_self
  | @inner d e inner next around _ ih =>
      have hd : d.fullname ≠ e.fullname := hne d (by simp)
      have hinner : e ∈ inner.outermost := ih fun f hf => hne f (by simp [hf])
      refine List.mem_cons_of_mem _ (List.mem_append_left _ (List.mem_filter.2 ⟨hinner, ?_⟩))
      simpa using Ne.symm hd
  | next _ ih => exact List.mem_cons_of_mem _ (List.mem_append_right _ (ih hne))

end Declarations

namespace Reader

/-! ## The rule -/

/-- The words that announce a definition. -/
def definingWords : List String := ["record", "error", "enum", "fixed"]

/-- A definition is written in a schema, inside others of the schema, the nearest first. -/
inductive Written : Json → Properties → List Properties → Prop
  | here {members : Properties} {word : String} :
      Keyed.get? "type" members = some (.str word) → word ∈ definingWords →
      Written (.obj members) members []
  | member {schemas : List Json} {schema : Json} {d : Properties} {around : List Properties} :
      schema ∈ schemas → Written schema d around → Written (.arr schemas) d around
  | items {members : Properties} {schema : Json} {d : Properties} {around : List Properties} :
      Keyed.get? "type" members = some (.str "array") →
      Keyed.get? "items" members = some schema →
      Written schema d around → Written (.obj members) d around
  | values {members : Properties} {schema : Json} {d : Properties} {around : List Properties} :
      Keyed.get? "type" members = some (.str "map") →
      Keyed.get? "values" members = some schema →
      Written schema d around → Written (.obj members) d around
  | wrapped {members : Properties} {schema : Json} {d : Properties} {around : List Properties} :
      Keyed.get? "type" members = some schema → (∀ word, schema ≠ .str word) →
      Written schema d around → Written (.obj members) d around
  | field {members field : Properties} {word : String} {fields : List Json} {schema : Json}
      {d : Properties} {around : List Properties} :
      Keyed.get? "type" members = some (.str word) → word = "record" ∨ word = "error" →
      Keyed.get? "fields" members = some (.arr fields) → .obj field ∈ fields →
      Keyed.get? "type" field = some schema →
      Written schema d around → Written (.obj members) d (around ++ [members])

mutual

/-- The fullname of a definition that is written inside others, the nearest first. -/
inductive Fullname : Properties → List Properties → String → Prop
  | dotted {d : Properties} {around : List Properties} {name : String} :
      text? "name" d = some name → '.' ∈ name.toList → Fullname d around name
  | given {d : Properties} {around : List Properties} {name space : String} :
      text? "name" d = some name → '.' ∉ name.toList → text? "namespace" d = some space →
      space ≠ "" → Fullname d around (space ++ "." ++ name)
  | cleared {d : Properties} {around : List Properties} {name : String} :
      text? "name" d = some name → '.' ∉ name.toList → text? "namespace" d = some "" →
      Fullname d around name
  | inherited {d : Properties} {around : List Properties} {name space : String} :
      text? "name" d = some name → '.' ∉ name.toList → text? "namespace" d = none →
      Inside around (some space) → space ≠ "" → Fullname d around (space ++ "." ++ name)
  | bare {d : Properties} {around : List Properties} {name : String} {space : Option String} :
      text? "name" d = some name → '.' ∉ name.toList → text? "namespace" d = none →
      Inside around space → space = none ∨ space = some "" → Fullname d around name

/-- The namespace inside some definitions, the nearest first: what stands before the last point of
    the fullname of the nearest. -/
inductive Inside : List Properties → Option String → Prop
  | outside : Inside [] none
  | whole {d : Properties} {around : List Properties} {fullname : String} :
      Fullname d around fullname → '.' ∉ fullname.toList → Inside (d :: around) none
  | cut {d : Properties} {around : List Properties} {space name : String} :
      Fullname d around (space ++ "." ++ name) → '.' ∉ name.toList →
      Inside (d :: around) (some space)

end

/-! ## The rule and the namespace of a reader -/

theorem mem_definingWords_iff {word : String} :
    word ∈ definingWords ↔ ∃ kind, Word.of word = .definition kind := by
  constructor
  · intro h
    simp only [definingWords, List.mem_cons, List.not_mem_nil, or_false] at h
    rcases h with rfl | rfl | rfl | rfl <;> exact ⟨_, rfl⟩
  · rintro ⟨kind, h⟩
    unfold Word.of at h
    split_ifs at h <;> simp_all [definingWords]

theorem of_eq_record_iff {word : String} :
    Word.of word = .definition .record ↔ word = "record" ∨ word = "error" := by
  unfold Word.of
  split_ifs <;> simp_all

theorem of_eq_array_iff {word : String} : Word.of word = .array ↔ word = "array" := by
  unfold Word.of
  split_ifs <;> simp_all

theorem of_eq_map_iff {word : String} : Word.of word = .map ↔ word = "map" := by
  unfold Word.of
  split_ifs <;> simp_all

theorem splitFullname_append {space name : String} (h : '.' ∉ name.toList) :
    splitFullname (space ++ "." ++ name) = (some space, name) := by
  have hkept : ∀ c ∈ name.toList.reverse, (c != '.') = true := by
    intro c hc
    have hne : c ≠ '.' := fun heq => h (heq ▸ List.mem_reverse.1 hc)
    simpa using hne
  have hreverse : (space ++ "." ++ name).toList.reverse =
      name.toList.reverse ++ '.' :: space.toList.reverse := by simp
  unfold splitFullname
  dsimp only
  rw [hreverse, List.dropWhile_append_of_pos hkept, List.takeWhile_append_of_pos hkept]
  simp

/-- Inside some definitions, a namespace holds and no other. -/
def Governs (around : List Properties) (space : Option String) : Prop :=
  ∀ s, Inside around s ↔ s = space

variable {d : Properties} {around outer : List Properties} {space : Option String}

theorem governs_nil : Governs [] none := by
  intro s
  constructor
  · intro h
    cases h
    rfl
  · rintro rfl
    exact .outside

/-- Completing a name by the namespace around it follows the rule. -/
theorem fullname_iff {name n : String} (hspace : Governs around space)
    (hname : text? "name" d = some name) :
    Fullname d around n ↔ n = qualify space (text? "namespace" d) name := by
  have hsame : ∀ {name'}, text? "name" d = some name' → name' = name :=
    fun h => Option.some.inj (h.symm.trans hname)
  constructor
  · intro h
    cases h with
    | dotted hname' hdot =>
        obtain rfl := hsame hname'
        rw [qualify_of_dot hdot]
    | given hname' hdot hgiven hne =>
        obtain rfl := hsame hname'
        simp [qualify, inSpace, hdot, hgiven, hne]
    | cleared hname' hdot hgiven =>
        obtain rfl := hsame hname'
        simp [qualify, inSpace, hdot, hgiven]
    | inherited hname' hdot hnone hinside hne =>
        obtain rfl := hsame hname'
        obtain rfl := (hspace _).1 hinside
        simp [qualify, inSpace, hdot, hnone, hne]
    | bare hname' hdot hnone hinside hempty =>
        obtain rfl := hsame hname'
        obtain rfl := (hspace _).1 hinside
        rcases hempty with rfl | rfl <;> simp [qualify, inSpace, hdot, hnone]
  · rintro rfl
    by_cases hdot : '.' ∈ name.toList
    · rw [qualify_of_dot hdot]
      exact .dotted hname hdot
    have hinside : Inside around space := (hspace space).2 rfl
    cases hgiven : text? "namespace" d with
    | some given =>
        by_cases hne : given = ""
        · subst hne
          simpa [qualify, inSpace, hdot] using Fullname.cleared hname hdot hgiven
        · simpa [qualify, inSpace, hdot, hne] using Fullname.given hname hdot hgiven hne
    | none =>
        cases space with
        | none => simpa [qualify, inSpace, hdot] using
            Fullname.bare hname hdot hgiven hinside (Or.inl rfl)
        | some s =>
            by_cases hne : s = ""
            · subst hne
              simpa [qualify, inSpace, hdot] using
                Fullname.bare hname hdot hgiven hinside (Or.inr rfl)
            · simpa [qualify, inSpace, hdot, hne] using
                Fullname.inherited hname hdot hgiven hinside hne

/-- Cutting a fullname gives the namespace inside its definition. -/
theorem governs_cons {fullname : String} (h : ∀ n, Fullname d around n ↔ n = fullname) :
    Governs (d :: around) (splitFullname fullname).1 := by
  intro s
  constructor
  · intro hs
    cases hs with
    | whole hfull hdot =>
        rw [(h _).1 hfull] at hdot
        rcases splitFullname_cases fullname with ⟨_, hcut⟩ | ⟨space, name, _, rfl, _⟩
        · rw [hcut]
        · simp at hdot
    | cut hfull hdot => rw [← (h _).1 hfull, splitFullname_append hdot]
  · rintro rfl
    have hfull : Fullname d around fullname := (h fullname).2 rfl
    rcases splitFullname_cases fullname with ⟨hdot, hcut⟩ | ⟨space, name, hcut, rfl, hdot⟩
    · rw [hcut]
      exact .whole hfull hdot
    · rw [hcut]
      exact .cut hfull hdot

/-! ## What stands in a forest is written -/

/-- The word of a definition tells its kind, and the rule gives its fullname and no other. -/
structure Obeys (e : Declared) (around : List Properties) : Prop where
  kind : ∃ word, Keyed.get? "type" e.members = some (.str word) ∧ Word.of word = .definition e.kind
  fullname : ∀ n, Fullname e.members around n ↔ n = e.fullname

/-- What stands in a forest is written in some place, and obeys the rule inside what is around
    it. -/
def Reflects (v : Declarations) (place : Properties → List Properties → Prop)
    (outer : List Properties) : Prop :=
  ∀ e es, v.Stands e es →
    place e.members (es.map Declared.members) ∧ Obeys e (es.map Declared.members ++ outer)

variable {v w : Declarations} {place place' : Properties → List Properties → Prop}

theorem reflects_none (place : Properties → List Properties → Prop) (outer : List Properties) :
    Reflects .none place outer :=
  fun _ _ h => absurd h Declarations.not_stands_none

theorem Reflects.append (hv : Reflects v place outer) (hw : Reflects w place outer) :
    Reflects (v.append w) place outer :=
  fun e es h => (Declarations.stands_append_iff.1 h).elim (hv e es) (hw e es)

theorem Reflects.mono (h : Reflects v place outer)
    (hplace : ∀ d around, place d around → place' d around) : Reflects v place' outer :=
  fun e es hstands => ⟨hplace _ _ (h e es hstands).1, (h e es hstands).2⟩

/-- A definition is written in a field. -/
def WrittenInField (value : Json) (d : Properties) (around : List Properties) : Prop :=
  ∃ field schema, value = .obj field ∧ Keyed.get? "type" field = some schema ∧
    Written schema d around

theorem reflects_definition {members : Properties} {word name : String} {kind : Kind}
    (htype : Keyed.get? "type" members = some (.str word)) (hword : Word.of word = .definition kind)
    (hname : text? "name" members = some name) (hspace : Governs outer space)
    (hbody : ∀ fields, Keyed.get? "fields" members = some (.arr fields) → ∀ outer',
      Governs outer' (splitFullname (qualify space (text? "namespace" members) name)).1 →
      Reflects (declarationsOfFields
          (splitFullname (qualify space (text? "namespace" members) name)).1 fields)
        (fun d around => ∃ value ∈ fields, WrittenInField value d around) outer') :
    Reflects (declarations space (.obj members)) (Written (.obj members)) outer := by
  intro e es hstands
  simp only [declarations_typed htype, hword, hname] at hstands
  have hfull := fun n => fullname_iff (n := n) hspace hname
  cases hstands with
  | here =>
      exact ⟨.here htype (mem_definingWords_iff.2 ⟨kind, hword⟩), ⟨word, htype, hword⟩, hfull⟩
  | @inner _ _ _ _ around hinner =>
      -- inside, the definition is the nearest, and its own namespace governs
      cases kind with
      | enum => exact absurd hinner Declarations.not_stands_none
      | fixed => exact absurd hinner Declarations.not_stands_none
      | record =>
          simp only [declarationsOfBody] at hinner
          split at hinner
          · next fields hfields =>
              obtain ⟨⟨_, hfield, field, schema, rfl, hschema, hwritten⟩, hobeys⟩ :=
                hbody fields hfields (members :: outer) (governs_cons hfull) e around hinner
              rw [List.map_append]
              refine ⟨.field htype (of_eq_record_iff.1 hword) hfields hfield hschema hwritten, ?_⟩
              simpa using hobeys
          · exact absurd hinner Declarations.not_stands_none
  | next hnext => exact absurd hnext Declarations.not_stands_none

/-- The namespace that is passed down governs the definitions around, at every depth. -/
theorem reflects_declarations :
    (∀ space value outer, Governs outer space →
      Reflects (declarations space value) (Written value) outer) ∧
    (∀ space values outer, Governs outer space → Reflects (declarationsOfFields space values)
      (fun d around => ∃ value ∈ values, WrittenInField value d around) outer) ∧
    (∀ space value outer, Governs outer space →
      Reflects (declarationsOfField space value) (WrittenInField value) outer) ∧
    (∀ space values outer, Governs outer space → Reflects (declarationsOfAll space values)
      (fun d around => ∃ value ∈ values, Written value d around) outer) := by
  refine declarations.mutual_induct
    (fun space value => ∀ outer, Governs outer space →
      Reflects (declarations space value) (Written value) outer)
    (fun space values => ∀ outer, Governs outer space → Reflects (declarationsOfFields space values)
      (fun d around => ∃ value ∈ values, WrittenInField value d around) outer)
    (fun space value => ∀ outer, Governs outer space →
      Reflects (declarationsOfField space value) (WrittenInField value) outer)
    (fun space values => ∀ outer, Governs outer space → Reflects (declarationsOfAll space values)
      (fun d around => ∃ value ∈ values, Written value d around) outer)
    ?union ?untyped ?unnamed ?definition ?arrayOpen ?array ?mapOpen ?map ?reference ?wrapper ?other
    ?noFields ?fields ?fieldUntyped ?field ?fieldOther ?noNodes ?nodes
  case union =>
    intro space members ih outer hspace
    rw [declarations]
    refine (ih outer hspace).mono ?_
    rintro d around ⟨schema, hmem, h⟩
    exact .member hmem h
  case definition =>
    intro space members word ht kind hw name hn fullname ih outer hspace
    exact reflects_definition ht hw hn hspace fun fields hfields => ih fields hfields
  case array =>
    intro space members word ht hw schema hi ih outer hspace
    obtain rfl := of_eq_array_iff.1 hw
    simp only [declarations_typed ht, hw, hi]
    exact (ih outer hspace).mono fun d around h => .items ht hi h
  case map =>
    intro space members word ht hw schema hv ih outer hspace
    obtain rfl := of_eq_map_iff.1 hw
    simp only [declarations_typed ht, hw, hv]
    exact (ih outer hspace).mono fun d around h => .values ht hv h
  case wrapper =>
    intro space members schema hn ht ih outer hspace
    rw [declarations_wrapper ht hn]
    exact (ih outer hspace).mono fun d around h => .wrapped ht hn h
  case fields =>
    intro space value rest ih ihs outer hspace
    rw [declarationsOfFields]
    refine ((ih outer hspace).mono fun d around h => ⟨value, by simp, h⟩).append
      ((ihs outer hspace).mono ?_)
    rintro d around ⟨v, hv, h⟩
    exact ⟨v, by simp [hv], h⟩
  case field =>
    intro space field schema ht ih outer hspace
    rw [declarationsOfField_obj ht]
    exact (ih outer hspace).mono fun d around h => ⟨field, schema, rfl, ht, h⟩
  case nodes =>
    intro space value rest ih ihs outer hspace
    rw [declarationsOfAll]
    refine ((ih outer hspace).mono fun d around h => ⟨value, by simp, h⟩).append
      ((ihs outer hspace).mono ?_)
    rintro d around ⟨v, hv, h⟩
    exact ⟨v, by simp [hv], h⟩
  -- in all other places there is no definition
  case untyped =>
    intro space members ht outer _
    rw [declarations_untyped ht]
    exact reflects_none _ outer
  case unnamed =>
    intro space members word ht kind hw hn outer _
    simpa only [declarations_typed ht, hw, hn] using reflects_none _ outer
  case arrayOpen =>
    intro space members word ht hw hi outer _
    simp only [declarations_typed ht, hw, hi]
    exact reflects_none _ outer
  case mapOpen =>
    intro space members word ht hw hv outer _
    simp only [declarations_typed ht, hw, hv]
    exact reflects_none _ outer
  case reference =>
    intro space members word ht hw outer _
    simpa only [declarations_typed ht, hw] using reflects_none _ outer
  case other =>
    intro space value harr hobj outer _
    rw [declarations_other harr hobj]
    exact reflects_none _ outer
  case noFields =>
    intro space outer _
    simpa only [declarationsOfFields] using reflects_none _ outer
  case fieldUntyped =>
    intro space members ht outer _
    rw [declarationsOfField_untyped ht]
    exact reflects_none _ outer
  case fieldOther =>
    intro space value hobj outer _
    rw [declarationsOfField_other hobj]
    exact reflects_none _ outer
  case noNodes =>
    intro space outer _
    simpa only [declarationsOfAll] using reflects_none _ outer

/-! ## What is written stands in a forest -/

/-- Some reader takes a schema. -/
def Takes (value : Json) : Prop :=
  ∃ r node r', Reading.outcome (readNode value) r = (.ok node, r')

theorem takes_of_readNodes {values : List Json} :
    ∀ {r r' : Reader} {nodes : List Schema},
      Reading.outcome (readNodes values) r = (.ok nodes, r') → ∀ value ∈ values, Takes value := by
  induction values with
  | nil => simp
  | cons value rest ih =>
      intro r r' nodes h
      rw [readNodes] at h
      obtain ⟨node, r₁, hnode, h⟩ := Reading.of_bind_ok h
      obtain ⟨others, r₂, hothers, _⟩ := Reading.of_bind_ok h
      exact List.forall_mem_cons.2 ⟨⟨r, node, r₁, hnode⟩, ih hothers⟩

theorem takes_of_readDeclared {values : List Json} :
    ∀ {r r' : Reader} {names : List String},
      Reading.outcome (readDeclared values) r = (.ok names, r') →
      ∀ value ∈ values, Takes value := by
  induction values with
  | nil => simp
  | cons value rest ih =>
      intro r r' names h
      rw [readDeclared] at h
      obtain ⟨node, r₁, hnode, h⟩ := Reading.of_bind_ok h
      cases href : node.reference? with
      | none =>
          rw [href] at h
          exact absurd h Reading.complain_ne_ok
      | some fullname =>
          rw [href] at h
          obtain ⟨others, r₂, hothers, _⟩ := Reading.of_bind_ok h
          exact List.forall_mem_cons.2 ⟨⟨r, node, r₁, hnode⟩, ih hothers⟩

theorem takes_of_readFields {record : String} {values : List Json} {field : Properties}
    {schema : Json} {r r' : Reader} {fields : List FieldDecl}
    (h : Reading.outcome (readFields record values) r = (.ok fields, r'))
    (hfield : .obj field ∈ values) (hschema : Keyed.get? "type" field = some schema) :
    Takes schema := by
  obtain ⟨k, hk⟩ := List.mem_iff_getElem?.1 hfield
  obtain ⟨f, _, r₁, r₂, hread⟩ := Answer.getElem?_of_forall₂ (forall₂_of_readFields h) hk
  obtain ⟨members, type, heq, htype, hnode, _⟩ := of_readField hread
  obtain rfl := Json.obj.inj heq
  obtain rfl := Option.some.inj (htype.symm.trans hschema)
  exact ⟨r₁, f.schema, r₂, hnode⟩

/-- A definition that some reader takes has a name, and its body is taken inside it. -/
theorem Takes.of_definition {members : Properties} {word : String} {kind : Kind}
    (htype : Keyed.get? "type" members = some (.str word)) (hword : Word.of word = .definition kind)
    (h : Takes (.obj members)) : ∃ name fullname body r r', text? "name" members = some name ∧
      Reading.outcome (bodyOf kind fullname members) r = (.ok body, r') := by
  obtain ⟨r, node, r', h⟩ := h
  rw [readNode_typed htype, hword] at h
  obtain ⟨fullname, r₁, hopen, h⟩ := Reading.of_bind_ok h
  obtain ⟨_, _, name, hname, _⟩ := openType_ok hopen
  obtain ⟨body, r₂, hwithin, _⟩ := Reading.of_bind_ok h
  obtain ⟨r₃, hbody, _⟩ := Reading.of_within_ok hwithin
  exact ⟨name, fullname, body, _, r₃, hname, hbody⟩

theorem stands_declarationsOfAll {value : Json} {values : List Json} (hvalue : value ∈ values)
    {e : Declared} {es : List Declared} (h : (declarations space value).Stands e es) :
    (declarationsOfAll space values).Stands e es := by
  induction values with
  | nil => cases hvalue
  | cons first rest ih =>
      rw [declarationsOfAll, Declarations.stands_append_iff]
      rcases List.mem_cons.1 hvalue with rfl | hvalue
      · exact Or.inl h
      · exact Or.inr (ih hvalue)

theorem stands_declarationsOfFields {field : Properties} {schema : Json} {values : List Json}
    (hfield : .obj field ∈ values) (hschema : Keyed.get? "type" field = some schema)
    {e : Declared} {es : List Declared} (h : (declarations space schema).Stands e es) :
    (declarationsOfFields space values).Stands e es := by
  induction values with
  | nil => cases hfield
  | cons first rest ih =>
      rw [declarationsOfFields, Declarations.stands_append_iff]
      rcases List.mem_cons.1 hfield with rfl | hfield
      · rw [declarationsOfField_obj hschema]
        exact Or.inl h
      · exact Or.inr (ih hfield)

/-- What is written in a schema that some reader takes stands in its forest. -/
theorem Written.exists_stands {value : Json} (h : Written value d around) :
    Takes value → ∀ space, ∃ e es, (declarations space value).Stands e es ∧ e.members = d ∧
      es.map Declared.members = around := by
  induction h with
  | here htype hword =>
      intro htakes space
      obtain ⟨kind, hword⟩ := mem_definingWords_iff.1 hword
      obtain ⟨name, _, _, _, _, hname, _⟩ := htakes.of_definition htype hword
      simp only [declarations_typed htype, hword, hname]
      exact ⟨_, [], .here, rfl, rfl⟩
  | member hmem _ ih =>
      rintro ⟨r, node, r', hread⟩ space
      rw [readNode] at hread
      obtain ⟨nodes, r₁, hnodes, _⟩ := Reading.of_bind_ok hread
      obtain ⟨e, es, hstands, hplace⟩ := ih (takes_of_readNodes hnodes _ hmem) space
      rw [declarations]
      exact ⟨e, es, stands_declarationsOfAll hmem hstands, hplace⟩
  | items htype hitems _ ih =>
      rintro ⟨r, node, r', hread⟩ space
      have hword : Word.of "array" = .array := rfl
      simp only [readNode_typed htype, hword, hitems] at hread
      obtain ⟨node', r₁, hnode, _⟩ := Reading.of_bind_ok hread
      simp only [declarations_typed htype, hword, hitems]
      exact ih ⟨r, node', r₁, hnode⟩ space
  | values htype hvalues _ ih =>
      rintro ⟨r, node, r', hread⟩ space
      have hword : Word.of "map" = .map := rfl
      simp only [readNode_typed htype, hword, hvalues] at hread
      obtain ⟨node', r₁, hnode, _⟩ := Reading.of_bind_ok hread
      simp only [declarations_typed htype, hword, hvalues]
      exact ih ⟨r, node', r₁, hnode⟩ space
  | wrapped htype hnot _ ih =>
      rintro ⟨r, node, r', hread⟩ space
      rw [readNode_wrapper htype hnot] at hread
      obtain ⟨node', r₁, hnode, _⟩ := Reading.of_bind_ok hread
      rw [declarations_wrapper htype hnot]
      exact ih ⟨r, node', r₁, hnode⟩ space
  | field htype hword hfields hfield hschema _ ih =>
      -- a field is taken only inside the body, in the namespace of its record
      intro htakes space
      have hrecord := of_eq_record_iff.2 hword
      obtain ⟨name, fullname, body, r, r', hname, hbody⟩ := htakes.of_definition htype hrecord
      simp only [bodyOf, hfields] at hbody
      obtain ⟨fields', r₁, hread, _⟩ := Reading.of_bind_ok hbody
      obtain ⟨e, es, hstands, rfl, rfl⟩ := ih (takes_of_readFields hread hfield hschema) _
      simp only [declarations_typed htype, hrecord, hname, declarationsOfBody, hfields]
      refine ⟨e, _, .inner (stands_declarationsOfFields hfield hschema hstands), rfl, ?_⟩
      simp

/-! ## Results -/

/-- The definitions of a forest are those written in a schema, each in its place, and the rule gives
    their fullnames. -/
structure Scoped (v : Declarations) (value : Json) : Prop where
  written : ∀ d around, Written value d around ↔
    ∃ e es, v.Stands e es ∧ e.members = d ∧ es.map Declared.members = around
  obeys : ∀ e es, v.Stands e es → Obeys e (es.map Declared.members)

/-- From some stored definitions to others, those written in a schema were registered, and nothing
    else, each under the fullname that the rule gives. -/
structure Registers (value : Json) (m m' : Keyed NamedType) : Prop where
  named : ∀ d around, Written value d around → ∃! n, Fullname d around n
  taken : ∀ d around n, Written value d around → Fullname d around n →
    n ∉ Keyed.keys m ∧ n ∈ Keyed.keys m'
  /-- What is stored is the definition itself, unless it stands inside one of its own fullname. -/
  found : ∀ d around n, Written value d around → Fullname d around n →
    (∀ before e behind, around = before ++ e :: behind → ¬ Fullname e behind n) →
    ∃ word kind t, Keyed.get? "type" d = some (.str word) ∧ Word.of word = .definition kind ∧
      Keyed.get? n m' = some t ∧ Declared.Gives ⟨n, kind, d⟩ t
  only : ∀ n ∈ Keyed.keys m', n ∉ Keyed.keys m →
    ∃ d around, Written value d around ∧ Fullname d around n

theorem Scoped.registers {value : Json} {m m' : Keyed NamedType} (h : Scoped v value)
    (hfiled : v.Filed m m') : Registers value m m' where
  named := by
    intro d around hwritten
    obtain ⟨e, es, hstands, rfl, rfl⟩ := (h.written d around).1 hwritten
    have hfull := (h.obeys e es hstands).fullname
    exact ⟨e.fullname, (hfull _).2 rfl, fun n hn => (hfull n).1 hn⟩
  taken := by
    intro d around n hwritten hn
    obtain ⟨e, es, hstands, rfl, rfl⟩ := (h.written d around).1 hwritten
    obtain rfl := ((h.obeys e es hstands).fullname n).1 hn
    have hname : e.fullname ∈ v.names := List.mem_map_of_mem hstands.mem_all
    exact ⟨hfiled.adds.free _ hname, hfiled.adds.mem_keys.2 (Or.inr hname)⟩
  found := by
    intro d around n hwritten hn hnot
    obtain ⟨e, es, hstands, rfl, rfl⟩ := (h.written d around).1 hwritten
    obtain rfl := ((h.obeys e es hstands).fullname n).1 hn
    have hne : ∀ f ∈ es, f.fullname ≠ e.fullname := by
      intro f hf heq
      obtain ⟨before, behind, rfl⟩ := List.append_of_mem hf
      refine hnot (before.map Declared.members) f.members (behind.map Declared.members)
        (by simp) (((h.obeys f behind hstands.outer).fullname _).2 heq.symm)
    obtain ⟨t, ht, hgives⟩ := hfiled.adds.stored e (hstands.mem_outermost hne)
    obtain ⟨word, htype, hword⟩ := (h.obeys e es hstands).kind
    exact ⟨word, e.kind, t, htype, hword, ht, hgives⟩
  only := by
    intro n hn hfree
    have hname : n ∈ v.names := (hfiled.adds.mem_keys.1 hn).resolve_left hfree
    obtain ⟨e, he, rfl⟩ := List.mem_map.1 hname
    obtain ⟨es, hstands⟩ := Declarations.exists_stands he
    exact ⟨e.members, _, (h.written _ _).2 ⟨e, es, hstands, rfl, rfl⟩,
      ((h.obeys e es hstands).fullname _).2 rfl⟩

/-- What is written in a source is written in one of the schemas that it declares. -/
theorem Written.exists_member {value : Json} (h : Written value d around) :
    ∃ schema ∈ sourceMembers value, Written schema d around := by
  cases h with
  | member hmem h => exact ⟨_, hmem, h⟩
  | here htype hword => exact ⟨_, List.mem_singleton.2 rfl, .here htype hword⟩
  | items htype hitems h => exact ⟨_, List.mem_singleton.2 rfl, .items htype hitems h⟩
  | values htype hvalues h => exact ⟨_, List.mem_singleton.2 rfl, .values htype hvalues h⟩
  | wrapped htype hnot h => exact ⟨_, List.mem_singleton.2 rfl, .wrapped htype hnot h⟩
  | field htype hword hfields hfield hschema h =>
      exact ⟨_, List.mem_singleton.2 rfl, .field htype hword hfields hfield hschema h⟩

theorem scoped_of_readSource {origin text : String} {r r' : Reader} {names : List String}
    (h : Reading.outcome (readSource origin text) r = (.ok names, r')) :
    ∃ value, Json.read? text = some value ∧ Scoped (declarationsOfSource text) value := by
  obtain ⟨value, r₁, hvalue, hdeclared, _⟩ := readSource_eq_ok.1 h
  have hforest : declarationsOfSource text = declarations none value := by
    simp [declarationsOfSource, hvalue]
  have hreflects := reflects_declarations.1 none value [] governs_nil
  rw [hforest]
  refine ⟨value, hvalue, fun d around => ⟨fun hwritten => ?_, ?_⟩, fun e es hstands => ?_⟩
  · obtain ⟨schema, hmem, hwritten⟩ := hwritten.exists_member
    obtain ⟨e, es, hstands, hplace⟩ :=
      hwritten.exists_stands (takes_of_readDeclared hdeclared schema hmem) none
    rw [← declarationsOfAll_sourceMembers]
    exact ⟨e, es, stands_declarationsOfAll hmem hstands, hplace⟩
  · rintro ⟨e, es, hstands, rfl, rfl⟩
    exact (hreflects e es hstands).1
  · simpa using (hreflects e es hstands).2

/-- **Namespaces are a matter of the text.** Whatever was read before, a source that is accepted
    stores the definitions written in it one by one as they close, each under the one fullname that
    follows from what is written in it and around it, and stores nothing else. -/
theorem readSource_scopes {origin text : String} {r r' : Reader} {names : List String}
    (h : Reading.outcome (readSource origin text) r = (.ok names, r')) :
    ∃ value, Json.read? text = some value ∧ Scoped (declarationsOfSource text) value ∧
      (declarationsOfSource text).Filed r.named r'.named ∧ Registers value r.named r'.named := by
  obtain ⟨value, hvalue, hscoped⟩ := scoped_of_readSource h
  have hfiled := filed_readSource h
  exact ⟨value, hvalue, hscoped, hfiled, hscoped.registers hfiled⟩

/-! ## Inside and beside

A record hands its namespace on to what is inside it, and not to what stands beside it. -/

def besideText : String :=
  "[\x7b\"type\":\"record\",\"name\":\"a.O\",\"fields\":[\x7b\"name\":\"x\",\"type\":"
    ++ "\x7b\"type\":\"fixed\",\"name\":\"I\",\"size\":1\x7d\x7d]\x7d,"
    ++ "\x7b\"type\":\"fixed\",\"name\":\"Q\",\"size\":1\x7d]"

/-- What comes of reading it alone. -/
def besideReading : Except Fault (List String) × Reader :=
  Reading.outcome (readSource "beside" besideText) start

theorem readSource_scopes_beside :
    besideReading.1 = .ok ["a.O", "Q"] ∧
    Keyed.keys besideReading.2.named = ["a.I", "a.O", "Q"] ∧
    ∃ value, Json.read? besideText = some value ∧ Scoped (declarationsOfSource besideText) value ∧
      (declarationsOfSource besideText).Filed start.named besideReading.2.named ∧
      Registers value start.named besideReading.2.named := by
  have hreading : besideReading.1.toOption = some ["a.O", "Q"] ∧
      Keyed.keys besideReading.2.named = ["a.I", "a.O", "Q"] := by decide +kernel
  have hanswer := Answer.eq_ok_of_toOption hreading.1
  have hread : besideReading = (.ok ["a.O", "Q"], besideReading.2) := by
    rw [← hanswer, Prod.mk.eta]
  exact ⟨hanswer, hreading.2, readSource_scopes hread⟩

end Reader

end AvroCodegen
