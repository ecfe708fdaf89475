import AvroCodegen.Convert.Token
import AvroCodegen.Proofs.ExpansionForms
import AvroCodegen.Proofs.FieldTypes

set_option autoImplicit false

/-! # Tokens of nested arrays

Two converters go into arrays, `fbType` and `javaType`. Both put a text around the word of the elements,
so what they answer depends on the type inside of all arrays, the core, and on how many arrays there are.
They refuse in different places: `fbType` only at the core, `javaType` at the innermost array as well,
because a list holds no unboxed values.

The word of a record or enum is a name of its entity, which is looked up by number without a check. What
makes that safe is how a store is built: types are resolved with the numbers of the placed nodes, and each
of those becomes an entity (`Store.below_of_occurs`). -/

namespace AvroCodegen

/-! ## Inside of arrays -/

namespace FieldType

/-- The type inside of all arrays. -/
def core : FieldType → FieldType
  | .array element _ => core element
  | t => t

/-- How many arrays are around the core. -/
def depth : FieldType → Nat
  | .array element _ => depth element + 1
  | _ => 0

theorem depth_core (t : FieldType) : t.core.depth = 0 := by
  induction t using core.induct with
  | case1 element props ih => exact ih
  | case2 t ht => rw [core.eq_2 t ht, depth.eq_2 t ht]

/-- A type is its core where there are no arrays. -/
theorem core_eq_self {t : FieldType} (h : t.depth = 0) : t.core = t := by
  cases t with
  | array element props => cases h
  | plain p props => rfl
  | union members props => rfl
  | close opened => rfl

/-- What FlatBuffers has no type for. -/
inductive Wordless : FieldType → Prop
  | map {props : Properties} : Wordless (.plain .map props)
  | null {props : Properties} : Wordless (.plain .null props)
  | union {members : List FieldType} {props : Properties} : Wordless (.union members props)
  | close {opened : FieldType} : Wordless (.close opened)

/-- What Java keeps as an object. -/
inductive Boxed : FieldType → Prop
  | string {props : Properties} : Boxed (.plain .string props)
  | uuid {props : Properties} : Boxed (.plain .uuid props)
  | datetime {format : String} {props : Properties} : Boxed (.plain (.datetime format) props)
  | bytes {props : Properties} : Boxed (.plain .bytes props)
  | decimal {precision scale : Nat} {props : Properties} :
      Boxed (.plain (.decimal precision scale) props)
  | record {id : Nat} {props : Properties} : Boxed (.plain (.record id) props)
  | enum {id : Nat} {props : Properties} : Boxed (.plain (.enum id) props)

/-- What Java keeps as a bare value: numbers, points in time and booleans. -/
inductive Unboxed : FieldType → Prop
  | int {props : Properties} : Unboxed (.plain .int props)
  | date {props : Properties} : Unboxed (.plain .date props)
  | timeMillis {props : Properties} : Unboxed (.plain .timeMillis props)
  | timeMicros {props : Properties} : Unboxed (.plain .timeMicros props)
  | long {props : Properties} : Unboxed (.plain .long props)
  | timestampMillis {props : Properties} : Unboxed (.plain .timestampMillis props)
  | timestampMicros {props : Properties} : Unboxed (.plain .timestampMicros props)
  | localTimestampMillis {props : Properties} : Unboxed (.plain .localTimestampMillis props)
  | localTimestampMicros {props : Properties} : Unboxed (.plain .localTimestampMicros props)
  | float {props : Properties} : Unboxed (.plain .float props)
  | double {props : Properties} : Unboxed (.plain .double props)
  | boolean {props : Properties} : Unboxed (.plain .boolean props)

theorem isUnboxed_iff {t : FieldType} : Converter.isUnboxed t = true ↔ t.Unboxed := by
  constructor
  · intro h
    cases t with
    | plain p props =>
        cases p <;> first | constructor | cases h
    | array element props => cases h
    | union members props => cases h
    | close opened => cases h
  · intro h
    cases h <;> rfl

instance (t : FieldType) : Decidable t.Unboxed :=
  decidable_of_iff _ isUnboxed_iff

theorem Unboxed.depth {t : FieldType} (h : t.Unboxed) : t.depth = 0 := by
  cases h <;> rfl

theorem Unboxed.not_boxed {t : FieldType} (h : t.Unboxed) : ¬ t.Boxed := by
  cases h <;> exact nofun

end FieldType

/-! ## Words with the same text around them -/

namespace Converter

/-- A word with a text before it and a text behind it, so many times. -/
def wrapped (before after : String) (n : Nat) (word : String) : String :=
  String.join (List.replicate n before) ++ word ++ String.join (List.replicate n after)

theorem wrapped_succ (before after : String) (n : Nat) (word : String) :
    wrapped before after (n + 1) word = before ++ wrapped before after n word ++ after := by
  have hafter : String.join (List.replicate (n + 1) after) =
      String.join (List.replicate n after) ++ after := by
    simp [List.replicate_succ', String.join_append]
  rw [wrapped, hafter, List.replicate_succ, String.join_cons]
  simp only [wrapped, String.append_assoc]

theorem map_wrapped_zero (before after : String) (answer : Outcome String) :
    answer.map (wrapped before after 0) = answer := by
  cases answer with
  | error e => rfl
  | ok word => exact congrArg Except.ok (by simp [wrapped])

theorem map_wrapped_succ (before after : String) (n : Nat) (answer : Outcome String) :
    answer.map (wrapped before after (n + 1)) =
      (do return before ++ (← answer.map (wrapped before after n)) ++ after) := by
  cases answer with
  | error e => rfl
  | ok word => exact congrArg Except.ok (wrapped_succ before after n word)

variable {s : Store} {t : FieldType}

/-- Arrays are brackets around the word of the core. -/
theorem fbTypeText_eq (s : Store) (t : FieldType) :
    fbTypeText s t = (fbTypeText s t.core).map (wrapped "[" "]" t.depth) := by
  induction t using FieldType.core.induct with
  | case1 element props ih =>
      rw [fbTypeText, ih]
      exact (map_wrapped_succ "[" "]" element.depth _).symm
  | case2 t ht => rw [FieldType.core.eq_2 t ht, FieldType.depth.eq_2 t ht, map_wrapped_zero]

/-- Arrays are lists around the word of the core, unless they would hold unboxed values. -/
theorem javaTypeText_eq (s : Store) (t : FieldType) : javaTypeText s t =
    if 0 < t.depth ∧ t.core.Unboxed then .error (.unsupported .javaType (.arrayOf t.core.name))
    else (javaTypeText s t.core).map (wrapped "java.util.List<" ">" t.depth) := by
  induction t using FieldType.core.induct with
  | case1 element props ih =>
      rw [javaTypeText]
      show _ = if 0 < element.depth + 1 ∧ element.core.Unboxed then
          .error (.unsupported .javaType (.arrayOf element.core.name))
        else (javaTypeText s element.core).map (wrapped "java.util.List<" ">" (element.depth + 1))
      by_cases hbare : element.Unboxed
      · rw [if_pos (FieldType.isUnboxed_iff.2 hbare), FieldType.core_eq_self hbare.depth,
          if_pos ⟨Nat.succ_pos _, hbare⟩]
      · -- the elements are arrays themselves where the core is unboxed
        have hdepth : 0 < element.depth ∧ element.core.Unboxed ↔
            0 < element.depth + 1 ∧ element.core.Unboxed := by
          refine ⟨fun h => ⟨by omega, h.2⟩, fun h => ⟨?_, h.2⟩⟩
          refine Nat.pos_of_ne_zero fun hflat => hbare ?_
          rw [← FieldType.core_eq_self hflat]
          exact h.2
        rw [if_neg (fun h => hbare (FieldType.isUnboxed_iff.1 h)), ih, if_congr hdepth rfl rfl,
          map_wrapped_succ]
        split <;> rfl
  | case2 t ht =>
      rw [FieldType.core.eq_2 t ht, FieldType.depth.eq_2 t ht, if_neg (fun h => Nat.lt_irrefl 0 h.1),
        map_wrapped_zero]

/-! ## The core -/

/-- The words of a type that stands for an entity of the store are names of it. -/
theorem texts_of_entity? {id : Nat} {e : Entity} (ht : t.entity? = some id) (he : s.get? id = some e) :
    fbTypeText s t = .ok e.naming.fullname ∧ javaTypeText s t = .ok e.naming.name := by
  have hnaming : namingOf s id = .ok e.naming := by simp [namingOf, he]
  cases t with
  | array element props => cases ht
  | union members props => cases ht
  | close opened => cases ht
  | plain p props =>
      cases p with
      | record id' =>
          obtain rfl := Option.some.inj ht
          simp [fbTypeText, javaTypeText, hnaming]
      | enum id' =>
          obtain rfl := Option.some.inj ht
          simp [fbTypeText, javaTypeText, hnaming]
      | _ => cases ht

/-- The entity that a type stands for, if it stands for one, is in the store. -/
def Grounded (s : Store) (t : FieldType) : Prop :=
  ∀ id, t.entity? = some id → ∃ e, s.get? id = some e

theorem fbTypeText_core (ht : t.depth = 0) (hs : Grounded s t) :
    (¬ t.Wordless ∧ ∃ word, fbTypeText s t = .ok word) ∨
    (t.Wordless ∧ fbTypeText s t = .error (.unsupported .fbType (.type t.name))) := by
  cases t with
  | array element props => cases ht
  | union members props => exact .inr ⟨.union, rfl⟩
  | close opened => exact .inr ⟨.close, rfl⟩
  | plain p props =>
      cases p with
      | map => exact .inr ⟨.map, rfl⟩
      | null => exact .inr ⟨.null, rfl⟩
      | record id =>
          obtain ⟨e, he⟩ := hs id rfl
          exact .inl ⟨nofun, _, (texts_of_entity? rfl he).1⟩
      | enum id =>
          obtain ⟨e, he⟩ := hs id rfl
          exact .inl ⟨nofun, _, (texts_of_entity? rfl he).1⟩
      | _ => exact .inl ⟨nofun, _, rfl⟩

theorem javaTypeText_core (ht : t.depth = 0) (hs : Grounded s t) :
    ((t.Boxed ∨ t.Unboxed) ∧ ∃ word, javaTypeText s t = .ok word) ∨
    (¬ t.Boxed ∧ ¬ t.Unboxed ∧
      javaTypeText s t = .error (.unsupported .javaType (.type t.name))) := by
  cases t with
  | array element props => cases ht
  | union members props => exact .inr ⟨nofun, nofun, rfl⟩
  | close opened => exact .inr ⟨nofun, nofun, rfl⟩
  | plain p props =>
      cases p with
      | fixed size => exact .inr ⟨nofun, nofun, rfl⟩
      | map => exact .inr ⟨nofun, nofun, rfl⟩
      | null => exact .inr ⟨nofun, nofun, rfl⟩
      | record id =>
          obtain ⟨e, he⟩ := hs id rfl
          exact .inl ⟨.inl .record, _, (texts_of_entity? rfl he).2⟩
      | enum id =>
          obtain ⟨e, he⟩ := hs id rfl
          exact .inl ⟨.inl .enum, _, (texts_of_entity? rfl he).2⟩
      | string | uuid | datetime | bytes | decimal =>
          exact .inl ⟨.inl (by constructor), _, rfl⟩
      | _ => exact .inl ⟨.inr (by constructor), _, rfl⟩

/-! ## Answers -/

/-- What a converter answers that puts a text around its word for each array: that word, if it takes the
    type, and a refusal if not. -/
inductive Wraps (c : Converter) (s : Store) (t : FieldType) (before after : String) (takes : Prop)
    (refused : Unsupported) : Prop
  | word {word : String} : takes → c.token s t.core = .ok (.text word) →
      c.token s t = .ok (.text (wrapped before after t.depth word)) →
      Wraps c s t before after takes refused
  | refuses : ¬ takes → c.token s t = .error (.unsupported c refused) →
      Wraps c s t before after takes refused

theorem wraps_fbType (hs : Grounded s t.core) :
    Wraps .fbType s t "[" "]" (¬ t.core.Wordless) (.type t.core.name) := by
  rcases fbTypeText_core t.depth_core hs with ⟨htakes, word, hword⟩ | ⟨hwordless, hrefused⟩
  · exact .word htakes (by rw [token, hword]; rfl) (by rw [token, fbTypeText_eq, hword]; rfl)
  · exact .refuses (not_not_intro hwordless) (by rw [token, fbTypeText_eq, hrefused]; rfl)

theorem wraps_javaType (hs : Grounded s t.core) :
    Wraps .javaType s t "java.util.List<" ">" (t.core.Boxed ∨ t.depth = 0 ∧ t.core.Unboxed)
      (if 0 < t.depth ∧ t.core.Unboxed then .arrayOf t.core.name else .type t.core.name) := by
  by_cases hbare : 0 < t.depth ∧ t.core.Unboxed
  · obtain ⟨hdepth, hunboxed⟩ := hbare
    rw [if_pos ⟨hdepth, hunboxed⟩]
    refine .refuses ?_ (by rw [token, javaTypeText_eq, if_pos ⟨hdepth, hunboxed⟩]; rfl)
    rintro (hboxed | ⟨hflat, _⟩)
    · exact hunboxed.not_boxed hboxed
    · omega
  · rw [if_neg hbare]
    have htext : javaType.token s t =
        .text <$> (javaTypeText s t.core).map (wrapped "java.util.List<" ">" t.depth) := by
      rw [token, javaTypeText_eq, if_neg hbare]
    rcases javaTypeText_core t.depth_core hs with ⟨hkind, word, hword⟩ | ⟨hobject, hvalue, hrefused⟩
    · refine .word ?_ (by rw [token, hword]; rfl) (by rw [htext, hword]; rfl)
      refine hkind.imp_right fun hunboxed => ⟨?_, hunboxed⟩
      exact Nat.eq_zero_of_not_pos fun hdepth => hbare ⟨hdepth, hunboxed⟩
    · exact .refuses (by simp [hobject, hvalue]) (by rw [htext, hrefused]; rfl)

theorem Wraps.ne_noSuchEntity {c : Converter} {before after : String} {takes : Prop}
    {refused : Unsupported} (h : Wraps c s t before after takes refused) (id : Nat) :
    c.token s t ≠ .error (.noSuchEntity id) := by
  cases h with
  | word _ _ htoken => simp [htoken]
  | refuses _ htoken => simp [htoken]

/-- A converter that treats all arrays alike looks up no entity. -/
theorem flatText_ne_noSuchEntity (c : Converter) (table : PlainType → Option String) (array : String)
    (t : FieldType) (id : Nat) :
    (Token.text <$> flatText c table array t : Outcome Token) ≠ .error (.noSuchEntity id) := by
  cases t with
  | plain p props =>
      rw [flatText]
      cases table p <;> exact nofun
  | array element props => exact nofun
  | union members props => exact nofun
  | close opened => exact nofun

theorem fbFlag_ne_noSuchEntity (t : FieldType) (id : Nat) :
    (Token.flag <$> fbFlag t : Outcome Token) ≠ .error (.noSuchEntity id) := by
  cases t with
  | plain p props =>
      rw [fbFlag]
      cases p.fbIsPrimitive? <;> exact nofun
  | array element props => exact nofun
  | union members props => exact nofun
  | close opened => exact nofun

end Converter

namespace Store

open Converter

/-- What the converters make of a type of a store. -/
structure Translates (s : Store) (t : FieldType) : Prop where
  fbType : Wraps .fbType s t "[" "]" (¬ t.core.Wordless) (.type t.core.name)
  javaType : Wraps .javaType s t "java.util.List<" ">" (t.core.Boxed ∨ t.depth = 0 ∧ t.core.Unboxed)
    (if 0 < t.depth ∧ t.core.Unboxed then .arrayOf t.core.name else .type t.core.name)
  entity : ∀ id, t.core.entity? = some id → ∃ e, s.get? id = some e ∧
    Converter.fbType.token s t.core = .ok (.text e.naming.fullname) ∧
    Converter.javaType.token s t.core = .ok (.text e.naming.name)
  inside : ∀ (c : Converter) id, c.token s t ≠ .error (.noSuchEntity id)

variable {s : Store} {t : FieldType}

theorem translates_of_grounded (hs : Grounded s t.core) : s.Translates t where
  fbType := wraps_fbType hs
  javaType := wraps_javaType hs
  entity := by
    intro id ht
    obtain ⟨e, he⟩ := hs id ht
    obtain ⟨hfb, hjava⟩ := texts_of_entity? ht he
    exact ⟨e, he, by rw [token, hfb]; rfl, by rw [token, hjava]; rfl⟩
  inside := by
    intro c id
    cases c with
    | fbType => exact (wraps_fbType hs).ne_noSuchEntity id
    | javaType => exact (wraps_javaType hs).ne_noSuchEntity id
    | fbIsPrimitive => exact fbFlag_ne_noSuchEntity t id
    | fbFactory => exact flatText_ne_noSuchEntity _ _ _ t id
    | connectSchemaType => exact flatText_ne_noSuchEntity _ _ _ t id
    | connectStructGetter => exact flatText_ne_noSuchEntity _ _ _ t id
    | liquidBaseType => exact flatText_ne_noSuchEntity _ _ _ t id

/-! ## Numbers of a store -/

/-- What a type says of records and enums, anywhere inside, has numbers below a bound. -/
inductive Below (bound : Nat) : FieldType → Prop
  | plain {p : PlainType} {props : Properties} :
      (∀ id, (FieldType.plain p props).entity? = some id → id < bound) → Below bound (.plain p props)
  | array {element : FieldType} {props : Properties} :
      Below bound element → Below bound (.array element props)
  | union {members : List FieldType} {props : Properties} :
      (∀ t ∈ members, Below bound t) → Below bound (.union members props)
  | close {opened : FieldType} : Below bound opened → Below bound (.close opened)

section Resolve

variable {c : Catalog} {idOf : String → Option Nat} {bound : Nat}

theorem below_of_entity?_none {p : PlainType} {props : Properties}
    (h : (FieldType.plain p props).entity? = none) : Below bound (.plain p props) :=
  .plain fun id hid => by rw [h] at hid; cases hid

theorem below_refer (hidOf : ∀ n id, idOf n = some id → id < bound) {n : String} {props : Properties}
    {t : FieldType} (h : FieldType.refer c idOf n props = .ok t) : Below bound t := by
  unfold FieldType.refer at h
  split at h
  · cases h
  · dsimp only at h
    split at h
    · rw [← Except.ok.inj h]
      exact below_of_entity?_none rfl
    · cases h
    · next id _ hid =>
        rw [← Except.ok.inj h]
        exact .plain fun id' h' => Option.some.inj h' ▸ hidOf n id hid
    · next id _ hid =>
        rw [← Except.ok.inj h]
        exact .plain fun id' h' => Option.some.inj h' ▸ hidOf n id hid

/-- Schemas are resolved with the numbers that are given, and no others. -/
theorem below_resolve (hidOf : ∀ n id, idOf n = some id → id < bound) :
    (∀ extra schema {t}, FieldType.resolve c idOf extra schema = .ok t → Below bound t) ∧
    (∀ schemas {ts}, FieldType.resolveAll c idOf schemas = .ok ts → ∀ t ∈ ts, Below bound t) := by
  refine FieldType.resolve.mutual_induct
    (fun extra schema => ∀ {t}, FieldType.resolve c idOf extra schema = .ok t → Below bound t)
    (fun schemas => ∀ {ts}, FieldType.resolveAll c idOf schemas = .ok ts → ∀ t ∈ ts, Below bound t)
    ?primitive ?array ?map ?union ?named ?nil ?cons
  case primitive =>
    intro extra p marks t h
    rw [FieldType.resolve] at h
    obtain ⟨type, hp, h⟩ := Answer.of_bind_ok h
    rw [← Except.ok.inj h]
    exact below_of_entity?_none (FieldType.entity?_refine hp)
  case array =>
    intro extra items marks ih t h
    rw [FieldType.resolve] at h
    obtain ⟨element, hitems, h⟩ := Answer.of_bind_ok h
    rw [← Except.ok.inj h]
    exact .array (ih hitems)
  case map =>
    intro extra values marks t h
    rw [FieldType.resolve] at h
    rw [← Except.ok.inj h]
    exact below_of_entity?_none rfl
  case union =>
    intro extra members marks ih t h
    rw [FieldType.resolve] at h
    obtain ⟨types, hmembers, h⟩ := Answer.of_bind_ok h
    rw [← Except.ok.inj h]
    exact .union (ih hmembers)
  case named =>
    intro extra n marks t h
    rw [FieldType.resolve] at h
    exact below_refer hidOf h
  case nil =>
    intro ts h
    rw [FieldType.resolveAll] at h
    rw [← Except.ok.inj h]
    simp
  case cons =>
    intro schema rest ih ihs ts h
    rw [FieldType.resolveAll] at h
    obtain ⟨t, hfirst, h⟩ := Answer.of_bind_ok h
    obtain ⟨ts', hrest, h⟩ := Answer.of_bind_ok h
    rw [← Except.ok.inj h]
    exact List.forall_mem_cons.2 ⟨ih hfirst, ihs hrest⟩

end Resolve

theorem Below.core {bound : Nat} (h : Below bound t) : Below bound t.core := by
  induction h with
  | plain h => exact .plain h
  | array _ ih => exact ih
  | union h _ => exact .union h
  | close h _ => exact .close h

/-- Numbers below the size of a store lead to its entities. -/
theorem Below.grounded (h : Below s.size t) : Grounded s t := by
  intro id hid
  cases h with
  | plain hbelow => exact ⟨_, List.getElem?_eq_getElem (hbelow id hid)⟩
  | array => cases hid
  | union => cases hid
  | close => cases hid

/-! ## Types of a store -/

/-- The types that occur in a store: those of the fields of its records, what is inside of these, and
    what closes their spans. -/
inductive Occurs (s : Store) : FieldType → Prop
  | field {id : Nat} {f : Field} : f ∈ s.fieldsAt id → Occurs s f.type
  | element {element : FieldType} {props : Properties} :
      Occurs s (.array element props) → Occurs s element
  | member {members : List FieldType} {props : Properties} {t : FieldType} :
      Occurs s (.union members props) → t ∈ members → Occurs s t
  | closing {opened : FieldType} : Occurs s opened → Occurs s (.close opened)

variable {c : Catalog} {g : Graph} {scope : List (Nat × Naming)} {generator : String}

theorem idAmong_lt {ps : List Placed} {n : String} {id : Nat} (h : idAmong ps n = some id) :
    id < ps.length := by
  have hmem := List.mem_of_find?_eq_some h
  simpa using hmem

/-- Every placed node becomes an entity. -/
theorem size_of_build (hs : build generator g c scope = .ok s) :
    s.size = (placed g scope).length := by
  have hsteady : Steady fun _ : Entity => () := ⟨fun _ _ => rfl, fun _ _ _ => rfl⟩
  obtain ⟨drafts, hdrafts, hview⟩ := hsteady.map_of_build hs
  have hlength := congrArg List.length hview
  rw [List.length_map, List.length_map] at hlength
  exact hlength.trans (Answer.forall₂_of_mapM hdrafts).length_eq.symm

/-- All numbers in the types of a store that was built are numbers of its entities. -/
theorem below_of_occurs (hs : build generator g c scope = .ok s) (ht : s.Occurs t) :
    Below s.size t := by
  induction ht with
  | @field id f hf =>
      obtain ⟨extra, schema, htype⟩ := exists_resolve_of_build hs hf
      rw [size_of_build hs]
      exact (below_resolve fun _ _ => idAmong_lt).1 extra schema htype
  | element _ ih =>
      cases ih with
      | array h => exact h
  | member _ hmem ih =>
      cases ih with
      | union h => exact h _ hmem
  | closing _ ih => exact .close ih

/-- The entries of an expansion have types of the store. -/
theorem occurs_of_expand {shown : Shown} {joiner : String} {id : Nat} {fields : List Field}
    (h : s.expand shown joiner id = .ok fields) : ∀ f ∈ fields, s.Occurs f.type := by
  obtain ⟨ts, hts, rfl⟩ := expand_eq_ok_iff.1 h
  intro f hf
  obtain ⟨t, ht, rfl⟩ := List.mem_map.1 hf
  have hfield : s.Occurs t.field.type :=
    (hts.leads t (List.mem_filter.1 ht).1).forall_mem (P := fun f => s.Occurs f.type)
      (fun _ => .field) (fun _ _ => .field) t.field (by simp [Trail.fields])
  show s.Occurs t.type
  unfold Trail.type
  split
  · exact .closing hfield
  · exact hfield

/-- **Tokens of nested arrays.** In every store that was built, whatever the number of arrays around a
    type and wherever the type occurs, `fbType` and `javaType` put the word of the core into that many
    brackets or lists, or refuse by the name of the core; the word of a record or enum is a name of its
    entity, and no converter looks up an entity that is not there. The types that an expansion shows
    are such types. -/
theorem build_translates (hs : build generator g c scope = .ok s) :
    (∀ t, s.Occurs t → s.Translates t) ∧
    ∀ shown joiner id fields, s.expand shown joiner id = .ok fields →
      ∀ f ∈ fields, s.Translates f.type := by
  have htypes : ∀ t, s.Occurs t → s.Translates t := fun t ht =>
    translates_of_grounded (below_of_occurs hs ht).core.grounded
  exact ⟨htypes, fun shown joiner id fields h f hf => htypes _ (occurs_of_expand h f hf)⟩

/-! ## A grid -/

/-- The calls that read a grid, with cells in rows and numbers in rows. -/
def gridCalls : List Reader.Call :=
  [ .node (Reader.recordNode "x.Grid"
      [ ("width", .str "int"),
        ("cells", Reader.arrayNode (Reader.arrayNode (Reader.recordNode "Cell"
          [("text", .str "string")]))),
        ("sizes", Reader.arrayNode (Reader.arrayNode (.str "int"))),
        ("gaps", Reader.arrayNode (.str "null")) ]),
    .source "grid" "[\"x.Grid\"]" ]

/-- What comes of reading the grid. -/
def gridCatalog : Catalog :=
  (Reader.after gridCalls).finish.toOption.getD ⟨[], []⟩

/-- The graph of the grid. -/
def gridGraph : Graph :=
  (Graph.ofCatalog gridCatalog).toOption.getD Graph.empty

/-- The nodes of the grid: cell and grid. -/
def gridScope : List (Nat × Naming) :=
  [(1, ⟨"x", "Cell", "x.Cell"⟩), (0, ⟨"x", "Grid", "x.Grid"⟩)]

/-- The store of the grid. -/
def gridStore : Store :=
  (build "java" gridGraph gridCatalog gridScope).toOption.getD (Store.empty "java")

/-- What is told of the fields of the grid: the word of a converter, or the text of the fault. -/
def gridTexts (c : Converter) : List String :=
  (gridStore.fieldsAt 1).map fun f =>
    match c.token gridStore f.type with
    | .ok (.text word) => word
    | .ok (.flag value) => toString value
    | .error e => e.message

theorem build_translates_grid :
    build "java" gridGraph gridCatalog gridScope = .ok gridStore ∧
    (∀ t, gridStore.Occurs t → gridStore.Translates t) ∧
    gridTexts .fbType =
      [ "int", "[[x.Cell]]", "[[int]]", "Unsupported Avro type: null (converter `fbType`)" ] ∧
    gridTexts .javaType =
      [ "int", "java.util.List<java.util.List<Cell>>",
        "Unsupported Avro type: collection with primitive type int (converter `javaType`)",
        "Unsupported Avro type: null (converter `javaType`)" ] := by
  have hbuild : build "java" gridGraph gridCatalog gridScope = .ok gridStore :=
    Answer.eq_ok_getD (Store.empty "java") (by decide +kernel)
  exact ⟨hbuild, (build_translates hbuild).1, by decide +kernel, by decide +kernel⟩

end Store

end AvroCodegen
