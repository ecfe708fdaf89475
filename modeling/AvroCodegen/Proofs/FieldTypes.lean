import AvroCodegen.Entity.Basic
import AvroCodegen.Proofs.Answer

set_option autoImplicit false

/-! # What types of fields stand for

`FieldType.resolve` gets the numbers of entities before there are entities. If each number that is
given out leads to the entity of the definition in the end, the type stands for the schema at every
depth, by `Store.Denotes`. -/

namespace AvroCodegen

/-- An entity is of the kind that its definition has. -/
def Entity.OfKind : Entity → Prop
  | .record r => r.schema.kind = .record
  | .enum e => e.schema.kind = .enum

/-- A type stands for a schema: at every place where the schema refers to a record or enum, and only
    there, the type has the number of the entity of that definition, as a record or as an enum. -/
inductive Store.Denotes (c : Catalog) (s : Store) : Schema → FieldType → Prop
  | primitive (p : Primitive) (m : Annotations) {type : PlainType} {props : Properties} :
      (FieldType.plain type props).entity? = none →
      Denotes c s (.primitive p m) (.plain type props)
  | array {items : Schema} (m : Annotations) {element : FieldType} {props : Properties} :
      Denotes c s items element → Denotes c s (.array items m) (.array element props)
  | map (values : Schema) (m : Annotations) {props : Properties} :
      Denotes c s (.map values m) (.plain .map props)
  | union {schemas : List Schema} (m : Annotations) {types : List FieldType} {props : Properties} :
      List.Forall₂ (Denotes c s) schemas types →
      Denotes c s (.union schemas m) (.union types props)
  | fixed {n : String} (m : Annotations) {t : NamedType} {size : Nat} {props : Properties} :
      c.get? n = some t → t.body = .fixed size →
      Denotes c s (.named n m) (.plain (.fixed size) props)
  | record {n : String} (m : Annotations) {id : Nat} {r : RecordEntity} {props : Properties} :
      s.find? n = some id → s.get? id = some (.record r) → c.get? n = some r.schema →
      Denotes c s (.named n m) (.plain (.record id) props)
  | enum {n : String} (m : Annotations) {id : Nat} {e : EnumEntity} {props : Properties} :
      s.find? n = some id → s.get? id = some (.enum e) → c.get? n = some e.schema →
      Denotes c s (.named n m) (.plain (.enum id) props)

/-- Each field has the name and a type of the field that it was declared by. -/
def Store.FieldsDenote (c : Catalog) (s : Store) (t : NamedType) (fields : List Field) : Prop :=
  List.Forall₂ (fun f field => field.name = f.name ∧ s.Denotes c f.schema field.type) t.fields fields

namespace FieldType

variable {c : Catalog} {s : Store} {idOf : String → Option Nat}

theorem entity?_decimal {props props' : Properties} {type : PlainType}
    (h : decimal props = .ok type) : (FieldType.plain type props').entity? = none := by
  unfold decimal at h
  split at h
  · cases h
  · next precision _ =>
      obtain ⟨p, _, h⟩ := Answer.of_bind_ok h
      obtain ⟨q, _, h⟩ := Answer.of_bind_ok h
      rw [← Except.ok.inj h]
      rfl

theorem entity?_datetime {props props' : Properties} {type : PlainType}
    (h : datetime props = .ok type) : (FieldType.plain type props').entity? = none := by
  unfold datetime at h
  cases hformat : (Keyed.get? "datetime-format" props).bind Json.string? with
  | none =>
      rw [hformat] at h
      cases h
  | some format =>
      rw [hformat] at h
      cases h
      rfl

theorem entity?_refineInt (logical : Option String) (props : Properties) :
    (FieldType.plain (refineInt logical) props).entity? = none := by
  unfold refineInt
  split <;> rfl

theorem entity?_refineLong (logical : Option String) (props : Properties) :
    (FieldType.plain (refineLong logical) props).entity? = none := by
  unfold refineLong
  split <;> rfl

/-- No primitive is refined to an entity. -/
theorem entity?_refine {p : Primitive} {logical : Option String} {props props' : Properties}
    {type : PlainType} (h : refine p logical props = .ok type) :
    (FieldType.plain type props').entity? = none := by
  cases p with
  | null => rw [← Except.ok.inj h]; rfl
  | boolean => rw [← Except.ok.inj h]; rfl
  | int => rw [← Except.ok.inj h]; exact entity?_refineInt logical props'
  | long => rw [← Except.ok.inj h]; exact entity?_refineLong logical props'
  | float => rw [← Except.ok.inj h]; rfl
  | double => rw [← Except.ok.inj h]; rfl
  | bytes =>
      dsimp only [refine] at h
      split at h
      · exact entity?_decimal h
      · rw [← Except.ok.inj h]; rfl
  | string =>
      dsimp only [refine] at h
      split at h
      · rw [← Except.ok.inj h]; rfl
      split at h
      · exact entity?_datetime h
      · rw [← Except.ok.inj h]; rfl

/-- A number that is given out leads to the entity of the definition. -/
def Numbers (c : Catalog) (s : Store) (idOf : String → Option Nat) : Prop :=
  ∀ n id, idOf n = some id → s.find? n = some id ∧
    ∃ e, s.get? id = some e ∧ e.OfKind ∧ c.get? n = some e.schema

theorem denotes_refer (hs : Numbers c s idOf) {n : String} (m : Annotations) {props : Properties}
    {t : FieldType} (h : refer c idOf n props = .ok t) : s.Denotes c (.named n m) t := by
  unfold refer at h
  split at h
  · cases h
  · next d hd =>
      dsimp only at h
      split at h
      · next size _ hbody =>
          rw [← Except.ok.inj h]
          exact .fixed m hd hbody
      · cases h
      · next fields id hbody hid =>
          obtain ⟨hfind, e, he, hkind, hget⟩ := hs n id hid
          rw [hget, Option.some.injEq] at hd
          cases e with
          | record r =>
              rw [← Except.ok.inj h]
              exact .record m hfind he hget
          | enum e =>
              have hbody' : e.schema.body = .record fields := (congrArg NamedType.body hd).trans hbody
              simp [Entity.OfKind, NamedType.kind, hbody'] at hkind
      · next symbols id hbody hid =>
          obtain ⟨hfind, e, he, hkind, hget⟩ := hs n id hid
          rw [hget, Option.some.injEq] at hd
          cases e with
          | enum e =>
              rw [← Except.ok.inj h]
              exact .enum m hfind he hget
          | record r =>
              have hbody' : r.schema.body = .enum symbols := (congrArg NamedType.body hd).trans hbody
              simp [Entity.OfKind, NamedType.kind, hbody'] at hkind

/-- A schema is resolved to a type that stands for it, at every depth. -/
theorem denotes_resolve (hs : Numbers c s idOf) :
    (∀ extra schema {t}, resolve c idOf extra schema = .ok t → s.Denotes c schema t) ∧
    (∀ schemas {ts}, resolveAll c idOf schemas = .ok ts →
      List.Forall₂ (s.Denotes c) schemas ts) := by
  refine resolve.mutual_induct
    (fun extra schema => ∀ {t}, resolve c idOf extra schema = .ok t → s.Denotes c schema t)
    (fun schemas => ∀ {ts}, resolveAll c idOf schemas = .ok ts →
      List.Forall₂ (s.Denotes c) schemas ts)
    ?primitive ?array ?map ?union ?named ?nil ?cons
  case primitive =>
    intro extra p marks t h
    rw [resolve] at h
    obtain ⟨type, hp, h⟩ := Answer.of_bind_ok h
    rw [← Except.ok.inj h]
    exact .primitive p marks (entity?_refine hp)
  case array =>
    intro extra items marks ih t h
    rw [resolve] at h
    obtain ⟨element, hitems, h⟩ := Answer.of_bind_ok h
    rw [← Except.ok.inj h]
    exact .array marks (ih hitems)
  case map =>
    intro extra values marks t h
    rw [resolve] at h
    rw [← Except.ok.inj h]
    exact .map values marks
  case union =>
    intro extra members marks ih t h
    rw [resolve] at h
    obtain ⟨types, hmembers, h⟩ := Answer.of_bind_ok h
    rw [← Except.ok.inj h]
    exact .union marks (ih hmembers)
  case named =>
    intro extra n marks t h
    rw [resolve] at h
    exact denotes_refer hs marks h
  case nil =>
    intro ts h
    rw [resolveAll] at h
    rw [← Except.ok.inj h]
    exact .nil
  case cons =>
    intro schema rest ih ihs ts h
    rw [resolveAll] at h
    obtain ⟨t, hfirst, h⟩ := Answer.of_bind_ok h
    obtain ⟨ts', hrest, h⟩ := Answer.of_bind_ok h
    rw [← Except.ok.inj h]
    exact .cons (ih hfirst) (ihs hrest)

end FieldType

end AvroCodegen
