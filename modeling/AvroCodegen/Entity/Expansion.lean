import AvroCodegen.Entity.Basic

set_option autoImplicit false

/-! # Expanding nested records

A field whose type is a record is replaced by the fields of that record, at any depth; their names
are put behind the name of the field with a joiner between. An expansion shows the leaves, or the
record fields, or both, with the fields of a record between the record field and a closing one.

A record that comes up inside itself cannot be expanded. -/

namespace AvroCodegen

/-- What an expansion shows. -/
inductive Shown where
  | leaves
  | records
  | bracketed
  deriving DecidableEq, Repr

namespace Store

/-- A list that stands under a condition. -/
def showIf (condition : Bool) (field : Field) : List Field :=
  if condition then [field] else []

/-- Expands the fields of a record. `path` holds the records around, innermost first, all of them
different, so the depth never exceeds the number of entities. -/
def expandFrom (s : Store) (shown : Shown) (joiner : String) :
    Nat → List Nat → String → Nat → Outcome (List Field)
  | 0, _, _, _ => .ok []
  | depth + 1, path, before, id =>
    match s.record? id with
    | none => .ok []
    | some r => do
      let parts ← r.fields.mapM fun f =>
        let name := before ++ f.name
        match f.type.record? with
        | none => .ok (showIf (shown ≠ .records) ⟨name, f.type⟩)
        | some nested =>
          if path.contains nested then
            .error (.schema (r.schema.fullname ++ "." ++ f.name) .nestsItself)
          else do
            let inner ← expandFrom s shown joiner depth (nested :: path) (name ++ joiner) nested
            return showIf (shown ≠ .leaves) ⟨name, f.type⟩ ++ inner
              ++ showIf (shown = .bracketed) ⟨name, .close f.type⟩
      return parts.flatten

/-- The expansion of a record. -/
def expand (s : Store) (shown : Shown) (joiner : String) (id : Nat) : Outcome (List Field) :=
  s.expandFrom shown joiner (s.size + 1) [id] "" id

end Store

end AvroCodegen
