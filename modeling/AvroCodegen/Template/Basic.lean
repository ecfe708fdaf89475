import AvroCodegen.Template.Value

set_option autoImplicit false

/-! # Templates

A template is a list of statements: text that is copied, expressions whose value is printed, and
tags that branch, repeat, name a value or include another template. This is a small language, without
macros, blocks and imports; what generators are run with is any `TemplateEngine`. -/

namespace AvroCodegen

/-- Operators before an operand. -/
inductive UnaryOp where
  | not
  | negate
  deriving DecidableEq, Repr

/-- Operators between two operands that are both evaluated. -/
inductive BinaryOp where
  | add
  | subtract
  | multiply
  | divide
  | floorDivide
  | remainder
  | power
  | concat
  | equal
  | unequal
  | less
  | lessEqual
  | greater
  | greaterEqual
  | contains
  deriving DecidableEq, Repr

/-- A comparison with what stands to the right of it; it may be negated. -/
structure Comparison where
  op : BinaryOp
  negated : Bool
  deriving DecidableEq, Repr

/-- An expression. Arguments come with the keyword they are given under, if any. In a chain each
comparison is between its neighbours, and the chain holds when all of them hold. -/
inductive Expr where
  | value (v : Value)
  | name (name : String)
  | list (items : List Expr)
  | map (pairs : List (Expr × Expr))
  | attribute (owner : Expr) (name : String)
  | item (owner key : Expr)
  | slice (owner start stop step : Expr)
  | unary (op : UnaryOp) (operand : Expr)
  | binary (op : BinaryOp) (left right : Expr)
  | chain (first : Expr) (steps : List (Comparison × Expr))
  | both (left right : Expr)
  | either (left right : Expr)
  | choice (test whenTrue whenFalse : Expr)
  | filter (name : String) (operand : Expr) (args : List (Option String × Expr))
  | test (name : String) (operand : Expr) (args : List (Option String × Expr))
  | call (callee : Expr) (args : List (Option String × Expr))

instance : Inhabited Expr := ⟨.value .missing⟩

/-- What an assignment binds: a name, or several to the items of a list. The attribute of a value
can be written as a target, but nothing can be bound to it. -/
inductive Target where
  | name (name : String)
  | list (targets : List Target)
  | attribute (owner : Expr)

/-- A filter with its arguments, without its operand. -/
structure FilterCall where
  name : String
  args : List (Option String × Expr)

/-- A statement. -/
inductive Statement where
  | text (content : String)
  | print (e : Expr)
  | branch (test : Expr) (body otherwise : List Statement)
  | repeat (target : Target) (source : Expr) (only : Option Expr) (recursive : Bool)
      (body otherwise : List Statement)
  | assign (target : Target) (e : Expr)
  | capture (target : Target) (filters : List FilterCall) (body : List Statement)
  | include (names : Expr) (ignoreMissing : Bool)

/-- The statements of a template. -/
abbrev Template : Type := List Statement

end AvroCodegen
