import AvroCodegen.Template.Operator

set_option autoImplicit false

/-! # Arguments

A filter, a test, a function and a method take their arguments from the front of a list, the operand
of a filter or test first. Arguments with keywords come last and as one. A parameter that is a text
takes any value but an ordinary undefined one, by what it prints; an optional parameter of a kind of
its own counts an undefined value and `none` as absent. When all parameters are taken nothing may be
left. -/

namespace AvroCodegen

/-- One argument of a call; all that have keywords are one argument. -/
inductive Arg where
  | value (v : Value)
  | keywords (pairs : List (String × Value))

/-- A step that takes arguments. -/
abbrev Taking (α : Type) : Type := StateT (List Arg) (Except Fault) α

/-- Filters by name. -/
abbrev FilterTable : Type := Keyed (Taking Value)

namespace Taking

/-- Fails with a problem of the template language. -/
def refuse {α : Type} (problem : TemplateProblem) : Taking α :=
  throw (.template problem)

/-- The next argument, if there is one. -/
def next? : Taking (Option Arg) := do
  match ← get with
  | [] => return none
  | arg :: rest => set rest; return some arg

/-- An argument as a value; keywords make a map. -/
def ofArg : Arg → Value
  | .value v => v
  | .keywords pairs => Value.ofPairs (pairs.map (fun p => (.text p.1, p.2)))

/-- A parameter that takes every value. -/
def anything : Taking Value := do
  match ← next? with
  | none => refuse .missingArgument
  | some arg => return ofArg arg

/-- An argument that is given: neither undefined nor `none`. -/
def given? : Taking (Option Arg) := do
  match ← next? with
  | some (.value .none) => return none
  | some (.value (.undefined _)) => return none
  | arg => return arg

/-- An optional parameter that takes every value, also an undefined one. -/
def anything? : Taking (Option Value) := do
  return (← next?).map ofArg

/-- The text of an argument. -/
def textOf (arg : Arg) : Taking String :=
  match arg with
  | .keywords _ => refuse .invalidOperation
  | .value (.undefined false) => refuse .undefinedValue
  | .value v => return v.toText

/-- A text parameter. -/
def text : Taking String := do
  match ← next? with
  | none => refuse .missingArgument
  | some arg => textOf arg

/-- An optional text parameter. -/
def text? : Taking (Option String) := do
  match ← given? with
  | none => return none
  | some arg => return some (← textOf arg)

/-- The boolean of an argument. -/
def flagOf (arg : Arg) : Taking Bool :=
  match arg with
  | .value (.bool b) => return b
  | _ => refuse .invalidOperation

/-- Whether an optional argument counts as true; the ordinary undefined value does not tell. -/
def truth? : Taking Bool := do
  match ← anything? with
  | none => return false
  | some (.undefined false) => refuse .undefinedValue
  | some v => return v.isTrue

/-- The whole number of an argument, of sixty-four bits. -/
def wholeOf (arg : Arg) : Taking Int :=
  match arg with
  | .value v =>
    match v.index? with
    | some i => return i
    | none => refuse .invalidOperation
  | .keywords _ => refuse .invalidOperation

/-- A whole number. -/
def whole : Taking Int := do
  match ← next? with
  | none => refuse .missingArgument
  | some arg => wholeOf arg

/-- An optional whole number. -/
def whole? : Taking (Option Int) := do
  match ← given? with
  | none => return none
  | some arg => return some (← wholeOf arg)

/-- The arguments with keywords. -/
def keywords : Taking (List (String × Value)) := do
  match ← get with
  | [.keywords pairs] => set ([] : List Arg); return pairs
  | _ => return []

/-- Nothing may be left. -/
def finish : Taking Unit := do
  if !(← get).isEmpty then refuse .tooManyArguments

/-- Calls with the given arguments. -/
def call {α : Type} (t : Taking α) (args : List Arg) : Outcome α := do
  return (← t.run args).1

end Taking

end AvroCodegen
