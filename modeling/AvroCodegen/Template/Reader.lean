import AvroCodegen.Template.Operator
import AvroCodegen.Template.Segment

set_option autoImplicit false

/-! # Reading templates

Expressions and tags are read from lexemes by descent. From the loosest to the tightest an
expression is built of: a choice with `if` and `else`; `or`; `and`; `not`; comparisons; sums; joined
texts; products; powers; and operands. An operand is a primary under minus signs, followed by
attributes, items, slices and calls, and then by filters and tests. Comparisons in a row make a
chain.

Tags, expressions and primaries nest to a limit, counted together. The steps of the descent are
bounded by a number that grows with the count of lexemes or segments; between two lexemes that are
read the descent takes fewer steps than that number allows each. -/

namespace AvroCodegen

/-- A step of reading an expression or tag: it takes lexemes from the front. It knows how deep it is
nested. -/
abbrev Parsing (α : Type) : Type := ReaderT Nat (StateT (List Lexeme) (Except TemplateProblem)) α

namespace Parsing

/-- How deep tags, expressions and primaries may nest. -/
def nestingLimit : Nat := 150

/-- Refuses what stands at the front. -/
def refuse {α : Type} : Parsing α := do
  match ← get with
  | .broken problem :: _ => throw problem
  | _ => throw .badSyntax

/-- Reads what is nested one deeper. -/
def nested {α : Type} (p : Parsing α) : Parsing α := do
  if nestingLimit ≤ (← read) then throw .badSyntax
  else withReader (· + 1) p

/-- Takes the first lexeme away. -/
def advance : Parsing Unit :=
  modify List.tail

/-- Whether the first lexeme is the given one. -/
def sees (l : Lexeme) : Parsing Bool := do
  return (← get).head? == some l

/-- Takes the given lexeme away if it is the first. -/
def skip (l : Lexeme) : Parsing Bool := do
  let found ← sees l
  if found then advance
  return found

/-- Takes the given lexeme, which must be there. -/
def expect (l : Lexeme) : Parsing Unit := do
  if !(← skip l) then refuse

/-- Takes a name, which must be there. -/
def takeName : Parsing String := do
  match ← get with
  | .name name :: rest => set rest; return name
  | _ => refuse

/-- Nothing may be left. -/
def finish : Parsing Unit := do
  if !(← get).isEmpty then refuse

/-- Takes a name of parts with points between, which must be there. -/
def takeDottedName : Nat → Parsing String
  | 0 => refuse
  | n + 1 => do
    let first ← takeName
    if ← skip (.sign ".") then return first ++ "." ++ (← takeDottedName n)
    else return first

/-- Takes the texts that follow a text; together they are one. -/
def takeTexts : Nat → String → Parsing String
  | 0, _ => refuse
  | n + 1, s => do
    match ← get with
    | .text t :: rest => set rest; takeTexts n (s ++ t)
    | _ => return s

/-- Runs a reader over all of some lexemes, at a depth. -/
def all {α : Type} (p : Parsing α) (depth : Nat) (lexemes : List Lexeme) :
    Except TemplateProblem α := do
  let (a, _) ← ((do let a ← p; finish; return a : Parsing α).run depth).run lexemes
  return a

end Parsing

namespace Expr

open Parsing

/-! ## Operators by tightness -/

/-- The expression of a binary operator. -/
def operate (op : BinaryOp) : Expr → Expr → Expr := .binary op

mutual

/-- The value of an expression that is the same in every scope: of literals alone, with
operators. -/
def constant? : Expr → Option Value
  | .value v => some v
  | .list items => (constants? items).map .list
  | .map pairs => (constantPairs? pairs).map Value.ofPairs
  | .unary op operand => (constant? operand).bind (fun v => (Value.operateUnary op v).toOption)
  | .binary op left right =>
    (constant? left).bind fun a => (constant? right).bind fun b => (Value.operate op a b).toOption
  | _ => none

/-- The values of expressions that are the same in every scope. -/
def constants? : List Expr → Option (List Value)
  | [] => some []
  | e :: rest => (constant? e).bind fun v => (constants? rest).map (v :: ·)

/-- The values of pairs that are the same in every scope. -/
def constantPairs? : List (Expr × Expr) → Option (List (Value × Value))
  | [] => some []
  | (k, e) :: rest =>
    (constant? k).bind fun key => (constant? e).bind fun v =>
      (constantPairs? rest).map ((key, v) :: ·)

end

/-- Both of two expressions: the operand that decides, but of two that are the same in every scope
plainly false where the first is. -/
def conjunction (left right : Expr) : Expr :=
  match left.constant?, right.constant? with
  | some a, some b => .value (if a.isTrue then b else .bool false)
  | _, _ => .both left right

/-- One of two expressions: the operand that decides. -/
def disjunction (left right : Expr) : Expr :=
  match left.constant?, right.constant? with
  | some a, some b => .value (if a.isTrue then a else b)
  | _, _ => .either left right

/-- The operator that a lexeme is at a level that groups to the left. -/
def operatorAt (level : Nat) (l : Lexeme) : Option (Expr → Expr → Expr) :=
  match level, l with
  | 0, .name "or" => some disjunction
  | 1, .name "and" => some conjunction
  | 3, .sign "+" => some (operate .add)
  | 3, .sign "-" => some (operate .subtract)
  | 4, .sign "~" => some (operate .concat)
  | 5, .sign "*" => some (operate .multiply)
  | 5, .sign "/" => some (operate .divide)
  | 5, .sign "//" => some (operate .floorDivide)
  | 5, .sign "%" => some (operate .remainder)
  | 6, .sign "**" => some (operate .power)
  | _, _ => none

/-- The comparison that a lexeme is. -/
def comparison? (l : Lexeme) : Option BinaryOp :=
  match l with
  | .sign "==" => some .equal
  | .sign "!=" => some .unequal
  | .sign "<" => some .less
  | .sign "<=" => some .lessEqual
  | .sign ">" => some .greater
  | .sign ">=" => some .greaterEqual
  | .name "in" => some .contains
  | _ => none

/-- An expression with the comparisons behind it. -/
def compared (first : Expr) (steps : List (Comparison × Expr)) : Expr :=
  match steps with
  | [] => first
  | [(c, e)] => if c.negated then .unary .not (.binary c.op first e) else .binary c.op first e
  | steps => .chain first steps

/-- The value of a lexeme that stands for one. -/
def literal? (l : Lexeme) : Option Value :=
  match l with
  | .name "true" => some (.bool true)
  | .name "True" => some (.bool true)
  | .name "false" => some (.bool false)
  | .name "False" => some (.bool false)
  | .name "none" => some .none
  | .name "None" => some .none
  | .text s => some (.text s)
  | .int n => some (.int n)
  | .real d => some (.real d)
  | _ => none

/-- Whether a lexeme behind the name of a test is its argument. -/
def beginsArgument (l : Lexeme) : Bool :=
  match l with
  | .name word => !(["and", "or", "else", "is"].contains word)
  | .text _ => true
  | .int _ => true
  | .real _ => true
  | .sign sign => ["+", "-", "[", "\x7b"].contains sign
  | .broken _ => false

/-! ## Descent -/

mutual

/-- An expression. -/
def read : Nat → Parsing Expr
  | 0 => refuse
  | n + 1 => nested do readChoice n (← readLevel n 0)

/-- What follows `if` after an expression. -/
def readChoice : Nat → Expr → Parsing Expr
  | 0, _ => refuse
  | n + 1, e => do
    if ← skip (.name "if") then
      let test ← readLevel n 0
      let other ← readElse n
      readChoice n (.choice test e other)
    else return e

/-- What follows `else`; without it the choice is silently undefined. -/
def readElse : Nat → Parsing Expr
  | 0 => refuse
  | n + 1 => do
    if ← skip (.name "else") then readChoice n (← readLevel n 0)
    else return .value (.undefined true)

/-- An expression of operators no looser than a level. -/
def readLevel : Nat → Nat → Parsing Expr
  | 0, _ => refuse
  | n + 1, level => do
    if level = 2 then readNot n
    else if 7 ≤ level then readOperand n
    else readOperators n level (← readLevel n (level + 1))

/-- The operators of a level that follow an expression. -/
def readOperators : Nat → Nat → Expr → Parsing Expr
  | 0, _, _ => refuse
  | n + 1, level, left => do
    match (← get).head?.bind (operatorAt level) with
    | none => return left
    | some op =>
      advance
      readOperators n level (op left (← readLevel n (level + 1)))

/-- A negation or a comparison. -/
def readNot : Nat → Parsing Expr
  | 0 => refuse
  | n + 1 => do
    if ← skip (.name "not") then return .unary .not (← readNot n)
    else
      let first ← readLevel n 3
      return compared first (← readComparisons n)

/-- The comparisons that follow an expression. -/
def readComparisons : Nat → Parsing (List (Comparison × Expr))
  | 0 => refuse
  | n + 1 => do
    if ← skip (.name "not") then
      expect (.name "in")
      let right ← readLevel n 3
      return (⟨.contains, true⟩, right) :: (← readComparisons n)
    else
      match (← get).head?.bind comparison? with
      | none => return []
      | some op =>
        advance
        let right ← readLevel n 3
        return (⟨op, false⟩, right) :: (← readComparisons n)

/-- An operand with all that follows it. -/
def readOperand : Nat → Parsing Expr
  | 0 => refuse
  | n + 1 => do readFilters n (← readPostfix n (← readSigned n))

/-- A primary under minus signs. -/
def readSigned : Nat → Parsing Expr
  | 0 => refuse
  | n + 1 => do
    if ← skip (.sign "-") then return .unary .negate (← readSigned n)
    else readPrimary n

/-- A literal, a name, or an expression in brackets. -/
def readPrimary : Nat → Parsing Expr
  | 0 => refuse
  | n + 1 => nested do
    match ← get with
    | .sign "(" :: rest =>
      set rest
      if ← skip (.sign ")") then return .list []
      else
        let e ← read n
        if ← skip (.sign ")") then return e
        else
          expect (.sign ",")
          return .list (e :: (← readItems n (.sign ")")))
    | .sign "[" :: rest =>
      set rest
      return .list (← readItems n (.sign "]"))
    | .sign "\x7b" :: rest =>
      set rest
      return .map (← readPairs n)
    | l :: rest =>
      match literal? l, l with
      | some (.text s), _ => set rest; return .value (.text (← takeTexts n s))
      | some v, _ => set rest; return .value v
      | none, .name word => set rest; return .name word
      | none, _ => refuse
    | [] => refuse

/-- Items up to a closing bracket. -/
def readItems : Nat → Lexeme → Parsing (List Expr)
  | 0, _ => refuse
  | n + 1, close => do
    if ← skip close then return []
    else
      let e ← read n
      if ← skip close then return [e]
      else
        expect (.sign ",")
        return e :: (← readItems n close)

/-- Pairs of a map up to the closing brace. -/
def readPairs : Nat → Parsing (List (Expr × Expr))
  | 0 => refuse
  | n + 1 => do
    if ← skip (.sign "\x7d") then return []
    else
      let key ← read n
      expect (.sign ":")
      let value ← read n
      if ← skip (.sign "\x7d") then return [(key, value)]
      else
        expect (.sign ",")
        return (key, value) :: (← readPairs n)

/-- Attributes, items, slices and calls. -/
def readPostfix : Nat → Expr → Parsing Expr
  | 0, _ => refuse
  | n + 1, e => do
    if ← skip (.sign ".") then
      match ← get with
      | .int place :: rest => set rest; readPostfix n (.item e (.value (.int place)))
      | _ => readPostfix n (.attribute e (← takeName))
    else if ← skip (.sign "[") then readPostfix n (← readSubscript n e)
    else if ← skip (.sign "(") then readPostfix n (.call e (← readArguments n false))
    else return e

/-- An item or slice whose opening bracket is read. -/
def readSubscript : Nat → Expr → Parsing Expr
  | 0, _ => refuse
  | n + 1, e => do
    let absent := Expr.value .none
    let start ← if ← sees (.sign ":") then pure none else some <$> read n
    if ← skip (.sign ":") then
      let stop ← if (← sees (.sign "]")) || (← sees (.sign ":")) then pure absent else read n
      let step ← if ← skip (.sign ":") then
          if ← sees (.sign "]") then pure absent else read n
        else pure absent
      expect (.sign "]")
      return .slice e (start.getD absent) stop step
    else
      expect (.sign "]")
      match start with
      | some key => return .item e key
      | none => refuse

/-- Arguments whose opening bracket is read; behind one with a keyword all have keywords. -/
def readArguments : Nat → Bool → Parsing (List (Option String × Expr))
  | 0, _ => refuse
  | n + 1, keyed => do
    if ← skip (.sign ")") then return []
    else
      let e ← read n
      let arg : Option String × Expr ← match e with
        | .name keyword => do
          if ← skip (.sign "=") then
            pure (some keyword, ← readLevel n 0)
          else pure (none, e)
        | e => pure (none, e)
      if keyed && arg.1.isNone then refuse
      else if ← skip (.sign ")") then return [arg]
      else
        expect (.sign ",")
        return arg :: (← readArguments n arg.1.isSome)

/-- Filters and tests. -/
def readFilters : Nat → Expr → Parsing Expr
  | 0, _ => refuse
  | n + 1, e => do
    if ← skip (.sign "|") then
      let name ← takeDottedName n
      let args ← if ← skip (.sign "(") then readArguments n false else pure []
      readFilters n (.filter name e args)
    else if ← skip (.name "is") then
      let negated ← skip (.name "not")
      let name ← takeDottedName n
      let args ← readTestArguments n
      let test := Expr.test name e args
      readFilters n (if negated then .unary .not test else test)
    else return e

/-- The arguments of a test: in brackets, or one operand without. -/
def readTestArguments : Nat → Parsing (List (Option String × Expr))
  | 0 => refuse
  | n + 1 => do
    if ← skip (.sign "(") then readArguments n false
    else if (← get).head?.any beginsArgument then
      return [(none, ← readPostfix n (← readSigned n))]
    else return []

end

/-- A bound for the descent over some lexemes. -/
def bound (lexemes : List Lexeme) : Nat :=
  20 * (lexemes.length + 1)

end Expr

namespace Statement

open Parsing

/-! ## Tags -/

/-- Names that cannot be bound. -/
def reserved : List String :=
  ["true", "True", "false", "False", "none", "None", "loop", "self"]

/-- A name to bind. -/
def readBinding : Parsing Target := do
  let name ← takeName
  if reserved.contains name then throw .badSyntax
  else return .name name

mutual

/-- What is bound: one name, or several with commas between. -/
def readTarget : Nat → Parsing Target
  | 0 => refuse
  | n + 1 => do
    let first ← readTargetPart n
    if ← sees (.sign ",") then return .list (first :: (← readTargets n))
    else return first

/-- One of several names, or a bracket around more. -/
def readTargetPart : Nat → Parsing Target
  | 0 => refuse
  | n + 1 => do
    if ← skip (.sign "(") then
      let t ← readTarget n
      expect (.sign ")")
      return t
    else readBinding

/-- The names after the first, each behind a comma; the last comma may end the list. -/
def readTargets : Nat → Parsing (List Target)
  | 0 => refuse
  | n + 1 => do
    if ← skip (.sign ",") then
      if (← sees (.sign ")")) || (← sees (.name "in")) || (← get).isEmpty then return []
      else
        let t ← readTargetPart n
        return t :: (← readTargets n)
    else return []

end

/-- The filters of a block assignment, each behind a bar. -/
def readFilterCalls : Nat → Parsing (List FilterCall)
  | 0 => refuse
  | n + 1 => do
    let name ← takeDottedName n
    let args ← if ← skip (.sign "(") then Expr.readArguments n false else pure []
    if ← skip (.sign "|") then return ⟨name, args⟩ :: (← readFilterCalls n)
    else return [⟨name, args⟩]

/-- The head of a loop: what is bound, what the loop goes over, the condition on items, and whether
the loop can be called from its body. -/
def readLoopHead (n : Nat) : Parsing (Target × Expr × Option Expr × Bool) := do
  let target ← readTarget n
  expect (.name "in")
  let source ← Expr.readLevel n 0
  let only ← if ← skip (.name "if") then some <$> Expr.read n else pure none
  let recursive ← skip (.name "recursive")
  finish
  return (target, source, only, recursive)

/-- The attributes behind a name; nothing can be bound to the last of them. -/
def readMember : Nat → Expr → Parsing Target
  | 0, _ => refuse
  | n + 1, owner => do
    let name ← takeName
    if ← skip (.sign ".") then readMember n (.attribute owner name)
    else return .attribute owner

/-- One part of what an assignment binds: a name, an attribute, or a bracket around more. -/
def readAssigned (n : Nat) : Parsing Target := do
  if ← skip (.sign "(") then
    let t ← readTarget n
    expect (.sign ")")
    return t
  else
    match ← readBinding with
    | .name name => if ← skip (.sign ".") then readMember n (.name name) else return .name name
    | t => return t

/-- The further parts of what an assignment binds, each behind a comma. -/
def readMoreAssigned : Nat → Parsing (List Target)
  | 0 => refuse
  | n + 1 => do
    if ← skip (.sign ",") then
      let t ← readAssigned n
      return t :: (← readMoreAssigned n)
    else return []

/-- The further values of an assignment, each behind a comma; the last comma may end them. -/
def readMoreValues : Nat → Parsing (List Expr)
  | 0 => refuse
  | n + 1 => do
    if ← skip (.sign ",") then
      if (← get).isEmpty then return []
      else
        let e ← Expr.read n
        return e :: (← readMoreValues n)
    else return []

/-- The value of an assignment: one expression, or a list of several. -/
def readAssignedValue (n : Nat) : Parsing Expr := do
  let e ← Expr.read n
  if ← sees (.sign ",") then return .list (e :: (← readMoreValues n))
  else return e

/-- The head of an assignment: a value, or the filters of the block that follows. A block is
assigned to a name or an attribute, neither in brackets nor with others. -/
def readAssignHead (n : Nat) : Parsing (Target × (Expr ⊕ List FilterCall)) := do
  let bracketed ← sees (.sign "(")
  let first ← readAssigned n
  let more ← readMoreAssigned n
  let target := if more.isEmpty then first else .list (first :: more)
  let single := !bracketed && more.isEmpty
  if single && (← get).isEmpty then return (target, .inr [])
  else if single && (← skip (.sign "|")) then
    let filters ← readFilterCalls n
    finish
    return (target, .inr filters)
  else
    expect (.sign "=")
    let e ← readAssignedValue n
    finish
    return (target, .inl e)

/-- The words that say whether a template is included with the context, which it always is. -/
def readContext : Parsing Unit := do
  if (← skip (.name "with")) || (← skip (.name "without")) then expect (.name "context")

/-- An include. -/
def readInclude (n : Nat) : Parsing Statement := do
  let names ← Expr.read n
  readContext
  let ignored ← skip (.name "ignore")
  if ignored then
    expect (.name "missing")
    readContext
  finish
  return .include names ignored

/-! ## Statements -/

/-- A step of reading statements: it takes segments from the front. It knows how deep it is
nested. -/
abbrev Nesting (α : Type) : Type := ReaderT Nat (StateT (List Segment) (Except TemplateProblem)) α

/-- Reads all of some lexemes inside a nest. -/
def lexed {α : Type} (p : Nat → Parsing α) (lexemes : List Lexeme) : Nesting α := do
  match Parsing.all (p (Expr.bound lexemes)) (← read) lexemes with
  | .ok a => return a
  | .error problem => throw problem

/-- Reads a tag, which is nested one deeper. -/
def nestedTag {α : Type} (p : Nesting α) : Nesting α := do
  if nestingLimit ≤ (← read) then throw .badSyntax
  else withReader (· + 1) p

/-- The name that a tag begins with, and the lexemes behind it. -/
def tagName (lexemes : List Lexeme) : Nesting (String × List Lexeme) := do
  match lexemes with
  | .name name :: rest => return (name, rest)
  | .broken problem :: _ => throw problem
  | _ => throw .badSyntax

/-- Nothing may be left of a tag. -/
def noMore (lexemes : List Lexeme) : Nesting Unit :=
  lexed (fun _ => pure ()) lexemes

mutual

/-- Statements up to one of the given tags, with the name of the tag and what stands behind the
name; without tags, up to the end. -/
def readBody : Nat → List String → Nesting (List Statement × String × List Lexeme)
  | 0, _ => throw .badSyntax
  | n + 1, ends => do
    match ← get with
    | [] => if ends.isEmpty then return ([], "", []) else throw .badSyntax
    | segment :: rest =>
      set rest
      match segment with
      | .broken problem => throw problem
      | .text content =>
        let (others, stop) ← readBody n ends
        return (.text content :: others, stop)
      | .print lexemes =>
        let e ← lexed Expr.read lexemes
        let (others, stop) ← readBody n ends
        return (.print e :: others, stop)
      | .tag lexemes =>
        let (name, behind) ← tagName lexemes
        if ends.contains name then return ([], name, behind)
        else
          let s ← readTag n name behind
          let (others, stop) ← readBody n ends
          return (s :: others, stop)

/-- The statement of a tag. -/
def readTag : Nat → String → List Lexeme → Nesting Statement
  | 0, _, _ => throw .badSyntax
  | n + 1, name, lexemes => nestedTag do
    match name with
    | "if" => readBranch n lexemes
    | "for" =>
      let (target, source, only, recursive) ← lexed readLoopHead lexemes
      let (body, stop, behind) ← readBody n ["endfor", "else"]
      noMore behind
      if stop = "else" then
        let (otherwise, _, behind) ← readBody n ["endfor"]
        noMore behind
        return .repeat target source only recursive body otherwise
      else return .repeat target source only recursive body []
    | "set" =>
      match ← lexed readAssignHead lexemes with
      | (target, .inl e) => return .assign target e
      | (target, .inr filters) =>
        let (body, _, behind) ← readBody n ["endset"]
        noMore behind
        return .capture target filters body
    | "include" => lexed readInclude lexemes
    | _ => throw .badSyntax

/-- A branch whose `if` is read. -/
def readBranch : Nat → List Lexeme → Nesting Statement
  | 0, _ => throw .badSyntax
  | n + 1, lexemes => do
    let test ← lexed Expr.read lexemes
    let (body, stop, behind) ← readBody n ["endif", "else", "elif"]
    match stop with
    | "elif" => return .branch test body [← readBranch n behind]
    | "else" =>
      noMore behind
      let (otherwise, _, behind) ← readBody n ["endif"]
      noMore behind
      return .branch test body otherwise
    | _ =>
      noMore behind
      return .branch test body []

end

end Statement

namespace Template

/-- Reads a template text. -/
def read (source : String) : Except TemplateProblem Template := do
  let segments := Segment.all source
  let ((statements, _), _) ←
    ((Statement.readBody (4 * (segments.length + 1)) []).run 0).run segments
  return statements

end Template

end AvroCodegen
