import AvroCodegen.Text.Case

set_option autoImplicit false

/-! # Spellings of an identifier

Snake case marks every ASCII capital by an underscore before its small letter, except that the
first character of the text takes no underscore. Camel case takes every underscore away together
with the case of the character after it, which becomes upper case; an underscore at the end of a
line stays; then the first character becomes lower case. -/

namespace AvroCodegen.Text

/-- A character inside a snake-case text: a capital is written as underscore and small letter. -/
def snakeChar (c : Char) : List Char :=
  if c.isUpper then ['_', c.toLower] else [c]

/-- Snake case over characters. -/
def snakeChars : List Char → List Char
  | [] => []
  | c :: cs => c.toLower :: cs.flatMap snakeChar

/-- Every underscore that a character follows on its line is dropped and raises that character. -/
def joinHumps : List Char → List Char
  | [] => []
  | [c] => [c]
  | c :: d :: rest =>
    if c = '_' then
      if d = '\n' then c :: d :: joinHumps rest else upperChar d ++ joinHumps rest
    else c :: joinHumps (d :: rest)

/-- Camel case over characters. -/
def camelChars (s : List Char) : List Char :=
  match joinHumps s with
  | [] => []
  | c :: cs => lowerChar c ++ cs

/-- The snake-case spelling, as in `order_item`. -/
def snakeCase (s : String) : String :=
  String.ofList (snakeChars s.toList)

/-- The camel-case spelling, as in `orderItem`. -/
def camelCase (s : String) : String :=
  String.ofList (camelChars s.toList)

/-! ## Laws of one character -/

theorem snakeChar_of_not_upper {c : Char} (h : c.isUpper = false) : snakeChar c = [c] := by
  simp [snakeChar, h]

theorem snakeChars_cons (c : Char) (cs : List Char) :
    snakeChars (c :: cs) = c.toLower :: cs.flatMap snakeChar := rfl

end AvroCodegen.Text
