import AvroCodegen.Json.Basic

set_option autoImplicit false

/-! # Writing JSON text

The compact text of a value: no white space, members in the order they have, only those characters
escaped that must be. A float has the fewest digits that read back, without exponent from `0.00001`
up to sixteen places before the point; an exponent has a sign. -/

namespace AvroCodegen.Json

/-- Floats are positional while the point stands at most sixteen places in, or five before. -/
def layout : Decimal.Layout := ⟨fun point => -5 < point && point ≤ 16, true, .toEven⟩

/-- The text of a number. -/
def numberText : JsonNumber → String
  | .int n => toString n
  | .real x => layout.text x

/-- Two hexadecimal digits of a small number. -/
def hexPair (n : Nat) : List Char :=
  [Nat.digitChar (n / 16), Nat.digitChar (n % 16)]

/-- One character as it stands between the quotes. -/
def escapedChar (c : Char) : List Char :=
  if c = '"' then ['\\', '"']
  else if c = '\\' then ['\\', '\\']
  else if c = '\n' then ['\\', 'n']
  else if c = '\r' then ['\\', 'r']
  else if c = '\t' then ['\\', 't']
  else if c = '\x08' then ['\\', 'b']
  else if c = '\x0c' then ['\\', 'f']
  else if c.toNat < 0x20 then ['\\', 'u', '0', '0'] ++ hexPair c.toNat
  else [c]

/-- A string with its quotes. -/
def stringText (s : String) : String :=
  String.ofList ('"' :: s.toList.flatMap escapedChar ++ ['"'])

mutual

/-- The compact text of a value. -/
def text : Json → String
  | .null => "null"
  | .bool true => "true"
  | .bool false => "false"
  | .num n => numberText n
  | .str s => stringText s
  | .arr items => "[" ++ String.intercalate "," (itemTexts items) ++ "]"
  | .obj members => "\x7b" ++ String.intercalate "," (memberTexts members) ++ "\x7d"

/-- The texts of the items. -/
def itemTexts : List Json → List String
  | [] => []
  | v :: rest => text v :: itemTexts rest

/-- The texts of the members, key and value joined by a colon. -/
def memberTexts : List (String × Json) → List String
  | [] => []
  | (k, v) :: rest => (stringText k ++ ":" ++ text v) :: memberTexts rest

end

end AvroCodegen.Json
