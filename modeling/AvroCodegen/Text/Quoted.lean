import AvroCodegen.Text.HiddenTable

set_option autoImplicit false

/-! # Quoted text

A text inside a printed list or a message stands between double quotes. Quotes and backslashes are
written with a backslash, the common controls with their letter, and every other character without
a glyph of its own as its code point in hexadecimal between braces. -/

namespace AvroCodegen.Text

/-- The hexadecimal digits of a number, small letters, most significant first. -/
def hexDigits (n : Nat) : List Char :=
  Nat.toDigits 16 n

/-- Whether a character has no glyph of its own. -/
def isHidden (c : Char) : Bool :=
  let n := c.toNat
  n < 0x20 || n == 0x7F || (0x80 ≤ n && hiddenRanges.any (fun r => r.1 ≤ n && n ≤ r.2))

/-- One character as it stands between the quotes. -/
def quotedChar (c : Char) : List Char :=
  if c = '"' then ['\\', '"']
  else if c = '\\' then ['\\', '\\']
  else if c = '\n' then ['\\', 'n']
  else if c = '\r' then ['\\', 'r']
  else if c = '\t' then ['\\', 't']
  else if c = '\x00' then ['\\', '0']
  else if isHidden c then ['\\', 'u', '\x7b'] ++ hexDigits c.toNat ++ ['\x7d']
  else [c]

/-- The text between double quotes. -/
def quoted (s : String) : String :=
  String.ofList ('"' :: s.toList.flatMap quotedChar ++ ['"'])

end AvroCodegen.Text
