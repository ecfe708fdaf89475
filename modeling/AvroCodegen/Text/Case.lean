import AvroCodegen.Text.CaseTable
import AvroCodegen.Text.CasedTable

set_option autoImplicit false

/-! # Upper and lower case

The full case mapping of single characters, which may give several characters (`ß` becomes `SS`),
and of whole texts. Inside ASCII the mapping is core's own; beyond it the tables of
`Text/CaseTable.lean` decide. The one mapping that looks at its surroundings is the Greek sigma: at
the end of a word its small letter has the final form, where a word reaches as far as
`Text/CasedTable.lean` says. -/

namespace AvroCodegen.Text

/-- The character moved by the first range that covers it. -/
def shiftBy (ranges : List CaseRange) (c : Char) : Char :=
  match ranges.find? (fun r => r.covers c.toNat) with
  | some r => Char.ofNat (c.toNat + r.shift).toNat
  | none => c

/-- The upper case of one character. -/
def upperChar (c : Char) : List Char :=
  if c.toNat < 0x80 then [c.toUpper]
  else match upperExpansions.lookup c.toNat with
    | some cs => cs.map Char.ofNat
    | none => [shiftBy upperRanges c]

/-- The lower case of one character. -/
def lowerChar (c : Char) : List Char :=
  if c.toNat < 0x80 then [c.toLower]
  else match lowerExpansions.lookup c.toNat with
    | some cs => cs.map Char.ofNat
    | none => [shiftBy lowerRanges c]

/-- Whether a code point lies in one of some ranges. -/
def inRanges (ranges : List (Nat × Nat)) (n : Nat) : Bool :=
  ranges.any (fun r => r.1 ≤ n && n ≤ r.2)

/-- Characters that are letters of either case, or written like one. -/
def isCased (c : Char) : Bool :=
  inRanges casedRanges c.toNat

/-- Characters that a word may hold without ending: points, apostrophes, modifiers and marks. -/
def isCaseIgnorable (c : Char) : Bool :=
  inRanges caseIgnorableRanges c.toNat

/-- Whether the nearest character that case does not ignore is cased. -/
def touchesCased (s : List Char) : Bool :=
  match s.dropWhile isCaseIgnorable with
  | c :: _ => isCased c
  | [] => false

/-- Lower case read from left to right; `before` holds the characters passed, nearest first. -/
def lowerFrom (before : List Char) : List Char → List Char
  | [] => []
  | c :: cs =>
    let low :=
      if c.toNat == 0x3A3 then
        if touchesCased before && !touchesCased cs then [Char.ofNat 0x3C2] else [Char.ofNat 0x3C3]
      else lowerChar c
    low ++ lowerFrom (c :: before) cs

/-- The text in upper case. -/
def upper (s : String) : String :=
  String.ofList (s.toList.flatMap upperChar)

/-- The text in lower case. -/
def lower (s : String) : String :=
  String.ofList (lowerFrom [] s.toList)

/-- The first character in upper case and the rest in lower case. -/
def capitalize (s : String) : String :=
  match s.toList with
  | [] => ""
  | c :: cs => String.ofList (upperChar c ++ lowerFrom [] cs)

end AvroCodegen.Text
