set_option autoImplicit false

/-! # White space

The white space of Unicode, and the two things done with it: `trim` drops it at both ends of a
text, `words` cuts a text at every run of it. A word is never empty and holds no white space. -/

namespace AvroCodegen.Text

/-- The twenty-five characters that Unicode calls white space. -/
def isBlank (c : Char) : Bool :=
  let n := c.toNat
  (0x9 ≤ n && n ≤ 0xD) || n == 0x20 || n == 0x85 || n == 0xA0 || n == 0x1680
    || (0x2000 ≤ n && n ≤ 0x200A) || n == 0x2028 || n == 0x2029 || n == 0x202F || n == 0x205F
    || n == 0x3000

/-- The text without its leading white space. -/
def trimStart (s : List Char) : List Char :=
  s.dropWhile isBlank

/-- The text without its trailing white space. -/
def trimEnd (s : List Char) : List Char :=
  (s.reverse.dropWhile isBlank).reverse

/-- The text without white space at either end. -/
def trim (s : List Char) : List Char :=
  trimEnd (trimStart s)

/-- Whether a text ends here or goes on with white space. -/
def wordEnds : List Char → Bool
  | [] => true
  | c :: _ => isBlank c

/-- Puts a character before some words: as a word of its own, or in front of the first one. -/
def beginWord (c : Char) (apart : Bool) : List (List Char) → List (List Char)
  | [] => [[c]]
  | w :: ws => if apart then [c] :: w :: ws else (c :: w) :: ws

/-- The maximal runs of characters that are not white space, in order. -/
def words : List Char → List (List Char)
  | [] => []
  | c :: cs => if isBlank c then words cs else beginWord c (wordEnds cs) (words cs)

/-- Trimming for whole strings. -/
def trimString (s : String) : String :=
  String.ofList (trim s.toList)

/-- Trailing white space removed, for whole strings. -/
def trimEndString (s : String) : String :=
  String.ofList (trimEnd s.toList)

/-! ## Blanks between words do not count -/

theorem words_of_blank {c : Char} (h : isBlank c = true) (cs : List Char) :
    words (c :: cs) = words cs := by
  rw [words, if_pos h]

end AvroCodegen.Text
