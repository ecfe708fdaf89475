import AvroCodegen.Generator.Run
import AvroCodegen.Proofs.Answer
import Mathlib.Data.List.TakeWhile

set_option autoImplicit false

/-! # What a command is called with

Two functions share the work on a command. The one puts the directory of the run before a program of
several steps, and does so in the text; the other cuts the text into words, of which the first is the
program. Between the two nothing marks where the directory ends.

So the arguments come through as they are, whatever the directory (`Command.words_resolve`), but the
program does so only if the directory has no white space in it: else it is cut to pieces, and the first
piece is called (`Command.words_resolve_spaced`). What the words of a text are is said without the
cutting, by `Text.Worded`. -/

namespace AvroCodegen

/-! ## Words of a text -/

namespace Text

variable {s t : List Char} {ws : List (List Char)} {c : Char}

/-- A text without white space. -/
def Unbroken (s : List Char) : Prop :=
  ∀ c ∈ s, isBlank c = false

instance (s : List Char) : Decidable (Unbroken s) :=
  List.decidableBAll _ s

theorem unbroken_append : Unbroken (s ++ t) ↔ Unbroken s ∧ Unbroken t :=
  List.forall_mem_append

/-- The words that stand in a text, in order. None is empty or has white space in it, and behind each
    stands white space or nothing. -/
inductive Worded : List (List Char) → List Char → Prop where
  | nothing : Worded [] []
  | blank {c : Char} {ws : List (List Char)} {s : List Char} :
      isBlank c = true → Worded ws s → Worded ws (c :: s)
  | word {w : List Char} {ws : List (List Char)} {s : List Char} :
      w ≠ [] → Unbroken w → wordEnds s = true → Worded ws s → Worded (w :: ws) (w ++ s)

theorem Worded.unbroken (h : Worded ws s) : ∀ w ∈ ws, w ≠ [] ∧ Unbroken w := by
  induction h with
  | nothing => simp
  | blank _ _ ih => exact ih
  | word hne hw _ _ ih => exact List.forall_mem_cons.2 ⟨⟨hne, hw⟩, ih⟩

/-- A text that does not begin with white space begins with its first word. -/
theorem Worded.of_not_blank {w : List Char} (h : Worded (w :: ws) s)
    (hs : ∀ c ∈ s.head?, isBlank c = false) : ∃ t, s = w ++ t ∧ wordEnds t = true ∧ Worded ws t := by
  cases h with
  | blank hc _ => simp [hc] at hs
  | word _ _ hends hrest => exact ⟨_, rfl, hends, hrest⟩

theorem beginWord_ne_nil (c : Char) (apart : Bool) (ws : List (List Char)) :
    beginWord c apart ws ≠ [] := by
  cases ws <;> cases apart <;> simp [beginWord]

theorem beginWord_append {apart : Bool} (h : ws = [] → apart = true) (vs : List (List Char)) :
    beginWord c apart (ws ++ vs) = beginWord c apart ws ++ vs := by
  cases ws with
  | nil =>
      rw [h rfl]
      cases vs <;> rfl
  | cons w ws => cases apart <;> rfl

theorem words_of_not_blank (h : isBlank c = false) (cs : List Char) :
    words (c :: cs) = beginWord c (wordEnds cs) (words cs) := by
  rw [words, if_neg (by simp [h])]

theorem wordEnds_of_words (h : words s = []) : wordEnds s = true := by
  cases s with
  | nil => rfl
  | cons c s =>
      cases hc : isBlank c with
      | true => exact hc
      | false =>
          rw [words_of_not_blank hc] at h
          exact absurd h (beginWord_ne_nil _ _ _)

theorem wordEnds_append (s : List Char) (ht : wordEnds t = true) :
    wordEnds (s ++ t) = wordEnds s := by
  cases s with
  | nil => exact ht
  | cons c s => rfl

/-- A text may be parted before white space. -/
theorem words_append (s : List Char) (ht : wordEnds t = true) :
    words (s ++ t) = words s ++ words t := by
  induction s with
  | nil => rfl
  | cons c s ih =>
      rw [List.cons_append]
      cases hc : isBlank c with
      | true => rw [words_of_blank hc, words_of_blank hc, ih]
      | false =>
          -- the word that begins here ends in front of `t`, also if nothing but it is left of `s`
          rw [words_of_not_blank hc, words_of_not_blank hc, ih, wordEnds_append s ht,
            beginWord_append wordEnds_of_words]

theorem words_of_unbroken (hne : s ≠ []) (h : Unbroken s) : words s = [s] := by
  induction s with
  | nil => exact absurd rfl hne
  | cons c s ih =>
      have hs : Unbroken s := fun d hd => h d (.tail _ hd)
      rw [words_of_not_blank (h c (by simp))]
      cases s with
      | nil => rfl
      | cons d s =>
          rw [ih (by simp) hs, wordEnds, hs d (by simp)]
          rfl

/-- A character in front of a text is a word of its own, or makes the first word longer. -/
theorem Worded.beginWord (h : Worded ws s) (hc : isBlank c = false) :
    Worded (Text.beginWord c (wordEnds s) ws) (c :: s) := by
  cases hends : wordEnds s with
  | true =>
      have hbegin : Text.beginWord c true ws = [c] :: ws := by cases ws <;> rfl
      rw [hbegin]
      exact .word (w := [c]) (by simp) (by simpa [Unbroken] using hc) hends h
  | false =>
      -- the text goes on with a letter, so it begins with a word
      cases h with
      | nothing => simp [wordEnds] at hends
      | blank hd _ => simp [wordEnds, hd] at hends
      | @word w ws s hne hw hs hrest =>
          exact .word (w := c :: w) (by simp) (List.forall_mem_cons.2 ⟨hc, hw⟩) hs hrest

theorem worded_words (s : List Char) : Worded (words s) s := by
  induction s with
  | nil => exact .nothing
  | cons c s ih =>
      cases hc : isBlank c with
      | true =>
          rw [words_of_blank hc]
          exact .blank hc ih
      | false =>
          rw [words_of_not_blank hc]
          exact ih.beginWord hc

theorem Worded.words_eq (h : Worded ws s) : words s = ws := by
  induction h with
  | nothing => rfl
  | blank hc _ ih => rw [words_of_blank hc, ih]
  | word hne hw hs _ ih =>
      rw [words_append _ hs, words_of_unbroken hne hw, ih]
      rfl

/-- Cutting finds the words that stand in a text. -/
theorem words_eq_iff : words s = ws ↔ Worded ws s :=
  ⟨fun h => h ▸ worded_words s, Worded.words_eq⟩

theorem words_eq_singleton_iff : words s = [s] ↔ s ≠ [] ∧ Unbroken s :=
  ⟨fun h => (words_eq_iff.1 h).unbroken s (by simp), fun ⟨hne, h⟩ => words_of_unbroken hne h⟩

/-! ### White space at the ends -/

theorem words_of_blanks (h : ∀ c ∈ s, isBlank c = true) : words s = [] := by
  induction s with
  | nil => rfl
  | cons c s ih =>
      rw [words_of_blank (h c (by simp))]
      exact ih fun d hd => h d (.tail _ hd)

theorem words_trimStart (s : List Char) : words (trimStart s) = words s := by
  induction s with
  | nil => rfl
  | cons c s ih =>
      cases hc : isBlank c with
      | true =>
          rw [words_of_blank hc, ← ih, trimStart, List.dropWhile_cons_of_pos hc]
          rfl
      | false => rw [trimStart, List.dropWhile_cons_of_neg (by simp [hc])]

theorem exists_trimEnd (s : List Char) :
    ∃ back, s = trimEnd s ++ back ∧ ∀ c ∈ back, isBlank c = true := by
  refine ⟨(s.reverse.takeWhile isBlank).reverse, ?_, fun c hc => ?_⟩
  · rw [trimEnd, ← List.reverse_append, List.takeWhile_append_dropWhile, List.reverse_reverse]
  · exact List.mem_takeWhile_imp (List.mem_reverse.1 hc)

theorem words_trim (s : List Char) : words (trim s) = words s := by
  obtain ⟨back, hback, hblank⟩ := exists_trimEnd (trimStart s)
  have hwords := words_of_blanks hblank
  calc words (trim s) = words (trim s) ++ words back := by rw [hwords, List.append_nil]
    _ = words (trimEnd (trimStart s) ++ back) := (words_append _ (wordEnds_of_words hwords)).symm
    _ = words s := by rw [← hback, words_trimStart]

theorem head?_trim (s : List Char) : ∀ c ∈ (trim s).head?, isBlank c = false := by
  intro c hc
  obtain ⟨back, hback, _⟩ := exists_trimEnd (trimStart s)
  have hhead : (trimStart s).head? = some c := by
    rw [hback, List.head?_append, ← trim, hc]
    rfl
  have hnot := List.head?_dropWhile_not isBlank s
  rw [← trimStart, hhead] at hnot
  simpa using hnot

end Text

/-! ## Words of a command -/

namespace Command

variable {command program : String} {args : List String} {base : Path}

/-- A program that is looked for below the directory: it has a slash, and not in front. -/
def Stepped (program : String) : Prop :=
  '/' ∈ program.toList ∧ program.toList.head? ≠ some '/'

instance (program : String) : Decidable (Stepped program) :=
  inferInstanceAs (Decidable (_ ∧ _))

/-- Where a program is looked for. -/
def located (base : Path) (program : String) : String :=
  if Stepped program then base ++ "/" ++ program else program

/-- The words that a command is called with if it has the given words and a directory is put before it:
    the arguments stay, the program may become several words. -/
def started (base : Path) : List String → List String
  | [] => []
  | program :: args => words (located base program) ++ args

theorem isRelative_iff (program : String) : isRelative program.toList = true ↔ Stepped program := by
  simp [isRelative, Stepped, and_comm]

theorem map_toList_words (command : String) :
    (words command).map String.toList = Text.words command.toList := by
  simp [words, Function.comp_def]

theorem words_eq_iff {ws : List String} :
    words command = ws ↔ Text.Worded (ws.map String.toList) command.toList := by
  rw [← Text.words_eq_iff, ← map_toList_words]
  exact (List.map_injective_iff.2 fun _ _ => String.toList_inj.1).eq_iff.symm

theorem words_append {back : String} (front : String) (h : Text.wordEnds back.toList = true) :
    words (front ++ back) = words front ++ words back := by
  rw [words, String.toList_append, Text.words_append _ h, List.map_append]
  rfl

theorem words_ofList (s : List Char) : words (String.ofList s) = (Text.words s).map String.ofList := by
  rw [words, String.toList_ofList]

theorem words_trimString (s : String) : words (Text.trimString s) = words s := by
  rw [Text.trimString, words_ofList, Text.words_trim]
  rfl

/-- A word of a command is not empty and has no white space in it. -/
theorem of_mem_words (h : program ∈ words command) :
    program.toList ≠ [] ∧ Text.Unbroken program.toList :=
  (words_eq_iff.1 rfl).unbroken _ (List.mem_map_of_mem h)

theorem words_eq_singleton_iff {word : String} :
    words word = [word] ↔ word.toList ≠ [] ∧ Text.Unbroken word.toList := by
  rw [words_eq_iff, ← Text.words_eq_iff]
  exact Text.words_eq_singleton_iff

theorem words_trim (command : String) :
    Text.words (Text.trim command.toList) = (words command).map String.toList := by
  rw [Text.words_trim, map_toList_words]

/-- Trimmed, a command is its program and what stands behind it, from white space on. -/
theorem exists_trim (h : words command = program :: args) :
    ∃ back, Text.trim command.toList = program.toList ++ back.toList ∧
      Text.wordEnds back.toList = true ∧ words back = args := by
  have htext := words_trim command
  rw [h, Text.words_eq_iff] at htext
  obtain ⟨back, htrim, hends, hargs⟩ := htext.of_not_blank (Text.head?_trim _)
  rw [← String.toList_ofList (l := back)] at htrim hends hargs
  exact ⟨String.ofList back, htrim, hends, words_eq_iff.2 hargs⟩

/-- A directory that is put before a command is put before its program and leaves the rest. -/
theorem exists_resolve (h : words command = program :: args) (base : Path) :
    ∃ back, resolve command base = located base program ++ back ∧
      Text.wordEnds back.toList = true ∧ words back = args := by
  obtain ⟨back, htrim, hends, hargs⟩ := exists_trim h
  refine ⟨back, ?_, hends, hargs⟩
  have hfirst : (Text.words (Text.trim command.toList)).headD [] = program.toList := by
    rw [words_trim, h]
    rfl
  unfold resolve located
  simp only [hfirst, isRelative_iff]
  rw [htrim, String.ofList_append, String.ofList_toList, String.ofList_toList]
  split <;> simp only [String.append_assoc]

/-- Resolving changes what stands where the program was, and only that. -/
theorem words_resolve_eq (command : String) (base : Path) :
    words (resolve command base) = started base (words command) := by
  cases hwords : words command with
  | nil =>
      have hnone : Text.words (Text.trim command.toList) = [] := by
        rw [words_trim, hwords]
        rfl
      rw [resolve, hnone, if_neg (by decide), words_ofList, hnone]
      rfl
  | cons program args =>
      obtain ⟨back, hresolve, hends, hargs⟩ := exists_resolve hwords base
      rw [hresolve, words_append _ hends, hargs]
      rfl

/-- A directory keeps a program one word if it has no white space, or is not put before the program. -/
theorem words_located_iff (h : program ∈ words command) (base : Path) :
    words (located base program) = [located base program] ↔
      (Stepped program → Text.Unbroken base.toList) := by
  obtain ⟨hne, hunbroken⟩ := of_mem_words h
  rw [words_eq_singleton_iff, located]
  by_cases hstepped : Stepped program
  · have hslash : Text.Unbroken "/".toList := by decide +kernel
    have hsplit : Text.Unbroken (base ++ "/" ++ program).toList ↔ Text.Unbroken base.toList := by
      simp only [String.toList_append, Text.unbroken_append]
      exact ⟨fun hall => hall.1.1, fun hbase => ⟨⟨hbase, hslash⟩, hunbroken⟩⟩
    rw [if_pos hstepped, hsplit]
    simp [hstepped]
  · simp [hstepped, hne, hunbroken]

/-- **What a command is called with.** The words of a command are those that stand in its text. Once its
    directory is put before it, they are the words of the located program, and behind them all arguments
    as they were. So the program is the only word that changes, and it is one word still, exactly where
    no directory with white space is put before it. -/
theorem words_resolve (command : String) (base : Path) :
    (∀ ws, words command = ws ↔ Text.Worded (ws.map String.toList) command.toList) ∧
    words (resolve command base) = started base (words command) ∧
    (words (resolve command base) = (words command).modifyHead (located base) ↔
      ∀ program ∈ (words command).head?, Stepped program → Text.Unbroken base.toList) := by
  refine ⟨fun ws => words_eq_iff, words_resolve_eq command base, ?_⟩
  rw [words_resolve_eq]
  cases hwords : words command with
  | nil => simp [started]
  | cons program args =>
      have hmem : program ∈ words command := by simp [hwords]
      calc started base (program :: args) = (program :: args).modifyHead (located base)
          ↔ words (located base program) ++ args = [located base program] ++ args := Iff.rfl
        _ ↔ words (located base program) = [located base program] := List.append_left_inj args
        _ ↔ (Stepped program → Text.Unbroken base.toList) := words_located_iff hmem base
        _ ↔ _ := by simp

/-- In a directory with white space, its name up to there is called and not the script in it. -/
theorem words_resolve_spaced :
    words "./gen.sh a" = ["./gen.sh", "a"] ∧
    words (resolve "./gen.sh a" "/my dir") = ["/my", "dir/./gen.sh", "a"] ∧
    words (resolve "./gen.sh a" "/my dir") ≠ (words "./gen.sh a").modifyHead (located "/my dir") := by
  decide +kernel

theorem words_resolve_project :
    words (resolve "\tscripts/gen.sh  a /b\n" "/work/my-project") =
      ["/work/my-project/scripts/gen.sh", "a", "/b"] := by
  obtain ⟨_, _, hsurvives⟩ := words_resolve "\tscripts/gen.sh  a /b\n" "/work/my-project"
  rw [hsurvives.2 fun _ _ _ => by decide +kernel]
  decide +kernel

end Command

/-! ## The command of a run -/

namespace Generator

/-- The command of a run is called with the words of the rendered text, the program located below the
    directory of the run. -/
theorem words_commandOf {E σ : Type} [TemplateEngine E] {g : Generator} {ctx : RunContext E σ} {env : E}
    {files : List Path} {command : String} (hpost : g.config.postCall.isSome)
    (h : g.commandOf ctx env files = .ok command) :
    ∃ text, TemplateEngine.render env "@post-call"
        (extend ctx.values [("files", Value.ofTexts files), ("generator", .text g.name)]) = .ok text ∧
      Command.words command = Command.started ctx.base (Command.words text) := by
  obtain ⟨declared, hdeclared⟩ := Option.isSome_iff_exists.1 hpost
  obtain ⟨inlined, hinline, hcommand⟩ := Answer.of_bind_ok h
  rw [hdeclared] at hinline
  obtain ⟨text, hrender, htext⟩ := Answer.of_bind_ok hinline
  refine ⟨text, hrender, ?_⟩
  rw [← Except.ok.inj hcommand, Command.words_resolve_eq, ← Except.ok.inj htext,
    Command.words_trimString]

end Generator

end AvroCodegen
