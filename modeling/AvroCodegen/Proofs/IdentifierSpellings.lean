import AvroCodegen.Text.Identifier
import Mathlib.Data.List.Basic
import Mathlib.Data.List.Induction

set_option autoImplicit false

/-! # From one spelling to the other and back

Snake case and camel case are undone by each other, each from its own side. An underscore that
`snakeChars` puts before a small letter is the one that `joinHumps` takes away, so a text without
underscores comes back with only its first character changed. The other way round the underscores
have to be of that kind already: not in front, and each before a letter (`IsSnake`).

`snakeChars` leaves no capital, and where there is none it does nothing. -/

namespace AvroCodegen.Text

/-- The first character in lower case and the rest as it is. -/
def lowerFirst (s : String) : String :=
  match s.toList with
  | [] => ""
  | c :: cs => String.ofList (lowerChar c ++ cs)

/-- Small letters, digits and underscores. The first character is no underscore, and behind each
    underscore comes a letter. -/
structure IsSnake (s : List Char) : Prop where
  chars : ∀ c ∈ s, c.isLower ∨ c.isDigit ∨ c = '_'
  start : s.head? ≠ some '_'
  followed : ∀ i < s.length, s[i]? = some '_' → (s[i + 1]?).any Char.isAlpha

variable {c : Char} {cs : List Char}

/-! ## Case of one character -/

theorem isUpper_iff : c.isUpper = true ↔ 'A'.toNat ≤ c.toNat ∧ c.toNat ≤ 'Z'.toNat :=
  decide_eq_true_iff

theorem isLower_iff : c.isLower = true ↔ 'a'.toNat ≤ c.toNat ∧ c.toNat ≤ 'z'.toNat :=
  Bool.and_eq_true_iff.trans (and_congr decide_eq_true_iff decide_eq_true_iff)

theorem toNat_lt_of_isLower (h : c.isLower = true) : c.toNat < 0x80 :=
  Nat.lt_of_le_of_lt (isLower_iff.1 h).2 (by decide)

theorem toNat_lt_of_isUpper (h : c.isUpper = true) : c.toNat < 0x80 :=
  Nat.lt_of_le_of_lt (isUpper_iff.1 h).2 (by decide)

/-- The table of ASCII: a capital and its small letter lead to each other, and a small letter is no
    capital. -/
theorem casing_ofNat : ∀ n < 0x80,
    ((Char.ofNat n).isUpper = true →
      (Char.ofNat n).toLower.isLower = true ∧ (Char.ofNat n).toLower.toUpper = Char.ofNat n) ∧
    ((Char.ofNat n).isLower = true → (Char.ofNat n).isUpper = false ∧
      (Char.ofNat n).toUpper.isUpper = true ∧ (Char.ofNat n).toUpper.toLower = Char.ofNat n) := by
  decide +kernel

/-- The small letter of a capital, and the way back. -/
theorem lowered_of_isUpper (h : c.isUpper = true) :
    c.toLower.isLower = true ∧ c.toLower.toUpper = c := by
  simpa [h] using (casing_ofNat c.toNat (toNat_lt_of_isUpper h)).1

/-- The capital of a small letter, and the way back. -/
theorem raised_of_isLower (h : c.isLower = true) :
    c.isUpper = false ∧ c.toUpper.isUpper = true ∧ c.toUpper.toLower = c := by
  simpa [h] using (casing_ofNat c.toNat (toNat_lt_of_isLower h)).2

theorem isLower_toLower (h : c.isUpper = true) : c.toLower.isLower = true :=
  (lowered_of_isUpper h).1

theorem toLower_of_not_upper (h : c.isUpper = false) : c.toLower = c :=
  dif_neg (of_decide_eq_false h)

theorem isUpper_toLower (c : Char) : c.toLower.isUpper = false := by
  cases h : c.isUpper with
  | true => exact (raised_of_isLower (isLower_toLower h)).1
  | false => rw [toLower_of_not_upper h, h]

/-- What has been lowered inside ASCII can be raised again. -/
theorem upperChar_toLower (h : c.isUpper = true) : upperChar c.toLower = [c] := by
  rw [upperChar, if_pos (toNat_lt_of_isLower (isLower_toLower h)), (lowered_of_isUpper h).2]

/-- Lowering inside ASCII first makes no difference to the full lower case. -/
theorem lowerChar_toLower (c : Char) : lowerChar c.toLower = lowerChar c := by
  cases h : c.isUpper with
  | true =>
      rw [lowerChar, lowerChar, if_pos (toNat_lt_of_isLower (isLower_toLower h)),
        if_pos (toNat_lt_of_isUpper h), toLower_of_not_upper (isUpper_toLower c)]
  | false => rw [toLower_of_not_upper h]

/-- A small letter is what snake case makes of its capital. -/
theorem snakeChar_upper (h : c.isLower = true) :
    ∃ d, upperChar c = [d] ∧ snakeChar d = ['_', c] := by
  obtain ⟨_, hupper, hback⟩ := raised_of_isLower h
  refine ⟨c.toUpper, by rw [upperChar, if_pos (toNat_lt_of_isLower h)], ?_⟩
  rw [snakeChar, if_pos hupper, hback]

theorem ne_of_isLower {d : Char} (h : c.isLower = true) (hd : d.isLower = false) : c ≠ d := by
  rintro rfl
  rw [h] at hd
  cases hd

/-! ## Taking underscores away -/

theorem joinHumps_cons (hc : c ≠ '_') (cs : List Char) :
    joinHumps (c :: cs) = c :: joinHumps cs := by
  cases cs with
  | nil => rfl
  | cons d rest => rw [joinHumps, if_neg hc]

theorem joinHumps_hump (hc : c ≠ '\n') (cs : List Char) :
    joinHumps ('_' :: c :: cs) = upperChar c ++ joinHumps cs := by
  rw [joinHumps, if_pos rfl, if_neg hc]

/-- The underscores that snake case puts in are those that camel case takes away. -/
theorem joinHumps_flatMap_snakeChar (h : '_' ∉ cs) : joinHumps (cs.flatMap snakeChar) = cs := by
  induction cs with
  | nil => rfl
  | cons c cs ih =>
      simp only [List.mem_cons, not_or] at h
      obtain ⟨hc, hcs⟩ := h
      rw [List.flatMap_cons]
      by_cases hupper : c.isUpper = true
      · have hlower := isLower_toLower hupper
        rw [snakeChar, if_pos hupper, List.cons_append, List.cons_append, List.nil_append,
          joinHumps_hump (ne_of_isLower hlower rfl), upperChar_toLower hupper, ih hcs]
        rfl
      · rw [snakeChar_of_not_upper (by simpa using hupper), List.singleton_append,
          joinHumps_cons (Ne.symm hc), ih hcs]

theorem camelChars_snakeChars (h : '_' ∉ c :: cs) :
    camelChars (snakeChars (c :: cs)) = lowerChar c ++ cs := by
  simp only [List.mem_cons, not_or] at h
  obtain ⟨hc, hcs⟩ := h
  have hne : c.toLower ≠ '_' := by
    cases hupper : c.isUpper with
    | true => exact ne_of_isLower (isLower_toLower hupper) rfl
    | false =>
        rw [toLower_of_not_upper hupper]
        exact Ne.symm hc
  rw [snakeChars_cons, camelChars, joinHumps_cons hne, joinHumps_flatMap_snakeChar hcs]
  exact congrArg (· ++ cs) (lowerChar_toLower c)

/-! ## Putting underscores in -/

/-- A text behind the first character of a snake-case text: an underscore stands before a small
    letter, and nothing else is a capital. -/
inductive Humped : List Char → Prop
  | nil : Humped []
  | plain {c : Char} {cs : List Char} : c ≠ '_' → c.isUpper = false → Humped cs → Humped (c :: cs)
  | hump {c : Char} {cs : List Char} : c.isLower = true → Humped cs → Humped ('_' :: c :: cs)

/-- The humps that camel case makes are those that snake case takes apart. -/
theorem Humped.flatMap_joinHumps (h : Humped cs) : (joinHumps cs).flatMap snakeChar = cs := by
  induction h with
  | nil => rfl
  | plain hc hupper _ ih =>
      rw [joinHumps_cons hc, List.flatMap_cons, ih, snakeChar_of_not_upper hupper]
      rfl
  | hump hlower _ ih =>
      obtain ⟨d, hd, hsnake⟩ := snakeChar_upper hlower
      rw [joinHumps_hump (ne_of_isLower hlower rfl), hd, List.singleton_append,
        List.flatMap_cons, ih, hsnake]
      rfl

theorem isUpper_eq_false (h : c.isLower ∨ c.isDigit ∨ c = '_') : c.isUpper = false := by
  rcases h with h | h | rfl
  · exact (raised_of_isLower h).1
  · refine Bool.eq_false_iff.2 fun hupper => ?_
    -- the digits come before the capitals
    exact absurd (Nat.le_trans (isUpper_iff.1 hupper).1 (Char.isDigit_iff_toNat.1 h).2) (by decide)
  · rfl

/-- Where each underscore has its letter, the text falls into humps and plain characters. -/
theorem humped_of_followed (hchars : ∀ c ∈ cs, c.isLower ∨ c.isDigit ∨ c = '_')
    (h : ∀ i < cs.length, cs[i]? = some '_' → (cs[i + 1]?).any Char.isAlpha) : Humped cs := by
  induction cs using List.twoStepInduction with
  | nil => exact .nil
  | singleton c =>
      refine .plain ?_ (isUpper_eq_false (hchars c (by simp))) .nil
      rintro rfl
      exact absurd (h 0 (by simp) rfl) (by simp)
  | cons_cons c d rest ih ih' =>
      have hrest : ∀ i < (d :: rest).length, (d :: rest)[i]? = some '_' →
          ((d :: rest)[i + 1]?).any Char.isAlpha := fun i hi => h (i + 1) (by simpa using hi)
      have hd := hchars d (by simp)
      by_cases hc : c = '_'
      · subst hc
        have halpha : d.isAlpha = true := by simpa using h 0 (by simp) rfl
        have hlower : d.isLower = true :=
          (Bool.or_eq_true_iff.1 halpha).resolve_left (Bool.eq_false_iff.1 (isUpper_eq_false hd))
        exact .hump hlower (ih (fun c hc => hchars c (by simp [hc]))
          fun i hi => hrest (i + 1) (by simpa using hi))
      · exact .plain hc (isUpper_eq_false (hchars c (by simp)))
          (ih' d (fun c hc => hchars c (by simp_all)) hrest)

theorem snakeChars_camelChars (h : IsSnake cs) : snakeChars (camelChars cs) = cs := by
  cases cs with
  | nil => rfl
  | cons c cs =>
      have hhead := h.chars c (by simp)
      have hc : c ≠ '_' := fun hc => h.start (by rw [hc]; rfl)
      have hupper := isUpper_eq_false hhead
      have hcs : Humped cs := humped_of_followed (fun d hd => h.chars d (by simp [hd]))
        fun i hi => h.followed (i + 1) (by simpa using hi)
      -- the first character is inside ASCII and small already
      have hlow : lowerChar c = [c] := by
        have hlt : c.toNat < 0x80 := by
          rcases hhead with hl | hd | rfl
          · exact toNat_lt_of_isLower hl
          · exact Nat.lt_of_le_of_lt (Char.isDigit_iff_toNat.1 hd).2 (by decide)
          · decide
        rw [lowerChar, if_pos hlt, toLower_of_not_upper hupper]
      rw [camelChars, joinHumps_cons hc]
      show snakeChars (lowerChar c ++ joinHumps cs) = c :: cs
      rw [hlow, List.singleton_append, snakeChars_cons, hcs.flatMap_joinHumps,
        toLower_of_not_upper hupper]

/-! ## Snake case twice -/

theorem isUpper_of_mem_snakeChars {c : Char} (h : c ∈ snakeChars cs) : c.isUpper = false := by
  cases cs with
  | nil => cases h
  | cons d cs =>
      rw [snakeChars_cons, List.mem_cons, List.mem_flatMap] at h
      rcases h with rfl | ⟨e, _, h⟩
      · exact isUpper_toLower d
      · unfold snakeChar at h
        split at h
        · rcases List.mem_pair.1 h with rfl | rfl
          · rfl
          · exact isUpper_toLower e
        · next hupper =>
            rw [List.mem_singleton.1 h]
            simpa using hupper

theorem snakeChars_of_not_upper (h : ∀ c ∈ cs, c.isUpper = false) : snakeChars cs = cs := by
  cases cs with
  | nil => rfl
  | cons c cs =>
      have hcs : cs.flatMap snakeChar = cs := by
        rw [List.flatMap_congr fun d hd => snakeChar_of_not_upper (h d (List.mem_cons_of_mem c hd)),
          List.flatMap_singleton']
      rw [snakeChars_cons, hcs, toLower_of_not_upper (h c List.mem_cons_self)]

/-! ## Whole texts -/

/-- **Spellings come back.** Whatever a text holds: if there is no underscore, camel case leads back
    from its snake case to the text with its first character in lower case; if it is in snake case,
    snake case leads back from its camel case; and snake case a second time changes nothing. -/
theorem spellings_return (s : String) :
    ('_' ∉ s.toList → camelCase (snakeCase s) = lowerFirst s) ∧
    (IsSnake s.toList → snakeCase (camelCase s) = s) ∧
    snakeCase (snakeCase s) = snakeCase s := by
  refine ⟨fun h => ?_, fun h => ?_, ?_⟩
  · unfold camelCase snakeCase lowerFirst
    rw [String.toList_ofList]
    cases hs : s.toList with
    | nil => rfl
    | cons c cs => rw [camelChars_snakeChars (hs ▸ h)]
  · rw [snakeCase, camelCase, String.toList_ofList, snakeChars_camelChars h, String.ofList_toList]
  · unfold snakeCase
    rw [String.toList_ofList, snakeChars_of_not_upper fun c hc => isUpper_of_mem_snakeChars hc]

/-- A text over two lines that begins with a capital beyond ASCII, and one in snake case with
    digits. -/
theorem spellings_return_words :
    '_' ∉ "ÉcoleID\nΣß".toList ∧ camelCase (snakeCase "ÉcoleID\nΣß") = "écoleID\nΣß" ∧
    IsSnake "2nd_order_item2_id".toList ∧
    snakeCase (camelCase "2nd_order_item2_id") = "2nd_order_item2_id" := by
  have hplain : '_' ∉ "ÉcoleID\nΣß".toList := by decide +kernel
  have hsnake : IsSnake "2nd_order_item2_id".toList :=
    ⟨by simp, by decide +kernel, by decide +kernel⟩
  refine ⟨hplain, ?_, hsnake, (spellings_return _).2.1 hsnake⟩
  rw [(spellings_return _).1 hplain]
  decide +kernel

end AvroCodegen.Text
