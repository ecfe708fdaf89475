import AvroCodegen.Convert.Token

set_option autoImplicit false

/-! # Widths of tokens

A target has a word for whole numbers of 32 bits and a word for those of 64 bits. Which one a field gets
is decided twice: `FieldType.refineLong` replaces `long` by what the logical type says, and then each
converter looks up the refined type in a table of its own. So two converters of the same target may give
one field two widths. They do for `time-micros`, which an `int` can be as well, and for nothing else that
a `long` is refined to (`Converter.writes_long`). -/

namespace AvroCodegen

/-- How many bits a target gives to a whole number. -/
inductive Width where
  | bits32
  | bits64
  deriving DecidableEq, Repr

namespace Converter

/-- The word of a converter for whole numbers of a width; one converter only tells that there is a
    number. -/
def word? : Converter → Width → Option String
  | .fbType, .bits32 | .fbFactory, .bits32 | .javaType, .bits32 | .liquidBaseType, .bits32 => some "int"
  | .fbType, .bits64 | .fbFactory, .bits64 | .javaType, .bits64 => some "long"
  | .liquidBaseType, .bits64 => some "bigint"
  | .connectSchemaType, .bits32 => some "Schema.INT32_SCHEMA"
  | .connectSchemaType, .bits64 => some "Schema.INT64_SCHEMA"
  | .connectStructGetter, .bits32 => some "getInt32"
  | .connectStructGetter, .bits64 => some "getInt64"
  | .fbIsPrimitive, _ => none

/-- The token of a type is the word for whole numbers of a width. -/
def Writes (c : Converter) (s : Store) (t : FieldType) (w : Width) : Prop :=
  ∃ word, c.word? w = some word ∧ c.token s t = .ok (.text word)

/-- Two converters give a type the same width. -/
def SameWidth (a b : Converter) (s : Store) (t : FieldType) : Prop :=
  ∀ w, a.Writes s t w ↔ b.Writes s t w

/-- Converters whose words stand together in what is generated: the type of a field and how it is built,
    or how it is declared and how it is read. -/
inductive Paired : Converter → Converter → Prop
  | flatBuffers : Paired .fbType .fbFactory
  | connect : Paired .connectSchemaType .connectStructGetter

/-- The converters that take a time of day in microseconds for a number of 32 bits. -/
def narrowing : List Converter := [.fbFactory, .javaType, .connectStructGetter]

/-- The width that a converter gives to a `long` with a logical type. -/
def longWidth (c : Converter) (logical : Option String) : Width :=
  if logical = some "time-micros" ∧ c ∈ narrowing then .bits32 else .bits64

variable {c : Converter} {s : Store} {t : FieldType} {w w' : Width}

/-- The words of a converter differ. -/
theorem word?_inj {word : String} (h : c.word? w = some word) (h' : c.word? w' = some word) :
    w = w' := by
  have hne : c.word? .bits32 = c.word? .bits64 → c = .fbIsPrimitive := by
    cases c <;> simp [word?]
  have hnone : c ≠ .fbIsPrimitive := by
    rintro rfl
    cases h
  cases w <;> cases w'
  · rfl
  · exact absurd (hne (h.trans h'.symm)) hnone
  · exact absurd (hne (h'.trans h.symm)) hnone
  · rfl

/-- A type gets one width at most. -/
theorem writes_iff_eq (h : c.Writes s t w) : c.Writes s t w' ↔ w = w' := by
  obtain ⟨word, hword, htoken⟩ := h
  constructor
  · rintro ⟨word', hword', htoken'⟩
    rw [htoken] at htoken'
    obtain rfl := Token.text.inj (Except.ok.inj htoken')
    exact word?_inj hword hword'
  · rintro rfl
    exact ⟨word, hword, htoken⟩

/-- Two converters give one width to a type just when their widths are equal. -/
theorem sameWidth_iff {a b : Converter} (ha : a.Writes s t w) (hb : b.Writes s t w') :
    SameWidth a b s t ↔ w = w' := by
  unfold SameWidth
  simp only [writes_iff_eq ha, writes_iff_eq hb]
  exact ⟨fun h => ((h w).1 rfl).symm, fun h _ => by rw [h]⟩

end Converter

/-! ## What a long is refined to -/

namespace FieldType

/-- The refinements of a `long`, apart from the one that an `int` has as well. -/
inductive IsLong : PlainType → Prop
  | long : IsLong .long
  | timestampMillis : IsLong .timestampMillis
  | timestampMicros : IsLong .timestampMicros
  | localTimestampMillis : IsLong .localTimestampMillis
  | localTimestampMicros : IsLong .localTimestampMicros

/-- Every other logical type, known or not, leaves a `long` at its width. -/
theorem isLong_refineLong {logical : Option String} (h : logical ≠ some "time-micros") :
    IsLong (refineLong logical) := by
  unfold refineLong
  split
  · exact absurd rfl h
  · exact .timestampMillis
  · exact .timestampMicros
  · exact .localTimestampMillis
  · exact .localTimestampMicros
  · exact .long

end FieldType

namespace Converter

variable {c : Converter} {s : Store} {props : Properties}

theorem writes_of_isLong {p : PlainType} (hp : FieldType.IsLong p) (hc : c ≠ .fbIsPrimitive) :
    c.Writes s (.plain p props) .bits64 := by
  cases c with
  | fbIsPrimitive => exact absurd rfl hc
  | fbType => cases hp <;> exact ⟨_, rfl, rfl⟩
  | fbFactory => cases hp <;> exact ⟨_, rfl, rfl⟩
  | javaType => cases hp <;> exact ⟨_, rfl, rfl⟩
  | connectSchemaType => cases hp <;> exact ⟨_, rfl, rfl⟩
  | connectStructGetter => cases hp <;> exact ⟨_, rfl, rfl⟩
  | liquidBaseType => cases hp <;> exact ⟨_, rfl, rfl⟩

theorem writes_timeMicros (hc : c ≠ .fbIsPrimitive) :
    c.Writes s (.plain .timeMicros props) (c.longWidth (some "time-micros")) := by
  cases c with
  | fbIsPrimitive => exact absurd rfl hc
  | fbType => exact ⟨_, rfl, rfl⟩
  | fbFactory => exact ⟨_, rfl, rfl⟩
  | javaType => exact ⟨_, rfl, rfl⟩
  | connectSchemaType => exact ⟨_, rfl, rfl⟩
  | connectStructGetter => exact ⟨_, rfl, rfl⟩
  | liquidBaseType => exact ⟨_, rfl, rfl⟩

/-- The width of a `long` by converter and logical type. -/
theorem writes_refineLong (logical : Option String) (hc : c ≠ .fbIsPrimitive) :
    c.Writes s (.plain (FieldType.refineLong logical) props) (c.longWidth logical) := by
  by_cases htime : logical = some "time-micros"
  · subst htime
    exact writes_timeMicros hc
  · have hwidth : c.longWidth logical = .bits64 := if_neg fun h => htime h.1
    rw [hwidth]
    exact writes_of_isLong (FieldType.isLong_refineLong htime) hc

/-- The pairs agree where no width is cut down. -/
theorem longWidth_eq_iff {a b : Converter} (h : Paired a b) (logical : Option String) :
    a.longWidth logical = b.longWidth logical ↔ logical ≠ some "time-micros" := by
  by_cases htime : logical = some "time-micros"
  · subst htime
    cases h <;> decide
  · simp [longWidth, htime]

theorem Paired.ne_fbIsPrimitive {a b : Converter} (h : Paired a b) :
    a ≠ .fbIsPrimitive ∧ b ≠ .fbIsPrimitive := by
  cases h <;> decide

/-- **The width of a long.** A schema of type `long` has a type, whatever its logical type and attributes
    are, and every converter that tells a width gives it 64 bits, except that three of them give it 32
    bits when the logical type is `time-micros`. So converters that stand together agree on the width
    just when the logical type is another one. -/
theorem writes_long (catalog : Catalog) (idOf : String → Option Nat) (extra : Properties)
    (marks : Annotations) (s : Store) :
    ∃ t, FieldType.resolve catalog idOf extra (.primitive .long marks) = .ok t ∧
      (∀ c : Converter, c ≠ .fbIsPrimitive →
        ∀ w, c.Writes s t w ↔ c.longWidth marks.logicalType = w) ∧
      ∀ a b, Paired a b → (SameWidth a b s t ↔ marks.logicalType ≠ some "time-micros") := by
  refine ⟨.plain (FieldType.refineLong marks.logicalType) (Keyed.overlay marks.props extra), rfl,
    fun c hc w => writes_iff_eq (writes_refineLong _ hc), fun a b hpaired => ?_⟩
  obtain ⟨ha, hb⟩ := hpaired.ne_fbIsPrimitive
  rw [sameWidth_iff (writes_refineLong _ ha) (writes_refineLong _ hb), longWidth_eq_iff hpaired]

/-- A time of day in microseconds, declared as a `long`. -/
def timeOfDay : Schema := .primitive .long ⟨some "time-micros", []⟩

/-- It is declared with 64 bits and built and read with 32. -/
theorem token_timeOfDay : ∃ t, FieldType.resolve ⟨[], []⟩ (fun _ => none) [] timeOfDay = .ok t ∧
    fbType.token (.empty "java") t = .ok (.text "long") ∧
    fbFactory.token (.empty "java") t = .ok (.text "int") ∧
    javaType.token (.empty "java") t = .ok (.text "int") ∧
    connectSchemaType.token (.empty "java") t = .ok (.text "Schema.INT64_SCHEMA") ∧
    connectStructGetter.token (.empty "java") t = .ok (.text "getInt32") ∧
    liquidBaseType.token (.empty "java") t = .ok (.text "bigint") :=
  ⟨.plain .timeMicros [], rfl, rfl, rfl, rfl, rfl, rfl, rfl⟩

end Converter

end AvroCodegen
