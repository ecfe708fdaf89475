import AvroCodegen.Proofs.ExpansionForms
import Mathlib.Algebra.Ring.Int.Defs

set_option autoImplicit false

/-! # Spans of an expansion

In the bracketed form of an expansion the fields of a record stand between an entry that opens its span
and one that closes it. Spans nest as the records do, so a template can count: the depth, entries that
open less entries that close, never falls below zero and ends at zero (`Balanced.depth_eq_zero`,
`Balanced.depth_nonneg`). That is also why an entry that opens a span is closed by one entry only, and
the other way round. -/

namespace AvroCodegen

namespace Field

/-- The entry that closes what an entry opens. -/
def closing (f : Field) : Field :=
  ⟨f.name, .close f.type⟩

/-- A field under a longer name. -/
def behind (before : String) (f : Field) : Field :=
  ⟨before ++ f.name, f.type⟩

/-- How an entry changes the depth. -/
def turn (f : Field) : Int :=
  if f.opens then 1 else if f.closes then -1 else 0

theorem turn_of_opens {f : Field} (h : f.opens = true) : f.turn = 1 := if_pos h

theorem turn_of_closes {f : Field} (h : f.closes = true) : f.turn = -1 := by
  obtain ⟨name, type⟩ := f
  cases type with
  | close opened => rfl
  | plain p props => cases h
  | array element props => cases h
  | union members props => cases h

@[simp] theorem closes_closing (f : Field) : f.closing.closes = true := rfl

@[simp] theorem turn_closing (f : Field) : f.closing.turn = -1 := rfl

end Field

/-- Lists of entries in which each span that is opened is closed, in its place. -/
inductive Balanced : List Field → Prop
  | nil : Balanced []
  | leaf {f : Field} {rest : List Field} : f.opens = false → f.closes = false →
      Balanced rest → Balanced (f :: rest)
  | span {f : Field} {inner rest : List Field} : f.opens = true →
      Balanced inner → Balanced rest → Balanced (f :: (inner ++ f.closing :: rest))

/-- The depth after some entries. -/
def depth (fs : List Field) : Int :=
  (fs.map Field.turn).sum

variable {f g : Field} {fs gs inner inner' rest rest' before after : List Field}

@[simp] theorem depth_nil : depth [] = 0 := rfl

@[simp] theorem depth_cons (f : Field) (fs : List Field) : depth (f :: fs) = f.turn + depth fs := by
  simp [depth]

@[simp] theorem depth_append (fs gs : List Field) : depth (fs ++ gs) = depth fs + depth gs := by
  simp [depth]

/-- Of two entries of a list one comes first, or they are the same. -/
theorem cases_of_append_cons (h : inner ++ f :: rest = inner' ++ g :: rest') :
    (∃ mid, inner' = inner ++ f :: mid ∧ rest = mid ++ g :: rest') ∨
    (inner = inner' ∧ f = g ∧ rest = rest') ∨
    ∃ mid, inner = inner' ++ g :: mid ∧ rest' = mid ++ f :: rest := by
  rcases List.append_eq_append_iff.1 h with ⟨mid, rfl, hmid⟩ | ⟨mid, rfl, hmid⟩
  · rcases List.cons_eq_append_iff.1 hmid with ⟨rfl, hsame⟩ | ⟨mid, rfl, hrest⟩
    · obtain ⟨rfl, rfl⟩ := List.cons.inj hsame
      exact Or.inr (Or.inl ⟨(List.append_nil _).symm, rfl, rfl⟩)
    · exact Or.inl ⟨mid, rfl, hrest⟩
  · rcases List.cons_eq_append_iff.1 hmid with ⟨rfl, hsame⟩ | ⟨mid, rfl, hrest⟩
    · obtain ⟨rfl, rfl⟩ := List.cons.inj hsame
      exact Or.inr (Or.inl ⟨List.append_nil _, rfl, rfl⟩)
    · exact Or.inr (Or.inr ⟨mid, rfl, hrest⟩)

namespace Balanced

theorem depth_eq_zero (h : Balanced fs) : depth fs = 0 := by
  induction h with
  | nil => rfl
  | leaf hopens hcloses _ ih => simp [Field.turn, hopens, hcloses, ih]
  | span hopens _ _ ihinner ih => simp [Field.turn_of_opens hopens, ihinner, ih]

/-- No part from the beginning closes more than it opens. -/
theorem depth_nonneg (h : Balanced fs) : ∀ pre post, fs = pre ++ post → 0 ≤ depth pre := by
  induction h with
  | nil =>
      intro pre post heq
      simp [(List.append_eq_nil_iff.1 heq.symm).1]
  | leaf hopens hcloses _ ih =>
      intro pre post heq
      rcases List.cons_eq_append_iff.1 heq with ⟨rfl, _⟩ | ⟨pre, rfl, hrest⟩
      · simp
      · simpa [Field.turn, hopens, hcloses] using ih pre post hrest
  | @span f inner rest hopens hinner _ ihinner ih =>
      intro pre post heq
      rcases List.cons_eq_append_iff.1 heq with ⟨rfl, _⟩ | ⟨pre, rfl, hspan⟩
      · simp
      -- the part ends inside the span, or closes it and goes on
      rw [depth_cons, Field.turn_of_opens hopens]
      rcases List.append_eq_append_iff.1 hspan with ⟨mid, rfl, hmid⟩ | ⟨mid, hmid, _⟩
      · rcases List.cons_eq_append_iff.1 hmid with ⟨rfl, _⟩ | ⟨mid, rfl, hrest⟩
        · simp [hinner.depth_eq_zero]
        · have := ih mid post hrest
          simpa [hinner.depth_eq_zero] using this
      · have := ihinner pre mid hmid
        omega

/-- No part to the end opens more than it closes. -/
theorem depth_nonpos (h : Balanced fs) {pre post : List Field} (heq : fs = pre ++ post) :
    depth post ≤ 0 := by
  have hpre : 0 ≤ depth pre := h.depth_nonneg pre post heq
  have htotal : depth pre + depth post = 0 := by
    rw [← depth_append, ← heq, h.depth_eq_zero]
  omega

/-- After a balanced part a balanced list closes nothing. -/
theorem closes_eq_false_of_append (h : Balanced (inner ++ f :: after)) (hinner : Balanced inner) :
    f.closes = false := by
  have hpre : 0 ≤ depth (inner ++ [f]) := h.depth_nonneg (inner ++ [f]) after (by simp)
  by_contra hcloses
  rw [Bool.not_eq_false] at hcloses
  simp [hinner.depth_eq_zero, Field.turn_of_closes hcloses] at hpre

/-- Before a balanced part a balanced list opens nothing. -/
theorem opens_eq_false_of_append (h : Balanced (before ++ f :: inner)) (hinner : Balanced inner) :
    f.opens = false := by
  have hpost : depth (f :: inner) ≤ 0 := h.depth_nonpos rfl
  by_contra hopens
  rw [Bool.not_eq_false] at hopens
  simp [hinner.depth_eq_zero, Field.turn_of_opens hopens] at hpost

/-- A balanced part is closed at one place. -/
theorem eq_of_closes (h : Balanced inner) (h' : Balanced inner') (hf : f.closes = true)
    (hg : g.closes = true) (heq : inner ++ f :: rest = inner' ++ g :: rest') : inner = inner' := by
  rcases cases_of_append_cons heq with ⟨mid, rfl, _⟩ | ⟨hsame, _⟩ | ⟨mid, rfl, _⟩
  · rw [h'.closes_eq_false_of_append h] at hf
    cases hf
  · exact hsame
  · rw [h.closes_eq_false_of_append h'] at hg
    cases hg

/-- A balanced part is opened at one place. -/
theorem eq_of_opens (h : Balanced inner) (h' : Balanced inner') (hf : f.opens = true)
    (hg : g.opens = true) (heq : rest ++ f :: inner = rest' ++ g :: inner') : inner = inner' := by
  rcases cases_of_append_cons heq with ⟨mid, _, rfl⟩ | ⟨_, _, hsame⟩ | ⟨mid, _, rfl⟩
  · rw [h.opens_eq_false_of_append h'] at hg
    cases hg
  · exact hsame
  · rw [h'.opens_eq_false_of_append h] at hf
    cases hf

end Balanced

/-! ## The two ends of a span -/

/-- What an entry is among those before and after it: a leaf, or one end of a span whose other end is
    among them. -/
inductive Matched : List Field → Field → List Field → Prop
  | leaf {before after : List Field} {f : Field} : f.opens = false → f.closes = false →
      Matched before f after
  | opening {before inner rest : List Field} {f : Field} : f.opens = true → Balanced inner →
      Matched before f (inner ++ f.closing :: rest)
  | closing {rest inner after : List Field} {f : Field} : f.opens = true → Balanced inner →
      Matched (rest ++ f :: inner) f.closing after

theorem Matched.append_left (h : Matched before f after) (pre : List Field) :
    Matched (pre ++ before) f after := by
  cases h with
  | leaf hopens hcloses => exact .leaf hopens hcloses
  | opening hopens hinner => exact .opening hopens hinner
  | closing hopens hinner =>
      rw [← List.append_assoc]
      exact .closing hopens hinner

theorem Matched.append_right (h : Matched before f after) (post : List Field) :
    Matched before f (after ++ post) := by
  cases h with
  | leaf hopens hcloses => exact .leaf hopens hcloses
  | opening hopens hinner =>
      rw [List.append_assoc, List.cons_append]
      exact .opening hopens hinner
  | closing hopens hinner => exact .closing hopens hinner

/-- Each entry of a balanced list has its other end there. -/
theorem Balanced.matched (h : Balanced fs) :
    ∀ before f after, fs = before ++ f :: after → Matched before f after := by
  induction h with
  | nil =>
      intro before f after heq
      cases before <;> cases heq
  | @leaf g rest hopens hcloses _ ih =>
      intro before f after heq
      rcases List.cons_eq_append_iff.1 heq with ⟨rfl, hhead⟩ | ⟨before, rfl, hrest⟩
      · obtain ⟨rfl, rfl⟩ := List.cons.inj hhead
        exact .leaf hopens hcloses
      · exact (ih before f after hrest).append_left [g]
  | @span g inner rest hopens hinner _ ihinner ih =>
      intro before f after heq
      rcases List.cons_eq_append_iff.1 heq with ⟨rfl, hhead⟩ | ⟨before, rfl, hspan⟩
      · obtain ⟨rfl, rfl⟩ := List.cons.inj hhead
        exact .opening hopens hinner
      -- the entry comes after the span, closes it, or stands inside
      rcases cases_of_append_cons hspan with ⟨mid, rfl, hrest⟩ | ⟨rfl, rfl, _⟩ | ⟨mid, rfl, rfl⟩
      · have := (ih mid f after hrest).append_left (g :: inner ++ [g.closing])
        simpa using this
      · show Matched ([] ++ g :: inner) g.closing after
        exact .closing hopens hinner
      · exact ((ihinner before f mid rfl).append_left [g]).append_right (g.closing :: rest)

/-- An entry that opens a span is closed by one entry, the one with a balanced part between. -/
theorem Balanced.existsUnique_closing (h : Balanced fs) (heq : fs = before ++ f :: after)
    (hf : f.opens = true) :
    ∃! inner, Balanced inner ∧ ∃ rest, after = inner ++ f.closing :: rest := by
  obtain ⟨inner, hinner, rest, rfl⟩ :
      ∃ inner, Balanced inner ∧ ∃ rest, after = inner ++ f.closing :: rest := by
    cases h.matched before f after heq with
    | leaf hopens _ =>
        rw [hf] at hopens
        cases hopens
    | opening _ hinner => exact ⟨_, hinner, _, rfl⟩
    | closing _ _ => cases hf
  refine ⟨inner, ⟨hinner, rest, rfl⟩, ?_⟩
  rintro inner' ⟨hinner', rest', heq'⟩
  exact hinner'.eq_of_closes hinner f.closes_closing f.closes_closing heq'.symm

/-- An entry that closes a span was opened by one entry, the one with a balanced part between. -/
theorem Balanced.existsUnique_opening (h : Balanced fs) (heq : fs = before ++ f :: after)
    (hf : f.closes = true) :
    ∃! inner, Balanced inner ∧ ∃ rest g, g.opens = true ∧ g.closing = f ∧
      before = rest ++ g :: inner := by
  obtain ⟨inner, hinner, rest, g, hg, hclosing, rfl⟩ : ∃ inner, Balanced inner ∧
      ∃ rest g, g.opens = true ∧ g.closing = f ∧ before = rest ++ g :: inner := by
    cases h.matched before f after heq with
    | leaf _ hcloses =>
        rw [hf] at hcloses
        cases hcloses
    | opening hopens _ =>
        have hturn : f.turn = 1 := Field.turn_of_opens hopens
        rw [Field.turn_of_closes hf] at hturn
        cases hturn
    | closing hopens hinner => exact ⟨_, hinner, _, _, hopens, rfl, rfl⟩
  refine ⟨inner, ⟨hinner, rest, g, hg, hclosing, rfl⟩, ?_⟩
  rintro inner' ⟨hinner', rest', g', hg', _, heq'⟩
  exact hinner'.eq_of_opens hinner hg' hg heq'.symm

theorem Trail.entries_behind {shown : Shown} {joiner : String} (before : String)
    (ts : List Trail) :
    (entries shown joiner "" ts).map (Field.behind before) = entries shown joiner before ts := by
  simp [entries, Function.comp_def, entry, Field.behind]

namespace Store

/-! ## Spans of nested records -/

variable {s : Store} {joiner : String} {id : Nat} {ts : List Trail}

/-- What the bracketed form puts for a field: the field itself, or for a record field the expansion of
    its record, under longer names, between the entries that open and close the span. -/
inductive Part (s : Store) (joiner : String) : Field → List Field → Prop
  | leaf {f : Field} : f.type.record? = none → Part s joiner f [f]
  | span {f : Field} {nested : Nat} {inner : List Field} : f.type.record? = some nested →
      s.expand .bracketed joiner nested = .ok inner →
      Part s joiner f (f :: inner.map (Field.behind (f.name ++ joiner)) ++ [f.closing])

/-- The entries of a bracketed form are the parts of the fields, in field order. -/
theorem Unfolds.exists_parts (h : s.Unfolds fs ts) :
    ∃ parts, List.Forall₂ (s.Part joiner) fs parts ∧
      Trail.entries .bracketed joiner "" ts = parts.flatten := by
  induction h with
  | nil => exact ⟨[], .nil, rfl⟩
  | @leaf f fs ts htype _ ih =>
      obtain ⟨parts, hparts, hentries⟩ := ih
      refine ⟨[f] :: parts, .cons (.leaf htype) hparts, ?_⟩
      rw [← List.singleton_append, Trail.entries_append, Trail.entries_leaf, hentries]
      simp [showIf]
  | @block f fs ts inner nested htype hinner _ _ ih =>
      obtain ⟨parts, hparts, hentries⟩ := ih
      have hexpand := expand_eq_ok_iff.2
        ⟨inner, hinner, Eq.refl (Trail.entries .bracketed joiner "" inner)⟩
      refine ⟨_ :: parts, .cons (.span htype hexpand) hparts, ?_⟩
      rw [Trail.entries_append, Trail.entries_block, hentries, Trail.entries_behind]
      simp [showIf, Field.closing]

theorem Unfolds.balanced (h : s.Unfolds fs ts) (hs : s.Unclosed)
    (hfs : ∀ f ∈ fs, f.closes = false) :
    ∀ before, Balanced (Trail.entries .bracketed joiner before ts) := by
  induction h with
  | nil => exact fun _ => .nil
  | @leaf f fs ts htype _ ih =>
      intro before
      obtain ⟨hcloses, hfs⟩ := List.forall_mem_cons.1 hfs
      rw [← List.singleton_append, Trail.entries_append, Trail.entries_leaf]
      have hopens : f.opens = false := by simp [Field.opens, htype]
      exact .leaf hopens hcloses (ih hfs before)
  | @block f fs ts inner nested htype _ _ ihinner ih =>
      intro before
      have hinner := ihinner (hs nested) (before ++ f.name ++ joiner)
      have hrest := ih (fun g hg => hfs g (by simp [hg])) before
      have hopens : (⟨before ++ f.name, f.type⟩ : Field).opens = true := by
        simp [Field.opens, htype]
      rw [Trail.entries_append, Trail.entries_block]
      simpa [showIf, Field.closing] using Balanced.span hopens hinner hrest

/-- What the bracketed form of an expansion looks like. It is put together field by field. Each span
    that is opened is closed in its place, by one entry, and each entry that closes a span has one that
    opened it. The name of an entry is made of the names of the fields that lead to it. -/
structure Bracketed (s : Store) (joiner : String) (id : Nat) (out : List Field) : Prop where
  parts : ∃ parts, List.Forall₂ (s.Part joiner) (s.fieldsAt id) parts ∧ out = parts.flatten
  balanced : Balanced out
  opened : ∀ before f after, out = before ++ f :: after → f.opens = true →
    ∃! inner, Balanced inner ∧ ∃ rest, after = inner ++ f.closing :: rest
  closed : ∀ before f after, out = before ++ f :: after → f.closes = true →
    ∃! inner, Balanced inner ∧
      ∃ rest g, g.opens = true ∧ g.closing = f ∧ before = rest ++ g :: inner
  named : ∀ e ∈ out, ∃ way f, s.Leads (s.fieldsAt id) way ∧ way.getLast? = some f ∧
    e.name = joiner.intercalate (way.map Field.name) ∧
    (e.type = f.type ∨ f.opens = true ∧ e.type = .close f.type)

theorem Unfolds.exists_way (h : s.Unfolds (s.fieldsAt id) ts) {e : Field}
    (he : e ∈ Trail.entries .bracketed joiner "" ts) :
    ∃ way f, s.Leads (s.fieldsAt id) way ∧ way.getLast? = some f ∧
      e.name = joiner.intercalate (way.map Field.name) ∧
      (e.type = f.type ∨ f.opens = true ∧ e.type = .close f.type) := by
  obtain ⟨t, ht, rfl⟩ := List.mem_map.1 he
  have hmem : t ∈ ts := (List.mem_filter.1 ht).1
  have hmark : t.mark = .leaf ↔ t.field.type.record? = none := h.mark t hmem
  refine ⟨t.fields, t.field, h.leads t hmem, by simp [Trail.fields], by simp [Trail.entry], ?_⟩
  by_cases hclosing : t.mark = .closing
  · have hsome : t.field.type.record? ≠ none := fun hnone => by
      rw [hmark.2 hnone] at hclosing
      cases hclosing
    exact Or.inr ⟨Option.isSome_iff_ne_none.2 hsome, if_pos hclosing⟩
  · exact Or.inl (if_neg hclosing)

variable {c : Catalog} {g : Graph} {scope : List (Nat × Naming)} {generator : String}
  {out : List Field}

/-- **A bracketed expansion is well bracketed.** In every store that was built, where the bracketed form
    succeeds it is the parts of the fields one after the other. A record field gives the expansion of
    its record behind its name, between an entry that opens the span and one of the same name that
    closes it. So spans nest, the two ends of each find each other, and names are paths. -/
theorem expand_brackets (hs : build generator g c scope = .ok s)
    (h : s.expand .bracketed joiner id = .ok out) : s.Bracketed joiner id out := by
  have hunclosed : s.Unclosed := unclosed_of_build hs
  obtain ⟨ts, hts, rfl⟩ := expand_eq_ok_iff.1 h
  have hbalanced : Balanced (Trail.entries .bracketed joiner "" ts) :=
    hts.balanced hunclosed (hunclosed id) ""
  exact
    { parts := hts.exists_parts
      balanced := hbalanced
      opened := fun _ _ _ heq hf => hbalanced.existsUnique_closing heq hf
      closed := fun _ _ _ heq hf => hbalanced.existsUnique_opening heq hf
      named := fun _ he => hts.exists_way he }

theorem expand_brackets_parcel :
    build "sql" parcelGraph parcelCatalog parcelScope = .ok parcelStore ∧
    ∃ out, parcelStore.expand .bracketed "." 2 = .ok out ∧
      out.map Field.name =
        ["id", "from", "from.street", "from.city", "from.city.name", "from.city", "from",
          "to", "to.street", "to.city", "to.city.name", "to.city", "to", "seals"] ∧
      out.map Field.turn = [0, 1, 0, 1, 0, -1, -1, 1, 0, 1, 0, -1, -1, 0] ∧
      parcelStore.Bracketed "." 2 out := by
  have hout := Answer.eq_ok_getD (m := parcelStore.expand .bracketed "." 2) [] (by decide +kernel)
  exact ⟨build_parcel, _, hout, by decide +kernel, by decide +kernel,
    expand_brackets build_parcel hout⟩

end Store

end AvroCodegen
