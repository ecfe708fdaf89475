import AvroCodegen.Proofs.Answer
import AvroCodegen.Proofs.SchemaReading
import Mathlib.Data.List.Nodup

set_option autoImplicit false

/-! # The definitions in sources and what a catalog keeps of them

The definitions that reading visits are a matter of the text alone: a definition, those inside its
fields, then those behind it, which makes a forest of `Declarations`. A fullname is tried when a
definition opens and taken when it closes. Two definitions of one fullname are therefore refused if
one stands behind the other, however deep both are, but not if one stands inside the other: the outer
one was opened while the fullname was free, and replaces the inner one as it closes.

`Catalog.ofSources_stores` says what follows for a catalog: it has one entry for each fullname, made
from the definition that stands in no other of its own fullname. It counts as many entries as
definitions were visited just when no definition stands inside one of its own fullname. -/

namespace AvroCodegen

/-- A definition as it is written: its fullname, its kind and the members of its object. -/
structure Declared where
  fullname : String
  kind : Kind
  members : Properties

/-- Definitions in the order in which they open: one, those inside it, and those behind it. -/
inductive Declarations where
  | none
  | one (d : Declared) (inner next : Declarations)

namespace Declarations

/-- All definitions in the order in which they open. -/
def all : Declarations → List Declared
  | .none => []
  | .one d inner next => d :: (inner.all ++ next.all)

/-- The fullnames of all definitions. -/
def names (v : Declarations) : List String :=
  v.all.map Declared.fullname

/-- Definitions and others behind them. -/
def append : Declarations → Declarations → Declarations
  | .none, w => w
  | .one d inner next, w => .one d inner (next.append w)

/-- Of two definitions with one fullname, one stands inside the other. -/
def Apart : Declarations → Prop
  | .none => True
  | .one d inner next =>
    inner.Apart ∧ next.Apart ∧ List.Disjoint (d.fullname :: inner.names) next.names

/-- The definitions that stand in no other of their own fullname. -/
def outermost : Declarations → List Declared
  | .none => []
  | .one d inner next =>
    d :: (inner.outermost.filter (fun e => e.fullname ≠ d.fullname) ++ next.outermost)

/-- No definition stands inside another of its own fullname. -/
def Shadowless : Declarations → Prop
  | .none => True
  | .one d inner next => d.fullname ∉ inner.names ∧ inner.Shadowless ∧ next.Shadowless

variable {v w : Declarations}

@[simp] theorem names_none : Declarations.none.names = [] := rfl

@[simp] theorem names_one (d : Declared) (inner next : Declarations) :
    (one d inner next).names = d.fullname :: (inner.names ++ next.names) := by
  simp [names, all]

theorem all_append (v w : Declarations) : (v.append w).all = v.all ++ w.all := by
  induction v with
  | none => rfl
  | one d inner next _ ih => simp [append, all, ih]

theorem names_append (v w : Declarations) : (v.append w).names = v.names ++ w.names := by
  simp [names, all_append]

theorem outermost_append (v w : Declarations) :
    (v.append w).outermost = v.outermost ++ w.outermost := by
  induction v with
  | none => rfl
  | one d inner next _ ih => simp [append, outermost, ih]

theorem append_none (v : Declarations) : v.append .none = v := by
  induction v with
  | none => rfl
  | one d inner next _ ih => rw [append, ih]

theorem Apart.append (hv : v.Apart) (hw : w.Apart) (h : List.Disjoint v.names w.names) :
    (v.append w).Apart := by
  induction v with
  | none => exact hw
  | one d inner next _ ih =>
      obtain ⟨hinner, hnext, hd⟩ := hv
      rw [names_one, ← List.cons_append, List.disjoint_append_left] at h
      refine ⟨hinner, ih hnext h.2, ?_⟩
      rw [names_append, List.disjoint_append_right]
      exact ⟨hd, h.1⟩

/-! ## The outermost definitions -/

theorem outermost_sublist (v : Declarations) : v.outermost.Sublist v.all := by
  induction v with
  | none => exact .slnil
  | one d inner next ihinner ihnext =>
      exact ((List.filter_sublist.trans ihinner).append ihnext).cons_cons d

/-- Every fullname has an outermost definition. -/
theorem mem_names_iff {n : String} : n ∈ v.names ↔ n ∈ v.outermost.map Declared.fullname := by
  refine ⟨fun h => ?_, fun h => ((outermost_sublist v).map _).subset h⟩
  induction v with
  | none => exact h
  | one d inner next ihinner ihnext =>
      rw [names_one, List.mem_cons, List.mem_append] at h
      rw [outermost, List.map_cons, List.map_append, List.mem_cons, List.mem_append]
      by_cases hd : n = d.fullname
      · exact Or.inl hd
      rcases h with h | h | h
      · exact absurd h hd
      · obtain ⟨e, he, rfl⟩ := List.mem_map.1 (ihinner h)
        exact Or.inr (Or.inl (List.mem_map_of_mem (List.mem_filter.2 ⟨he, by simpa using hd⟩)))
      · exact Or.inr (Or.inr (ihnext h))

theorem Apart.nodup_outermost (h : v.Apart) : (v.outermost.map Declared.fullname).Nodup := by
  induction v with
  | none => exact List.nodup_nil
  | one d inner next ihinner ihnext =>
      obtain ⟨hinner, hnext, hd⟩ := h
      rw [List.disjoint_cons_left] at hd
      have hfilter : (inner.outermost.filter fun e => e.fullname ≠ d.fullname).Sublist
          inner.outermost := List.filter_sublist
      rw [outermost, List.map_cons, List.map_append, List.nodup_cons, List.mem_append, not_or,
        List.nodup_append']
      refine ⟨⟨?_, fun h => hd.1 (mem_names_iff.2 h)⟩,
        (ihinner hinner).sublist (hfilter.map _), ihnext hnext, ?_⟩
      · simp
      · intro n hn hn'
        exact hd.2 (mem_names_iff.2 ((hfilter.map _).subset hn)) (mem_names_iff.2 hn')

/-- Nothing is shadowed just when every definition is outermost. -/
theorem shadowless_iff : v.Shadowless ↔ v.outermost.length = v.all.length := by
  induction v with
  | none => simp [Shadowless, outermost, all]
  | one d inner next ihinner ihnext =>
      have hle := List.length_filter_le (fun e => e.fullname ≠ d.fullname) inner.outermost
      have hinner := (outermost_sublist inner).length_le
      have hnext := (outermost_sublist next).length_le
      have hfilter : d.fullname ∉ inner.names ↔
          (inner.outermost.filter fun e => e.fullname ≠ d.fullname).length =
            inner.outermost.length := by
        rw [List.length_filter_eq_length_iff, mem_names_iff]
        simp
      simp only [Shadowless, outermost, all, List.length_cons, List.length_append, hfilter, ihinner,
        ihnext]
      omega

theorem Apart.shadowless_iff_nodup (h : v.Apart) : v.Shadowless ↔ v.names.Nodup := by
  induction v with
  | none => simp [Shadowless]
  | one d inner next ihinner ihnext =>
      obtain ⟨hinner, hnext, hd⟩ := h
      rw [List.disjoint_cons_left] at hd
      simp only [Shadowless, names_one, List.nodup_cons, List.nodup_append', List.mem_append,
        not_or, ihinner hinner, ihnext hnext]
      exact ⟨fun ⟨hfree, h, h'⟩ => ⟨⟨hfree, hd.1⟩, h, h', hd.2⟩,
        fun ⟨⟨hfree, _⟩, h, h', _⟩ => ⟨hfree, h, h'⟩⟩

end Declarations

/-! ## The definitions in a text -/

namespace Reader

mutual

/-- The definitions that reading a schema inside a namespace visits. -/
def declarations (space : Option String) (value : Json) : Declarations :=
  match value with
  | .arr members => declarationsOfAll space members
  | .obj members =>
    match _ht : Keyed.get? "type" members with
    | none => .none
    | some (.str word) =>
      match Word.of word with
      | .definition kind =>
        match text? "name" members with
        | none => .none
        | some name =>
          let fullname := qualify space (text? "namespace" members) name
          .one ⟨fullname, kind, members⟩
            (match kind with
              | .enum => .none
              | .fixed => .none
              | .record =>
                match _hf : Keyed.get? "fields" members with
                | some (.arr fields) => declarationsOfFields (splitFullname fullname).1 fields
                | _ => .none)
            .none
      | .array =>
        match _hi : Keyed.get? "items" members with
        | none => .none
        | some items => declarations space items
      | .map =>
        match _hv : Keyed.get? "values" members with
        | none => .none
        | some values => declarations space values
      | .other => .none
    | some nested => declarations space nested
  | _ => .none
termination_by sizeOf value
decreasing_by
  all_goals simp only [Json.arr.sizeOf_spec, Json.obj.sizeOf_spec]
  · omega
  · have := Keyed.sizeOf_get?_lt _hf
    simp only [Json.arr.sizeOf_spec] at this
    omega
  · have := Keyed.sizeOf_get?_lt _hi
    omega
  · have := Keyed.sizeOf_get?_lt _hv
    omega
  · have := Keyed.sizeOf_get?_lt _ht
    omega

/-- The definitions in schemas one after the other. -/
def declarationsOfAll (space : Option String) (values : List Json) : Declarations :=
  match values with
  | [] => .none
  | value :: rest => (declarations space value).append (declarationsOfAll space rest)
termination_by sizeOf values

/-- The definitions in the fields of a record. -/
def declarationsOfFields (space : Option String) (values : List Json) : Declarations :=
  match values with
  | [] => .none
  | value :: rest => (declarationsOfField space value).append (declarationsOfFields space rest)
termination_by sizeOf values

/-- The definitions in a field of a record. -/
def declarationsOfField (space : Option String) (value : Json) : Declarations :=
  match value with
  | .obj members =>
    match _ht : Keyed.get? "type" members with
    | none => .none
    | some type => declarations space type
  | _ => .none
termination_by sizeOf value
decreasing_by
  have := Keyed.sizeOf_get?_lt _ht
  simp only [Json.obj.sizeOf_spec]
  omega

end

/-- The definitions in a source. -/
def declarationsOfSource (text : String) : Declarations :=
  match Json.read? text with
  | none => .none
  | some value => declarations none value

/-- The definitions in sources one after the other. -/
def declarationsOfSources : List (String × String) → Declarations
  | [] => .none
  | source :: rest => (declarationsOfSource source.2).append (declarationsOfSources rest)

variable {space : Option String} {members : Properties} {word : String}

/-- The definitions inside the body of a definition, which is read in the given namespace. -/
def declarationsOfBody (kind : Kind) (space : Option String) (members : Properties) :
    Declarations :=
  match kind with
  | .enum => .none
  | .fixed => .none
  | .record =>
    match Keyed.get? "fields" members with
    | some (.arr fields) => declarationsOfFields space fields
    | _ => .none

theorem declarations_typed (h : Keyed.get? "type" members = some (.str word)) :
    declarations space (.obj members) = match Word.of word with
      | .definition kind =>
        match text? "name" members with
        | none => .none
        | some name =>
          let fullname := qualify space (text? "namespace" members) name
          .one ⟨fullname, kind, members⟩
            (declarationsOfBody kind (splitFullname fullname).1 members) .none
      | .array => ((Keyed.get? "items" members).map (declarations space)).getD .none
      | .map => ((Keyed.get? "values" members).map (declarations space)).getD .none
      | .other => .none := by
  rw [declarations]
  split
  · simp_all
  · rename_i word' h'
    obtain rfl : word' = word := by simpa [h] using h'.symm
    cases Word.of word' with
    | definition kind =>
        dsimp only
        cases text? "name" members with
        | none => rfl
        | some name =>
            cases kind with
            | enum => rfl
            | fixed => rfl
            | record =>
                simp only [declarationsOfBody]
                split <;> split <;> simp_all
    | array =>
        dsimp only
        split <;> simp_all
    | map =>
        dsimp only
        split <;> simp_all
    | other => rfl
  · simp_all

theorem declarations_wrapper {nested : Json} (h : Keyed.get? "type" members = some nested)
    (hn : ∀ word, nested ≠ .str word) :
    declarations space (.obj members) = declarations space nested := by
  rw [declarations]
  split
  · simp_all
  · rename_i word h'
    exact absurd (by simpa [h] using h') (hn word)
  · rename_i nested' _ h'
    obtain rfl : nested' = nested := by simpa [h] using h'.symm
    rfl

theorem declarations_untyped (h : Keyed.get? "type" members = none) :
    declarations space (.obj members) = .none := by
  rw [declarations]
  split <;> simp_all

theorem declarations_other {value : Json} (harr : ∀ members, value ≠ .arr members)
    (hobj : ∀ members, value ≠ .obj members) : declarations space value = .none := by
  rw [declarations]
  · exact harr
  · exact hobj

theorem declarationsOfField_obj {type : Json} (h : Keyed.get? "type" members = some type) :
    declarationsOfField space (.obj members) = declarations space type := by
  rw [declarationsOfField]
  split <;> simp_all

theorem declarationsOfField_untyped (h : Keyed.get? "type" members = none) :
    declarationsOfField space (.obj members) = .none := by
  rw [declarationsOfField]
  split <;> simp_all

theorem declarationsOfField_other {value : Json} (hobj : ∀ members, value ≠ .obj members) :
    declarationsOfField space value = .none := by
  rw [declarationsOfField]
  exact hobj

end Reader

/-! ## What is added to the stored definitions -/

/-- The type comes of the definition: its attributes are those written in it, and its body is what
    reading its body in its own namespace answered. -/
def Declared.Gives (d : Declared) (t : NamedType) : Prop :=
  ∃ body r r', t = Reader.defined d.fullname d.members body ∧
    r.space = (Reader.splitFullname d.fullname).1 ∧
    Reading.outcome (Reader.bodyOf d.kind d.fullname d.members) r = (.ok body, r')

/-- From some stored definitions to others, definitions were added: their fullnames were free, the
    outermost of each fullname is stored, and what else was stored stays. -/
structure Declarations.Adds (v : Declarations) (m m' : Keyed NamedType) : Prop where
  free : ∀ n ∈ v.names, n ∉ Keyed.keys m
  stays : ∀ n, n ∉ v.names → Keyed.get? n m' = Keyed.get? n m
  apart : v.Apart
  stored : ∀ d ∈ v.outermost, ∃ t, Keyed.get? d.fullname m' = some t ∧ d.Gives t

/-- Definitions were stored one after the other, each as it closed, so behind those inside it, and
    each under a fullname that was free as it opened. -/
inductive Declarations.Filed : Declarations → Keyed NamedType → Keyed NamedType → Prop
  | none (m : Keyed NamedType) : Filed .none m m
  | one {d : Declared} {inner next : Declarations} {m m₁ m' : Keyed NamedType} {t : NamedType} :
      d.fullname ∉ Keyed.keys m → Filed inner m m₁ → d.Gives t →
      Filed next (Keyed.put d.fullname t m₁) m' → Filed (.one d inner next) m m'

namespace Declarations

variable {v w : Declarations} {m m₁ m' : Keyed NamedType}

theorem Adds.none (m : Keyed NamedType) : Declarations.none.Adds m m :=
  ⟨by simp, fun _ _ => rfl, trivial, by simp [outermost]⟩

theorem Adds.mem_keys (h : v.Adds m m') {n : String} :
    n ∈ Keyed.keys m' ↔ n ∈ Keyed.keys m ∨ n ∈ v.names := by
  by_cases hn : n ∈ v.names
  · obtain ⟨d, hd, rfl⟩ := List.mem_map.1 (mem_names_iff.1 hn)
    obtain ⟨t, ht, _⟩ := h.stored d hd
    simp [hn, Keyed.mem_keys_of_get? ht]
  · rw [← Keyed.has_iff_mem_keys, ← Keyed.has_iff_mem_keys, Keyed.has, Keyed.has, h.stays n hn]
    simp [hn]

theorem Adds.append (h : v.Adds m m₁) (h' : w.Adds m₁ m') : (v.append w).Adds m m' := by
  have hdisjoint : List.Disjoint v.names w.names :=
    fun n hv hw => h'.free n hw (h.mem_keys.2 (Or.inr hv))
  refine ⟨fun n hn => ?_, fun n hn => ?_, h.apart.append h'.apart hdisjoint, fun d hd => ?_⟩
  · rcases List.mem_append.1 (names_append v w ▸ hn) with hn | hn
    · exact h.free n hn
    · exact fun hm => h'.free n hn (h.mem_keys.2 (Or.inl hm))
  · rw [names_append, List.mem_append, not_or] at hn
    rw [h'.stays n hn.2, h.stays n hn.1]
  · rcases List.mem_append.1 (outermost_append v w ▸ hd) with hd | hd
    · have hn : d.fullname ∈ v.names := mem_names_iff.2 (List.mem_map_of_mem hd)
      rw [h'.stays _ (hdisjoint hn)]
      exact h.stored d hd
    · exact h'.stored d hd

/-- A definition closes behind those inside it. One of them with its own fullname is replaced; that
    one stands no longer, so the definition itself is the outermost. -/
theorem Adds.close {d : Declared} (h : v.Adds m m₁) (hfree : d.fullname ∉ Keyed.keys m)
    {t : NamedType} (ht : d.Gives t) :
    (one d v .none).Adds m (Keyed.put d.fullname t m₁) := by
  refine ⟨fun n hn => ?_, fun n hn => ?_, ⟨h.apart, trivial, by simp⟩, fun e he => ?_⟩
  · rcases List.mem_cons.1 (by simpa using hn) with rfl | hn
    · exact hfree
    · exact h.free n hn
  · have hn' : n ≠ d.fullname ∧ n ∉ v.names := by simpa using hn
    rw [Keyed.get?_put, if_neg (Ne.symm hn'.1), h.stays n hn'.2]
  · have he' : e = d ∨ e ∈ v.outermost ∧ e.fullname ≠ d.fullname := by
      simpa [outermost] using he
    rcases he' with rfl | ⟨he, hne⟩
    · exact ⟨t, by rw [Keyed.get?_put, if_pos rfl], ht⟩
    · rw [Keyed.get?_put, if_neg (Ne.symm hne)]
      exact h.stored e he

theorem Filed.append (h : v.Filed m m₁) (h' : w.Filed m₁ m') : (v.append w).Filed m m' := by
  induction h with
  | none m => exact h'
  | one hfree hinner ht _ _ ih => exact .one hfree hinner ht (ih h')

theorem Filed.adds (h : v.Filed m m') : v.Adds m m' := by
  induction h with
  | none m => exact .none m
  | one hfree _ ht _ ihinner ihnext => exact (ihinner.close hfree ht).append ihnext

end Declarations

/-! ## Steps -/

theorem Reading.of_bind_ok {α β : Type} {m : Reading α} {f : α → Reading β} {r r' : Reader} {b : β}
    (h : outcome (m >>= f) r = (.ok b, r')) :
    ∃ a r₁, outcome m r = (.ok a, r₁) ∧ outcome (f a) r₁ = (.ok b, r') := by
  rw [outcome_bind] at h
  rcases hm : outcome m r with ⟨answer, r₁⟩
  rw [hm] at h
  cases answer with
  | error e => cases h
  | ok a => exact ⟨a, r₁, rfl, h⟩

theorem Reading.complain_ne_ok {α : Type} {problem : SchemaProblem} {r r' : Reader} {a : α} :
    outcome (Reader.complain problem) r ≠ (.ok a, r') := by
  intro h
  obtain ⟨_, _, _, h⟩ := of_bind_ok h
  cases h

theorem Reading.of_within_ok {α : Type} {m : Reading α} {space : Option String} {r r' : Reader}
    {a : α} (h : outcome (Reader.within space m) r = (.ok a, r')) :
    ∃ r₁, outcome m { r with space := space } = (.ok a, r₁) ∧
      r' = { r₁ with space := r.space } := by
  have hwithin : outcome (Reader.within space m) r =
      ((outcome m { r with space := space }).1,
        { (outcome m { r with space := space }).2 with space := r.space }) := rfl
  rw [hwithin] at h
  obtain ⟨hanswer, hstate⟩ := Prod.mk.inj h
  exact ⟨_, Prod.ext hanswer rfl, hstate.symm⟩

namespace Reader

/-- A step that succeeds stores the definitions of the present namespace, and stays in it. -/
def Brings {α : Type} (m : Reading α) (v : Option String → Declarations) : Prop :=
  ∀ r a r', Reading.outcome m r = (.ok a, r') →
    r'.space = r.space ∧ (v r.space).Filed r.named r'.named

variable {α β γ : Type} {m : Reading α} {m' : Reading β} {v w : Option String → Declarations}

theorem brings_complain (problem : SchemaProblem) (v : Option String → Declarations) :
    Brings (complain problem : Reading α) v :=
  fun _ _ _ h => absurd h Reading.complain_ne_ok

/-- A step that stores nothing. -/
theorem brings_of_keeps
    (h : ∀ r : Reader, Reading.Keeps (fun r' => r'.space = r.space ∧ r'.named = r.named) m
      (fun _ _ => True) r) : Brings m fun _ => .none := by
  intro r a r' hm
  obtain ⟨hspace, hnamed⟩ := (h r).1
  rw [hm] at hspace hnamed
  exact ⟨hspace, hnamed ▸ Declarations.Filed.none _⟩

theorem Brings.map {f : α → β} (hm : Brings m v) : Brings (do return f (← m)) v := by
  intro r b r' h
  obtain ⟨a, r₁, ha, h⟩ := Reading.of_bind_ok h
  cases h
  exact hm r a r' ha

theorem Brings.seq {f : α → β → γ} (hm : Brings m v) (hm' : Brings m' w) :
    Brings (do let a ← m; return f a (← m')) fun space => (v space).append (w space) := by
  intro r c r' h
  obtain ⟨a, r₁, ha, h⟩ := Reading.of_bind_ok h
  obtain ⟨hspace, hfiled⟩ := hm r a r₁ ha
  obtain ⟨hspace', hfiled'⟩ := hm'.map r₁ c r' h
  rw [hspace] at hspace' hfiled'
  exact ⟨hspace', hfiled.append hfiled'⟩

theorem brings_wordNode (word : String) (marks : Annotations) :
    Brings (wordNode word marks) fun _ => .none := by
  refine brings_of_keeps fun r => ?_
  unfold wordNode
  cases Primitive.ofWord? word with
  | some p => exact Reading.Keeps.pure ⟨rfl, rfl⟩ trivial
  | none =>
      have hrefer : Reading.Keeps (fun r' => r'.space = r.space ∧ r'.named = r.named) (refer word)
          (fun _ _ => True) r := by
        refine Reading.Keeps.get ?_
        dsimp only
        split
        · exact Reading.Keeps.pure ⟨rfl, rfl⟩ trivial
        split
        · exact Reading.Keeps.pure ⟨rfl, rfl⟩ trivial
        · exact Reading.Keeps.set (Reading.Keeps.pure ⟨rfl, rfl⟩ trivial)
      exact Reading.Keeps.bind hrefer fun _ _ hr' _ => Reading.Keeps.pure hr' trivial

/-! ## Definitions -/

theorem brings_bodyOf {kind : Kind} (fullname : String) {members : Properties}
    (hfields : ∀ fields, Keyed.get? "fields" members = some (.arr fields) →
      Brings (readFields fullname fields) fun space => declarationsOfFields space fields) :
    Brings (bodyOf kind fullname members) fun space => declarationsOfBody kind space members := by
  cases kind with
  | enum =>
      refine brings_of_keeps fun r => ?_
      show Reading.Keeps _ (enumBody fullname members) _ r
      unfold enumBody
      split
      · exact Reading.Keeps.complain ⟨rfl, rfl⟩
      · refine Reading.Keeps.bind (symbolsOf_keeps ⟨rfl, rfl⟩ _ _) fun _ _ hr' _ => ?_
        exact Reading.Keeps.pure hr' trivial
  | fixed =>
      refine brings_of_keeps fun r => ?_
      show Reading.Keeps _ (fixedBody fullname members) _ r
      unfold fixedBody
      split
      · exact Reading.Keeps.complain ⟨rfl, rfl⟩
      · exact Reading.Keeps.pure ⟨rfl, rfl⟩ trivial
  | record =>
      unfold bodyOf declarationsOfBody
      dsimp only
      split
      · next fields hf => simpa only [hf] using (hfields fields hf).map
      · exact brings_complain _ _

theorem openType_ok {word fullname : String} {members : Properties} {r r' : Reader}
    (h : Reading.outcome (openType word members) r = (.ok fullname, r')) :
    r' = r ∧ fullname ∉ Keyed.keys r.named ∧ ∃ name, text? "name" members = some name ∧
      fullname = qualify r.space (text? "namespace" members) name := by
  obtain ⟨hr, hfree⟩ := openType_keeps (r := r) word members
  rw [h] at hr hfree
  refine ⟨hr, hfree fullname rfl, ?_⟩
  unfold openType at h
  cases hname : text? "name" members with
  | none =>
      rw [hname] at h
      exact absurd h Reading.complain_ne_ok
  | some name =>
      rw [hname] at h
      obtain ⟨r₁, _, hget, h⟩ := Reading.of_bind_ok h
      cases hget
      dsimp only at h
      split at h
      · exact absurd h Reading.complain_ne_ok
      · cases h
        exact ⟨name, rfl, rfl⟩

theorem brings_definition {kind : Kind} {word : String} {members : Properties}
    (hword : Word.of word = .definition kind) (htype : Keyed.get? "type" members = some (.str word))
    (hbody : ∀ fullname,
      Brings (bodyOf kind fullname members) fun space => declarationsOfBody kind space members) :
    Brings (do
      let fullname ← openType word members
      let body ← within (splitFullname fullname).1 (bodyOf kind fullname members)
      closeType fullname members body) fun space => declarations space (.obj members) := by
  intro r s r' h
  obtain ⟨fullname, r₀, hopen, hrest⟩ := Reading.of_bind_ok h
  obtain ⟨rfl, hfree, name, hname, hfull⟩ := openType_ok hopen
  obtain ⟨body, r₁, hwithin, hclose⟩ := Reading.of_bind_ok hrest
  -- the body is read in the namespace of the definition; only that differs from the state before
  obtain ⟨r₂, hread, rfl⟩ := Reading.of_within_ok hwithin
  obtain ⟨_, hfiled⟩ := hbody fullname _ body r₂ hread
  have hr' : r' = { r₂ with
      space := r₀.space
      named := Keyed.put fullname (defined fullname members body) r₂.named } :=
    (congrArg Prod.snd hclose).symm
  rw [hr']
  refine ⟨rfl, ?_⟩
  have hd : declarations r₀.space (.obj members) = .one ⟨fullname, kind, members⟩
      (declarationsOfBody kind (splitFullname fullname).1 members) .none := by
    rw [declarations_typed htype, hword, hname, hfull]
  dsimp only
  rw [hd]
  exact .one hfree hfiled ⟨body, _, _, rfl, rfl, hread⟩ (.none _)

/-! ## Nodes and fields -/

/-- Whatever is read, the definitions in it are stored. -/
theorem brings_read :
    (∀ value, Brings (readNode value) fun space => declarations space value) ∧
    (∀ record values, Brings (readFields record values)
      fun space => declarationsOfFields space values) ∧
    (∀ record value, Brings (readField record value) fun space => declarationsOfField space value) ∧
    (∀ values, Brings (readNodes values) fun space => declarationsOfAll space values) := by
  refine readNode.mutual_induct
    (fun value => Brings (readNode value) fun space => declarations space value)
    (fun record values => Brings (readFields record values)
      fun space => declarationsOfFields space values)
    (fun record value => Brings (readField record value)
      fun space => declarationsOfField space value)
    (fun values => Brings (readNodes values) fun space => declarationsOfAll space values)
    ?word ?union ?untyped ?definition ?arrayOpen ?array ?mapOpen ?map ?reference ?wrapper ?other
    ?noFields ?fields ?fieldUnnamed ?fieldUntyped ?field ?fieldOther ?noNodes ?nodes
  case word =>
    intro word
    rw [readNode]
    simpa only [declarations] using brings_wordNode word .none
  case union =>
    intro members ih
    rw [readNode]
    simpa only [declarations] using ih.map
  case untyped =>
    intro members ht
    rw [readNode_untyped ht]
    exact brings_complain _ _
  case definition =>
    intro members word ht kind hw ih
    rw [readNode_typed ht, hw]
    exact brings_definition hw ht fun fullname => brings_bodyOf fullname (ih fullname)
  case arrayOpen =>
    intro members word ht hw hi
    rw [readNode_typed ht, hw]
    dsimp only
    rw [hi]
    exact brings_complain _ _
  case array =>
    intro members word ht hw items hi ih
    simp only [readNode_typed ht, declarations_typed ht, hw, hi]
    exact ih.map
  case mapOpen =>
    intro members word ht hw hv
    rw [readNode_typed ht, hw]
    dsimp only
    rw [hv]
    exact brings_complain _ _
  case map =>
    intro members word ht hw values hv ih
    simp only [readNode_typed ht, declarations_typed ht, hw, hv]
    exact ih.map
  case reference =>
    intro members word ht hw
    simp only [readNode_typed ht, declarations_typed ht, hw]
    exact brings_wordNode word _
  case wrapper =>
    intro members nested hn ht ih
    simp only [readNode_wrapper ht hn, declarations_wrapper ht hn]
    exact ih.map
  case other =>
    intro other hstr harr hobj
    rw [readNode]
    · exact brings_complain _ _
    · exact hstr
    · exact harr
    · exact hobj
  case noFields =>
    intro record
    simp only [readFields, declarationsOfFields]
    exact brings_of_keeps fun r => Reading.Keeps.pure ⟨rfl, rfl⟩ trivial
  case fields =>
    intro record value rest ih ihs
    simp only [readFields, declarationsOfFields]
    exact ih.seq ihs
  case fieldUnnamed =>
    intro record members hn
    rw [readField_obj, hn]
    exact brings_complain _ _
  case fieldUntyped =>
    intro record members name hn ht
    rw [readField_obj, hn, ht]
    exact brings_complain _ _
  case field =>
    intro record members name hn type ht ih
    simp only [readField_obj, declarationsOfField_obj ht, hn, ht]
    exact ih.map
  case fieldOther =>
    intro record value hobj
    rw [readField]
    · exact brings_complain _ _
    · exact hobj
  case noNodes =>
    simp only [readNodes, declarationsOfAll]
    exact brings_of_keeps fun r => Reading.Keeps.pure ⟨rfl, rfl⟩ trivial
  case nodes =>
    intro value rest ih ihs
    simp only [readNodes, declarationsOfAll]
    exact ih.seq ihs

/-! ## Sources -/

theorem brings_readDeclared (values : List Json) :
    Brings (readDeclared values) fun space => declarationsOfAll space values := by
  induction values with
  | nil =>
      simp only [readDeclared, declarationsOfAll]
      exact brings_of_keeps fun r => Reading.Keeps.pure ⟨rfl, rfl⟩ trivial
  | cons value rest ih =>
      intro r names r' h
      rw [readDeclared] at h
      obtain ⟨node, r₁, hnode, h⟩ := Reading.of_bind_ok h
      obtain ⟨hspace, hfiled⟩ := brings_read.1 value r node r₁ hnode
      cases hn : node.reference? with
      | none =>
          rw [hn] at h
          exact absurd h Reading.complain_ne_ok
      | some fullname =>
          rw [hn] at h
          obtain ⟨hspace', hfiled'⟩ := ih.map r₁ names r' h
          rw [hspace] at hspace' hfiled'
          simp only [declarationsOfAll]
          exact ⟨hspace', hfiled.append hfiled'⟩

/-- A source that is no list is read as a list of one. -/
theorem declarations_eq_all (space : Option String) (value : Json) :
    declarations space value = declarationsOfAll space (match value with
      | .arr items => items
      | other => [other]) := by
  cases value with
  | arr items => rw [declarations]
  | _ => simp only [declarationsOfAll, Declarations.append_none]

theorem filed_readSource {origin text : String} {r r' : Reader} {names : List String}
    (h : Reading.outcome (readSource origin text) r = (.ok names, r')) :
    (declarationsOfSource text).Filed r.named r'.named := by
  obtain ⟨_, r₀, hmodify, h⟩ := Reading.of_bind_ok h
  cases hmodify
  unfold declarationsOfSource
  cases hvalue : Json.read? text with
  | none =>
      rw [hvalue] at h
      exact absurd h Reading.complain_ne_ok
  | some value =>
      rw [hvalue] at h
      obtain ⟨declared, r₁, hread, h⟩ := Reading.of_bind_ok h
      obtain ⟨_, hfiled⟩ := brings_readDeclared _ _ declared r₁ hread
      cases h
      dsimp only
      rw [declarations_eq_all]
      exact hfiled

theorem adds_readSource {origin text : String} {r r' : Reader} {names : List String}
    (h : Reading.outcome (readSource origin text) r = (.ok names, r')) :
    (declarationsOfSource text).Adds r.named r'.named :=
  (filed_readSource h).adds

theorem adds_readSources (sources : List (String × String)) :
    ∀ {r r' : Reader}, Reading.outcome (readSources sources) r = (.ok (), r') →
      (declarationsOfSources sources).Adds r.named r'.named := by
  induction sources with
  | nil =>
      intro r r' h
      cases h
      exact .none _
  | cons source rest ih =>
      intro r r' h
      obtain ⟨origin, text⟩ := source
      rw [readSources] at h
      obtain ⟨names, r₁, hsource, h⟩ := Reading.of_bind_ok h
      exact (adds_readSource hsource).append (ih h)

end Reader

/-! ## Catalogs -/

theorem Catalog.adds_of_ofSources {sources : List (String × String)} {c : Catalog}
    (h : ofSources sources = .ok c) :
    (Reader.declarationsOfSources sources).Adds [] c.named := by
  unfold ofSources at h
  rcases hread : (Reader.readSources sources).run Reader.start with ⟨answer, r⟩
  rw [hread] at h
  cases answer with
  | error fault => cases h
  | ok _ =>
      have hnamed : r.named = c.named := by
        simp only [Reader.finish] at h
        split at h
        · cases h
        · rw [← Except.ok.inj h]
      rw [← hnamed]
      exact Reader.adds_readSources sources hread

/-- A catalog stores the definitions of its sources: two of one fullname stand one inside the other,
    and of these the catalog has the outermost, under its fullname and with its content. -/
structure Catalog.Stores (c : Catalog) (v : Declarations) : Prop where
  apart : v.Apart
  keys : ∀ n, n ∈ Keyed.keys c.named ↔ n ∈ v.names
  stored : ∀ d ∈ v.outermost, ∃ t, c.get? d.fullname = some t ∧ d.Gives t
  size : c.size = v.outermost.length
  /-- Each definition has an entry of its own just when none stands inside one of its fullname. -/
  size_eq_iff : c.size = v.all.length ↔ v.Shadowless
  /-- Without such a definition, no fullname is defined twice. -/
  nodup_iff : v.names.Nodup ↔ v.Shadowless

/-- **What a catalog keeps.** Sources that are accepted define a fullname twice only where one
    definition stands inside another of its fullname; the inner one is replaced, and every other
    definition is stored. -/
theorem Catalog.ofSources_stores {sources : List (String × String)} {c : Catalog}
    (h : ofSources sources = .ok c) : c.Stores (Reader.declarationsOfSources sources) := by
  have hclosed : c.Closed := closed_of_ofSources h
  have hadds := adds_of_ofSources h
  have hkeys : ∀ n, n ∈ Keyed.keys c.named ↔ n ∈ (Reader.declarationsOfSources sources).names :=
    fun n => hadds.mem_keys.trans (by simp [Keyed.keys])
  -- both sides list the same fullnames, each once
  have hsize : c.size = (Reader.declarationsOfSources sources).outermost.length := by
    have hperm : (Keyed.keys c.named).Perm
        ((Reader.declarationsOfSources sources).outermost.map Declared.fullname) :=
      (List.perm_ext_iff_of_nodup hclosed.nodup hadds.apart.nodup_outermost).2
        fun n => (hkeys n).trans Declarations.mem_names_iff
    simpa [Keyed.keys, Catalog.size] using hperm.length_eq
  refine ⟨hadds.apart, hkeys, hadds.stored, hsize, ?_, hadds.apart.shadowless_iff_nodup.symm⟩
  rw [hsize]
  exact Declarations.shadowless_iff.symm

/-! ## A record inside itself -/

/-- A record whose only field holds a record of the same fullname, which has none. -/
def nestedSources : List (String × String) :=
  [("x.avsc", "\x7b\"type\":\"record\",\"name\":\"x.A\",\"fields\":[\x7b\"name\":\"x\",\"type\":"
    ++ "\x7b\"type\":\"record\",\"name\":\"x.A\",\"fields\":[]\x7d\x7d]\x7d")]

/-- What comes of reading it. -/
def nestedCatalog : Catalog :=
  (Catalog.ofSources nestedSources).toOption.getD ⟨[], []⟩

theorem ofSources_nested : Catalog.ofSources nestedSources = .ok nestedCatalog :=
  Answer.eq_ok_getD _ (by decide +kernel)

/-- Two definitions of one fullname are visited and accepted, and one entry is left, which is the
    outer record. -/
theorem ofSources_nested_replaces : Catalog.ofSources nestedSources = .ok nestedCatalog ∧
    (Reader.declarationsOfSources nestedSources).names = ["x.A", "x.A"] ∧
    nestedCatalog.size = 1 ∧
    (nestedCatalog.get? "x.A").map (fun t => t.fields.map FieldDecl.name) = some ["x"] :=
  ⟨ofSources_nested, by decide +kernel, by decide +kernel, by decide +kernel⟩

theorem ofSources_stores_nested : Catalog.ofSources nestedSources = .ok nestedCatalog ∧
    nestedCatalog.Stores (Reader.declarationsOfSources nestedSources) :=
  ⟨ofSources_nested, Catalog.ofSources_stores ofSources_nested⟩

end AvroCodegen
