import AvroCodegen.Schema.Reader
import Mathlib.Data.List.TakeWhile

set_option autoImplicit false

/-! # What reading schemas keeps

A `Reader` is used by a sequence of calls, each of which reads a source or a single schema and may
fail at any depth. `Reader.Sound` is what all of them keep: every definition is stored under its own
fullname, and every reference in a stored definition, and every name declared at top level, is
defined or pending. `Reader.finish` lets no pending reference through, which makes a catalog closed.

Reading is a recursion over JSON values in a monad with failure and state. `Reading.Keeps` is the
logic for it: the state meets `P` after the step whether or not it fails, and a success meets `Q`. -/

namespace AvroCodegen

/-! ## A logic for steps -/

namespace Reading

variable {α β : Type}

/-- The answer of a step and the state it leaves. -/
def outcome (m : Reading α) (r : Reader) : Except Fault α × Reader := m.run r

/-- From `r` the step leaves a state that meets `P`, also when it fails, and a success meets `Q`. -/
def Keeps (P : Reader → Prop) (m : Reading α) (Q : α → Reader → Prop) (r : Reader) : Prop :=
  P (outcome m r).2 ∧ ∀ a, (outcome m r).1 = .ok a → Q a (outcome m r).2

variable {P P' : Reader → Prop} {Q Q' : α → Reader → Prop} {r : Reader}

theorem outcome_bind (m : Reading α) (f : α → Reading β) (r : Reader) :
    outcome (m >>= f) r = match outcome m r with
      | (.ok a, r') => outcome (f a) r'
      | (.error e, r') => (.error e, r') := by
  show (ExceptT.bindCont f (m.run r).1) (m.run r).2 = _
  unfold outcome
  rcases h : m.run r with ⟨answer, r'⟩
  cases answer <;> rfl

theorem Keeps.pure {a : α} (hP : P r) (hQ : Q a r) : Keeps P (pure a) Q r :=
  ⟨hP, fun _ h => Except.ok.inj h ▸ hQ⟩

theorem Keeps.throw {fault : Fault} (hP : P r) : Keeps P (throw fault) Q r :=
  ⟨hP, fun _ h => nomatch h⟩

theorem Keeps.bind {m : Reading α} {f : α → Reading β} {S : β → Reader → Prop}
    (hm : Keeps P m Q r) (hf : ∀ a r', P r' → Q a r' → Keeps P (f a) S r') :
    Keeps P (m >>= f) S r := by
  obtain ⟨hP, hQ⟩ := hm
  unfold Keeps
  rw [outcome_bind]
  rcases h : outcome m r with ⟨answer, r'⟩
  rw [h] at hP hQ
  cases answer with
  | ok a => exact hf a r' hP (hQ a rfl)
  | error e => exact ⟨hP, fun b hb => nomatch hb⟩

theorem Keeps.get {f : Reader → Reading α} (h : Keeps P (f r) Q r) :
    Keeps P (MonadState.get >>= f) Q r :=
  h

theorem Keeps.set {r' : Reader} {f : PUnit → Reading α} (h : Keeps P (f ⟨⟩) Q r') :
    Keeps P (MonadStateOf.set r' >>= f) Q r :=
  h

theorem Keeps.modify {g : Reader → Reader} {f : PUnit → Reading α}
    (h : Keeps P (f ⟨⟩) Q (g r)) : Keeps P (modify g >>= f) Q r :=
  h

theorem Keeps.mono {m : Reading α} (h : Keeps P m Q r) (hP : ∀ r', P r' → P' r')
    (hQ : ∀ a r', P r' → Q a r' → Q' a r') : Keeps P' m Q' r :=
  ⟨hP _ h.1, fun a ha => hQ a _ h.1 (h.2 a ha)⟩

theorem Keeps.complain {problem : SchemaProblem} (hP : P r) :
    Keeps P (Reader.complain problem) Q r :=
  Keeps.get (Keeps.throw hP)

/-- A step inside a namespace starts there and gives the namespace around it back. -/
theorem Keeps.within {m : Reading α} {space : Option String}
    (h : Keeps (fun r' => P { r' with space := r.space }) m
      (fun a r' => Q a { r' with space := r.space }) { r with space := space }) :
    Keeps P (Reader.within space m) Q r :=
  h

end Reading

/-! ## What reading a node unfolds to -/

namespace Reader

variable {members : Properties} {word : String}

/-- The body that a definition of the given kind reads. -/
def bodyOf (kind : Kind) (fullname : String) (members : Properties) : Reading NamedBody :=
  match kind with
  | .enum => enumBody fullname members
  | .fixed => fixedBody fullname members
  | .record =>
    match Keyed.get? "fields" members with
    | some (.arr fields) => do return .record (← readFields fullname fields)
    | _ => complain (.missingFields fullname)

theorem readNode_untyped (h : Keyed.get? "type" members = none) :
    readNode (.obj members) = complain .missingType := by
  rw [readNode]
  split <;> simp_all

theorem readNode_typed (h : Keyed.get? "type" members = some (.str word)) :
    readNode (.obj members) = match Word.of word with
      | .definition kind => do
        let fullname ← openType word members
        let body ← within (splitFullname fullname).1 (bodyOf kind fullname members)
        closeType fullname members body
      | .array =>
        match Keyed.get? "items" members with
        | none => complain .missingItems
        | some items => do return .array (← readNode items) (annotations members)
      | .map =>
        match Keyed.get? "values" members with
        | none => complain .missingValues
        | some values => do return .map (← readNode values) (annotations members)
      | .other => wordNode word (annotations members) := by
  -- each lookup stands in the reader with its equation, so the lookups are split and not rewritten
  rw [readNode]
  split
  · simp_all
  · rename_i word' h'
    obtain rfl : word' = word := by simpa [h] using h'.symm
    cases Word.of word' with
    | definition kind =>
        funext fullname
        cases kind with
        | enum => rfl
        | fixed => rfl
        | record =>
            simp only [bodyOf]
            split <;> split <;> simp_all
    | array =>
        dsimp only
        split <;> simp_all
    | map =>
        dsimp only
        split <;> simp_all
    | other => rfl
  · simp_all

theorem readNode_wrapper {nested : Json} (h : Keyed.get? "type" members = some nested)
    (hn : ∀ word, nested ≠ .str word) :
    readNode (.obj members) = (do return annotate members (← readNode nested)) := by
  rw [readNode]
  split
  · simp_all
  · rename_i word h'
    exact absurd (by simpa [h] using h') (hn word)
  · rename_i nested' _ h'
    obtain rfl : nested' = nested := by simpa [h] using h'.symm
    rfl

theorem readField_obj (record : String) (members : Properties) :
    readField record (.obj members) =
      match text? "name" members, Keyed.get? "type" members with
      | none, _ => complain (.fieldMissingName record)
      | some name, none => complain (.fieldMissingType record name)
      | some name, some type => do
        let schema ← readNode type
        return { name := name
                 doc := text? "doc" members
                 schema := schema
                 default := Keyed.get? "default" members
                 props := extras fieldAttributes members } := by
  rw [readField]
  cases text? "name" members with
  | none => rfl
  | some name =>
      dsimp only
      split <;> simp_all

end Reader

/-! ## References -/

/-- A schema refers to a fullname at some depth. -/
inductive Schema.Mentions : Schema → String → Prop
  | named (fullname : String) (m : Annotations) : Mentions (.named fullname m) fullname
  | array {s : Schema} {n : String} (m : Annotations) : Mentions s n → Mentions (.array s m) n
  | map {s : Schema} {n : String} (m : Annotations) : Mentions s n → Mentions (.map s m) n
  | union {ss : List Schema} {s : Schema} {n : String} (m : Annotations) :
      s ∈ ss → Mentions s n → Mentions (.union ss m) n

theorem Schema.mentions_withMarks {s : Schema} {m : Annotations} {n : String}
    (h : (s.withMarks m).Mentions n) : s.Mentions n := by
  cases s with
  | primitive p m' => nomatch h
  | array s m' => cases h with | array _ h => exact .array _ h
  | map s m' => cases h with | map _ h => exact .map _ h
  | union ss m' => cases h with | union _ hs h => exact .union _ hs h
  | named k m' => cases h with | named _ _ => exact .named _ _

/-- The fullname is the namespace and the name with a point between them, or the name alone, which
    has no point then. -/
def NamedType.IsSplit (t : NamedType) : Prop :=
  match t.space with
  | none => t.fullname = t.name ∧ '.' ∉ t.fullname.toList
  | some space => t.fullname = space ++ "." ++ t.name

/-- A fullname is cut at its last point, if it has one. -/
theorem Reader.splitFullname_cases (fullname : String) :
    ('.' ∉ fullname.toList ∧ splitFullname fullname = (none, fullname)) ∨
      ∃ space name, splitFullname fullname = (some space, name) ∧
        fullname = space ++ "." ++ name ∧ '.' ∉ name.toList := by
  -- the cut is made from the back
  have hcut := List.takeWhile_append_dropWhile (p := fun c => c != '.') (l := fullname.toList.reverse)
  cases h : fullname.toList.reverse.dropWhile (fun c => c != '.') with
  | nil =>
      refine Or.inl ⟨fun hdot => ?_, by simp [splitFullname, h]⟩
      have := List.dropWhile_eq_nil_iff.1 h '.' (by simpa using hdot)
      simp at this
  | cons c before =>
      have hc : c = '.' := by
        have := List.head_dropWhile_not (fun c => c != '.') (l := fullname.toList.reverse) (by simp [h])
        simpa [h] using this
      rw [h, hc] at hcut
      have hrev := congrArg List.reverse hcut
      refine Or.inr ⟨String.ofList before.reverse, _, by simp only [splitFullname, h]; rfl, ?_, ?_⟩
      · rw [← String.toList_inj]
        simpa using hrev.symm
      · intro hdot
        have := List.mem_takeWhile_imp (by simpa using hdot)
        simp at this

namespace Reader

/-- A fullname is defined, or pending until the end. -/
def Known (r : Reader) (n : String) : Prop :=
  n ∈ Keyed.keys r.named ∨ n ∈ r.pending.map Prod.fst

/-- A schema refers only to what the reader knows. -/
def SchemaKnown (r : Reader) (s : Schema) : Prop :=
  ∀ n, s.Mentions n → r.Known n

/-- The fields of a definition refer only to what the reader knows. -/
def FieldsKnown (r : Reader) (t : NamedType) : Prop :=
  ∀ f ∈ t.fields, r.SchemaKnown f.schema

/-- What holds of a reader after any calls. -/
structure Sound (r : Reader) : Prop where
  keyed : ∀ k t, (k, t) ∈ r.named → t.fullname = k ∧ t.IsSplit
  closed : ∀ k t, (k, t) ∈ r.named → r.FieldsKnown t
  nodup : (Keyed.keys r.named).Nodup
  topLevel : ∀ n ∈ r.topLevel, r.Known n

theorem sound_start : start.Sound where
  keyed := by simp [start]
  closed := by simp [start]
  nodup := by simp [start, Keyed.keys]
  topLevel := by simp [start]

/-- What reading nodes does to a reader: it adds to what is stored and pending. -/
structure Grows (r r' : Reader) : Prop where
  named : r.named <+: r'.named
  pending : r.pending <+: r'.pending
  topLevel : r'.topLevel = r.topLevel
  space : r'.space = r.space
  location : r'.location = r.location

theorem Grows.refl (r : Reader) : r.Grows r :=
  ⟨List.prefix_refl _, List.prefix_refl _, rfl, rfl, rfl⟩

theorem Grows.trans {r₁ r₂ r₃ : Reader} (h : r₁.Grows r₂) (h' : r₂.Grows r₃) : r₁.Grows r₃ :=
  ⟨h.named.trans h'.named, h.pending.trans h'.pending, h'.topLevel.trans h.topLevel,
    h'.space.trans h.space, h'.location.trans h.location⟩

theorem Known.mono {r r' : Reader} {n : String} (h : r.Known n)
    (hn : Keyed.keys r.named ⊆ Keyed.keys r'.named) (hp : r.pending <+: r'.pending) :
    r'.Known n :=
  h.imp (fun h => hn h) fun h => (hp.map Prod.fst).subset h

theorem Known.grows {r r' : Reader} {n : String} (h : r.Known n) (hr : r.Grows r') : r'.Known n :=
  h.mono (hr.named.map Prod.fst).subset hr.pending

theorem SchemaKnown.grows {r r' : Reader} {s : Schema} (h : r.SchemaKnown s) (hr : r.Grows r') :
    r'.SchemaKnown s :=
  fun n hm => (h n hm).grows hr

/-- What the state of a reader meets in the middle of a call that began at `r`. -/
def Follows (r r' : Reader) : Prop := r.Grows r' ∧ r'.Sound

theorem Follows.refl {r : Reader} (h : r.Sound) : r.Follows r := ⟨.refl r, h⟩

theorem Follows.trans {r₁ r₂ r₃ : Reader} (h : r₁.Follows r₂) (h' : r₂.Follows r₃) :
    r₁.Follows r₃ :=
  ⟨h.1.trans h'.1, h'.2⟩

/-! ## Steps -/

/-- Definitions and top level stay, and what is pending stays pending. -/
theorem sound_of_eq {r r' : Reader} (h : r.Sound) (hn : r'.named = r.named)
    (hp : r.pending <+: r'.pending) (ht : r'.topLevel = r.topLevel) : r'.Sound := by
  have hknown : ∀ n, r.Known n → r'.Known n :=
    fun n hm => hm.mono (by rw [hn]; exact List.Subset.refl _) hp
  refine ⟨?_, ?_, ?_, ?_⟩
  · rw [hn]; exact h.keyed
  · rw [hn]
    exact fun k t hk f hf n hm => hknown n (h.closed k t hk f hf n hm)
  · rw [hn]; exact h.nodup
  · rw [ht]
    exact fun n hm => hknown n (h.topLevel n hm)

/-- One more definition, whose fields refer only to what is known. -/
theorem sound_put {r : Reader} (h : r.Sound) {t : NamedType} (hsplit : t.IsSplit)
    (hfields : r.FieldsKnown t) : Sound { r with named := Keyed.put t.fullname t r.named } := by
  have hknown : ∀ n, r.Known n → Known { r with named := Keyed.put t.fullname t r.named } n :=
    fun n hn => hn.mono (Keyed.keys_subset_put _ _ _) (List.prefix_refl _)
  refine ⟨fun k t' hk => ?_, fun k t' hk f hf n hm => ?_, Keyed.nodup_keys_put h.nodup,
    fun n hn => hknown n (h.topLevel n hn)⟩
  · rcases Keyed.eq_or_mem_of_mem_put hk with heq | hk
    · obtain ⟨rfl, rfl⟩ := Prod.mk.inj heq
      exact ⟨rfl, hsplit⟩
    · exact h.keyed k t' hk
  · rcases Keyed.eq_or_mem_of_mem_put hk with heq | hk
    · obtain ⟨rfl, rfl⟩ := Prod.mk.inj heq
      exact hknown n (hfields f hf n hm)
    · exact hknown n (h.closed k t' hk f hf n hm)

/-- However a reference is resolved, the fullname it stands for is defined or pending. -/
theorem refer_keeps {r : Reader} (h : r.Sound) (name : String) :
    Reading.Keeps r.Follows (refer name) (fun n r' => r'.Known n) r := by
  refine Reading.Keeps.get ?_
  dsimp only
  split
  · next hq => exact Reading.Keeps.pure (.refl h) (Or.inl (Keyed.has_iff_mem_keys.1 hq))
  split
  · next hq => exact Reading.Keeps.pure (.refl h) (Or.inl (Keyed.has_iff_mem_keys.1 hq))
  · refine Reading.Keeps.set (Reading.Keeps.pure ⟨?_, ?_⟩ ?_)
    · exact ⟨List.prefix_refl _, List.prefix_append _ _, rfl, rfl, rfl⟩
    · exact sound_of_eq h rfl (List.prefix_append _ _) rfl
    · exact Or.inr (by simp)

/-- A definition opens without a trace, under a fullname that is not taken. -/
theorem openType_keeps {r : Reader} (word : String) (members : Properties) :
    Reading.Keeps (fun r' => r' = r) (openType word members)
      (fun k _ => k ∉ Keyed.keys r.named) r := by
  unfold openType
  split
  · exact Reading.Keeps.complain rfl
  · refine Reading.Keeps.get ?_
    dsimp only
    split
    · exact Reading.Keeps.complain rfl
    · next hfree => exact Reading.Keeps.pure rfl fun hk => hfree (Keyed.has_iff_mem_keys.2 hk)

/-- The definition that closes under a fullname. -/
def defined (fullname : String) (members : Properties) (body : NamedBody) : NamedType where
  fullname := fullname
  name := (splitFullname fullname).2
  space := (splitFullname fullname).1
  doc := text? "doc" members
  aliases := texts "aliases" members
  logicalType := text? "logicalType" members
  props := extras typeAttributes members
  body := body

theorem isSplit_defined (fullname : String) (members : Properties) (body : NamedBody) :
    (defined fullname members body).IsSplit := by
  rcases splitFullname_cases fullname with ⟨hdot, hcut⟩ | ⟨space, name, hcut, hfull, _⟩
  · simp only [NamedType.IsSplit, defined, hcut]
    exact ⟨trivial, hdot⟩
  · simp only [NamedType.IsSplit, defined, hcut]
    exact hfull

/-- Storing a definition under a fullname that was free when the call began. Only a definition inside
    its own body can have taken the fullname meanwhile; that one gives way. -/
theorem Follows.store {r r₁ : Reader} (hr : r.Follows r₁) {t : NamedType}
    (hfree : t.fullname ∉ Keyed.keys r.named) (hsplit : t.IsSplit) (hfields : r₁.FieldsKnown t) :
    r.Follows { r₁ with named := Keyed.put t.fullname t r₁.named } := by
  refine ⟨⟨?_, hr.1.pending, hr.1.topLevel, hr.1.space, hr.1.location⟩,
    sound_put hr.2 hsplit hfields⟩
  -- what was stored before the call stands in front and stays as it is
  obtain ⟨back, hback⟩ := hr.1.named
  dsimp only
  rw [← hback, Keyed.put_append hfree]
  exact List.prefix_append _ _

theorem closeType_keeps {r r₁ : Reader} (hr : r.Follows r₁) {fullname : String}
    (hfree : fullname ∉ Keyed.keys r.named) (members : Properties) {body : NamedBody}
    (hbody : r₁.FieldsKnown (defined fullname members body)) :
    Reading.Keeps r.Follows (closeType fullname members body)
      (fun s r' => r'.SchemaKnown s) r₁ := by
  have hstore := hr.store hfree (isSplit_defined fullname members body) hbody
  refine Reading.Keeps.modify (Reading.Keeps.pure hstore fun n hm => ?_)
  cases hm with
  | named _ _ => exact Or.inl (Keyed.mem_keys_put _ _ _)

/-! ## Nodes and fields -/

/-- A step reads from any sound state, and its answer refers only to what is known then. -/
def Safe {α : Type} (m : Reading α) (schemas : α → List Schema) : Prop :=
  ∀ r : Reader, r.Sound →
    Reading.Keeps r.Follows m (fun a r' => ∀ s ∈ schemas a, r'.SchemaKnown s) r

theorem safe_complain {α : Type} (problem : SchemaProblem) (schemas : α → List Schema) :
    Safe (complain problem) schemas :=
  fun _ h => Reading.Keeps.complain (.refl h)

/-- An answer made of another answer, with no reference of its own. -/
theorem Safe.map {α β : Type} {m : Reading α} {f : α → β} {schemas : α → List Schema}
    {schemas' : β → List Schema} (hm : Safe m schemas)
    (hf : ∀ a, ∀ s ∈ schemas' (f a), ∀ n, s.Mentions n → ∃ s' ∈ schemas a, s'.Mentions n) :
    Safe (do return f (← m)) schemas' := by
  intro r h
  refine Reading.Keeps.bind (hm r h) fun a r' hr' ha => Reading.Keeps.pure hr' fun s hs n hn => ?_
  obtain ⟨s', hs', hn'⟩ := hf a s hs n hn
  exact ha s' hs' n hn'

/-- Two steps one after the other; what the first refers to stays known in the second. -/
theorem Safe.seq {α β γ : Type} {m : Reading α} {m' : Reading β} {f : α → β → γ}
    {schemas : α → List Schema} {schemas' : β → List Schema} {schemas'' : γ → List Schema}
    (hm : Safe m schemas) (hm' : Safe m' schemas')
    (hf : ∀ a b, ∀ s ∈ schemas'' (f a b), s ∈ schemas a ∨ s ∈ schemas' b) :
    Safe (do let a ← m; return f a (← m')) schemas'' := by
  intro r h
  refine Reading.Keeps.bind (hm r h) fun a r₁ hr₁ ha => ?_
  have hnext : Reading.Keeps r.Follows m'
      (fun b r₂ => (∀ s ∈ schemas' b, r₂.SchemaKnown s) ∧ r₁.Grows r₂) r₁ :=
    (hm' r₁ hr₁.2).mono (fun _ hr₂ => hr₁.trans hr₂) fun _ _ hr₂ hb => ⟨hb, hr₂.1⟩
  refine Reading.Keeps.bind hnext fun b r₂ hr₂ hb => Reading.Keeps.pure hr₂ fun s hs => ?_
  rcases hf a b s hs with hs | hs
  · exact (ha s hs).grows hb.2
  · exact hb.1 s hs

theorem safe_wordNode (word : String) (marks : Annotations) :
    Safe (wordNode word marks) fun s => [s] := by
  intro r h
  unfold wordNode
  cases Primitive.ofWord? word with
  | some p =>
      refine Reading.Keeps.pure (.refl h) fun s hs n hm => ?_
      rw [List.mem_singleton.1 hs] at hm
      nomatch hm
  | none =>
      refine Reading.Keeps.bind (refer_keeps h word) fun k r' hr' hk => ?_
      refine Reading.Keeps.pure hr' fun s hs n hm => ?_
      rw [List.mem_singleton.1 hs] at hm
      cases hm with
      | named _ _ => exact hk

/-- The schemas of the fields in a body. -/
def bodySchemas (body : NamedBody) : List Schema :=
  match body with
  | .record fields => fields.map FieldDecl.schema
  | _ => []

theorem symbolsOf_keeps {P : Reader → Prop} {r : Reader} (h : P r) (fullname : String)
    (symbols : List Json) :
    Reading.Keeps P (symbolsOf fullname symbols) (fun _ _ => True) r := by
  fun_induction symbolsOf fullname symbols with
  | case1 => exact Reading.Keeps.pure h trivial
  | case2 s rest ih => exact Reading.Keeps.bind ih fun _ _ h _ => Reading.Keeps.pure h trivial
  | case3 => exact Reading.Keeps.complain h

theorem safe_bodyOf (kind : Kind) (fullname : String) (members : Properties)
    (hfields : ∀ fields, Keyed.get? "fields" members = some (.arr fields) →
      Safe (readFields fullname fields) (List.map FieldDecl.schema)) :
    Safe (bodyOf kind fullname members) bodySchemas := by
  cases kind with
  | enum =>
      intro r h
      show Reading.Keeps r.Follows (enumBody fullname members) _ r
      unfold enumBody
      split
      · exact Reading.Keeps.complain (.refl h)
      · refine Reading.Keeps.bind (symbolsOf_keeps (.refl h) _ _) fun _ _ hr' _ => ?_
        exact Reading.Keeps.pure hr' (by simp [bodySchemas])
  | fixed =>
      intro r h
      show Reading.Keeps r.Follows (fixedBody fullname members) _ r
      unfold fixedBody
      split
      · exact Reading.Keeps.complain (.refl h)
      · exact Reading.Keeps.pure (.refl h) (by simp [bodySchemas])
  | record =>
      unfold bodyOf
      dsimp only
      split
      · next fields hf => exact (hfields fields hf).map fun _ s hs _ hm => ⟨s, hs, hm⟩
      · exact safe_complain _ _

/-- The state in which a definition reads its body differs in the namespace alone. -/
theorem Follows.restore {r r' : Reader} {space : Option String}
    (h : Follows { r with space := space } r') : r.Follows { r' with space := r.space } :=
  ⟨⟨h.1.named, h.1.pending, h.1.topLevel, rfl, h.1.location⟩,
    sound_of_eq h.2 rfl (List.prefix_refl _) rfl⟩

theorem safe_definition {kind : Kind} {word : String} {members : Properties}
    (hbody : ∀ fullname, Safe (bodyOf kind fullname members) bodySchemas) :
    Safe (do
      let fullname ← openType word members
      let body ← within (splitFullname fullname).1 (bodyOf kind fullname members)
      closeType fullname members body) fun s => [s] := by
  intro r h
  have hopen : Reading.Keeps r.Follows (openType word members)
      (fun k r' => k ∉ Keyed.keys r.named ∧ r' = r) r := by
    refine (openType_keeps word members).mono (fun r' (hr' : r' = r) => ?_) fun _ _ hr' hk => ⟨hk, hr'⟩
    rw [hr']
    exact .refl h
  refine Reading.Keeps.bind hopen fun fullname r₁ _ ⟨hfree, hr₁⟩ => ?_
  rw [hr₁]
  -- the body is read in the namespace of the definition, which says nothing about what is stored
  have hspace : Sound { r with space := (splitFullname fullname).1 } :=
    sound_of_eq h rfl (List.prefix_refl _) rfl
  have hwithin : Reading.Keeps r.Follows
      (within (splitFullname fullname).1 (bodyOf kind fullname members))
      (fun body r' => ∀ s ∈ bodySchemas body, r'.SchemaKnown s) r :=
    Reading.Keeps.within ((hbody fullname _ hspace).mono (fun _ hr' => hr'.restore)
      fun _ _ _ hk => hk)
  refine Reading.Keeps.bind hwithin fun body r₂ hr₂ hk => ?_
  have hfields : r₂.FieldsKnown (defined fullname members body) := by
    intro f hf
    refine hk f.schema ?_
    cases body with
    | record fields => exact List.mem_map_of_mem hf
    | enum symbols => nomatch hf
    | fixed size => nomatch hf
  refine (closeType_keeps hr₂ hfree members hfields).mono (fun _ hr' => hr') fun s r' _ hs s' hs' => ?_
  rw [List.mem_singleton.1 hs']
  exact hs

/-- Reading keeps a reader sound through every nesting, and the schemas it answers with refer only to
    what is known. -/
theorem safe_read :
    (∀ value, Safe (readNode value) fun s => [s]) ∧
    (∀ record values, Safe (readFields record values) (List.map FieldDecl.schema)) ∧
    (∀ record value, Safe (readField record value) fun f => [f.schema]) ∧
    (∀ values, Safe (readNodes values) id) := by
  -- one case for each way that a node, a field or a list of them is read
  refine readNode.mutual_induct
    (fun value => Safe (readNode value) fun s => [s])
    (fun record values => Safe (readFields record values) (List.map FieldDecl.schema))
    (fun record value => Safe (readField record value) fun f => [f.schema])
    (fun values => Safe (readNodes values) id)
    ?word ?union ?untyped ?definition ?arrayOpen ?array ?mapOpen ?map ?reference ?wrapper ?other
    ?noFields ?fields ?fieldUnnamed ?fieldUntyped ?field ?fieldOther ?noNodes ?nodes
  case word =>
    intro word
    rw [readNode]
    exact safe_wordNode word .none
  case union =>
    intro members ih
    rw [readNode]
    refine ih.map fun ss s hs n hm => ?_
    rw [List.mem_singleton.1 hs] at hm
    cases hm with
    | union _ hs hm => exact ⟨_, hs, hm⟩
  case untyped =>
    intro members ht
    rw [readNode_untyped ht]
    exact safe_complain _ _
  case definition =>
    intro members word ht kind hw ih
    rw [readNode_typed ht, hw]
    exact safe_definition fun fullname => safe_bodyOf kind fullname members (ih fullname)
  case arrayOpen =>
    intro members word ht hw hi
    rw [readNode_typed ht, hw]
    dsimp only
    rw [hi]
    exact safe_complain _ _
  case array =>
    intro members word ht hw items hi ih
    rw [readNode_typed ht, hw]
    dsimp only
    rw [hi]
    refine ih.map fun s s' hs n hm => ⟨s, by simp, ?_⟩
    rw [List.mem_singleton.1 hs] at hm
    cases hm with
    | array _ hm => exact hm
  case mapOpen =>
    intro members word ht hw hv
    rw [readNode_typed ht, hw]
    dsimp only
    rw [hv]
    exact safe_complain _ _
  case map =>
    intro members word ht hw values hv ih
    rw [readNode_typed ht, hw]
    dsimp only
    rw [hv]
    refine ih.map fun s s' hs n hm => ⟨s, by simp, ?_⟩
    rw [List.mem_singleton.1 hs] at hm
    cases hm with
    | map _ hm => exact hm
  case reference =>
    intro members word ht hw
    rw [readNode_typed ht, hw]
    exact safe_wordNode word _
  case wrapper =>
    intro members nested hn ht ih
    rw [readNode_wrapper ht hn]
    refine ih.map fun s s' hs n hm => ⟨s, by simp, ?_⟩
    rw [List.mem_singleton.1 hs] at hm
    exact Schema.mentions_withMarks hm
  case other =>
    intro other hstr harr hobj
    rw [readNode]
    · exact safe_complain _ _
    · exact hstr
    · exact harr
    · exact hobj
  case noFields =>
    intro record
    rw [readFields]
    exact fun r h => Reading.Keeps.pure (.refl h) (by simp)
  case fields =>
    intro record value rest ih ihs
    rw [readFields]
    exact ih.seq ihs fun f fs s hs => by simpa using hs
  case fieldUnnamed =>
    intro record members hn
    rw [readField_obj, hn]
    exact safe_complain _ _
  case fieldUntyped =>
    intro record members name hn ht
    rw [readField_obj, hn, ht]
    exact safe_complain _ _
  case field =>
    intro record members name hn type ht ih
    rw [readField_obj, hn, ht]
    exact ih.map fun s s' hs n hm => ⟨s, by simp, by rwa [List.mem_singleton.1 hs] at hm⟩
  case fieldOther =>
    intro record value hobj
    rw [readField]
    · exact safe_complain _ _
    · exact hobj
  case noNodes =>
    rw [readNodes]
    exact fun r h => Reading.Keeps.pure (.refl h) (by simp)
  case nodes =>
    intro value rest ih ihs
    rw [readNodes]
    exact ih.seq ihs fun s ss s' hs => by simpa using hs

/-! ## Calls -/

theorem readDeclared_keeps (values : List Json) :
    ∀ {r : Reader}, r.Sound →
      Reading.Keeps r.Follows (readDeclared values) (fun names r' => ∀ n ∈ names, r'.Known n) r := by
  induction values with
  | nil => exact fun h => Reading.Keeps.pure (.refl h) (by simp)
  | cons value rest ih =>
      intro r h
      refine Reading.Keeps.bind (safe_read.1 value r h) fun node r₁ hr₁ hnode => ?_
      cases node with
      | named n m =>
          -- the name is known before the rest is read, and stays known
          have hn : r₁.Known n := hnode _ (by simp) n (.named n m)
          have hrest : Reading.Keeps r.Follows (readDeclared rest)
              (fun names r₂ => (∀ k ∈ names, r₂.Known k) ∧ r₁.Grows r₂) r₁ :=
            (ih hr₁.2).mono (fun _ hr₂ => hr₁.trans hr₂) fun _ _ hr₂ hk => ⟨hk, hr₂.1⟩
          refine Reading.Keeps.bind hrest fun names r₂ hr₂ ⟨hk, hg⟩ => Reading.Keeps.pure hr₂ ?_
          intro k hk'
          rcases List.mem_cons.1 hk' with rfl | hk'
          · exact hn.grows hg
          · exact hk k hk'
      | primitive p m => exact Reading.Keeps.complain hr₁
      | array s m => exact Reading.Keeps.complain hr₁
      | map s m => exact Reading.Keeps.complain hr₁
      | union ss m => exact Reading.Keeps.complain hr₁

theorem readSource_keeps {r : Reader} (h : r.Sound) (origin source : String) :
    Reading.Keeps Sound (readSource origin source) (fun _ _ => True) r := by
  have hstart : Sound { r with location := origin, space := none } :=
    sound_of_eq h rfl (List.prefix_refl _) rfl
  refine Reading.Keeps.modify ?_
  cases Json.read? source with
  | none => exact Reading.Keeps.complain hstart
  | some value =>
      have hdeclared : ∀ members, Reading.Keeps Sound (readDeclared members)
          (fun names r' => ∀ n ∈ names, r'.Known n) { r with location := origin, space := none } :=
        fun members => (readDeclared_keeps members hstart).mono (fun _ hr' => hr'.2)
          fun _ _ _ hk => hk
      refine Reading.Keeps.bind (hdeclared _) fun names r' hr' hk => ?_
      refine Reading.Keeps.modify (Reading.Keeps.pure ?_ trivial)
      refine ⟨hr'.keyed, hr'.closed, hr'.nodup, fun n hn => ?_⟩
      rcases List.mem_append.1 hn with hn | hn
      · exact hr'.topLevel n hn
      · exact hk n hn

/-- What a reader may be asked to read: a source, or a single schema. -/
inductive Call where
  | source (origin text : String)
  | node (value : Json)

/-- The reader after a call, whether the call succeeds or fails. -/
def Call.run : Call → Reader → Reader
  | .source origin text, r => (Reading.outcome (readSource origin text) r).2
  | .node value, r => (Reading.outcome (readNode value) r).2

/-- The reader after some calls, the first of which finds it new. -/
def after (calls : List Call) : Reader :=
  calls.foldl (fun r call => call.run r) start

theorem Call.sound_run (call : Call) {r : Reader} (h : r.Sound) : (call.run r).Sound := by
  cases call with
  | source origin text => exact (readSource_keeps h origin text).1
  | node value => exact (safe_read.1 value r h).1.2

theorem sound_after (calls : List Call) : (after calls).Sound := by
  unfold after
  -- the calls may begin at any sound reader
  generalize hr : start = r
  have h : r.Sound := hr ▸ sound_start
  clear hr
  induction calls generalizing r with
  | nil => exact h
  | cons call rest ih => exact ih (call.run r) (call.sound_run h)

theorem mem_firstOnly {n : String} {names : List String} :
    ∀ {seen : List String}, n ∈ firstOnly seen names ↔ n ∈ names ∧ n ∉ seen := by
  induction names with
  | nil => simp [firstOnly]
  | cons k rest ih =>
      intro seen
      by_cases hk : seen.contains k
      · have hmem : k ∈ seen := by simpa using hk
        rw [firstOnly, if_pos hk, ih, List.mem_cons]
        exact ⟨fun h => ⟨Or.inr h.1, h.2⟩,
          fun h => ⟨h.1.resolve_left fun hn => h.2 (hn ▸ hmem), h.2⟩⟩
      · have hmem : k ∉ seen := by simpa using hk
        rw [firstOnly, if_neg hk, List.mem_cons, ih, List.mem_cons, List.mem_cons, not_or]
        by_cases hn : n = k
        · simp [hn, hmem]
        · simp [hn]

theorem nodup_firstOnly (names : List String) :
    ∀ seen : List String, (firstOnly seen names).Nodup := by
  induction names with
  | nil => simp [firstOnly]
  | cons k rest ih =>
      intro seen
      by_cases hk : seen.contains k
      · rw [firstOnly, if_pos hk]
        exact ih seen
      · rw [firstOnly, if_neg hk, List.nodup_cons]
        exact ⟨fun h => (mem_firstOnly.1 h).2 (by simp), ih _⟩

end Reader

/-! ## Catalogs -/

/-- A catalog in which nothing is missing and everything stands under its own fullname. -/
structure Catalog.Closed (c : Catalog) : Prop where
  keyed : ∀ k t, (k, t) ∈ c.named → t.fullname = k ∧ t.IsSplit
  closed : ∀ k t, (k, t) ∈ c.named → ∀ f ∈ t.fields, ∀ n, f.schema.Mentions n →
    n ∈ Keyed.keys c.named
  nodup : (Keyed.keys c.named).Nodup
  topLevel : ∀ n ∈ c.topLevel, n ∈ Keyed.keys c.named
  once : c.topLevel.Nodup

/-- The end of reading lets no pending reference through. -/
theorem Reader.Sound.closed_of_finish {r : Reader} (hr : r.Sound) {c : Catalog}
    (h : r.finish = .ok c) : c.Closed := by
  unfold Reader.finish at h
  split at h
  · cases h
  · next hfind =>
      have hc : c = ⟨r.named, firstOnly [] r.topLevel⟩ := (Except.ok.inj h).symm
      -- no reference is left open, so what is known is defined
      have hkeys : ∀ n, r.Known n → n ∈ Keyed.keys r.named := by
        intro n hn
        rcases hn with hn | hn
        · exact hn
        · obtain ⟨p, hp, rfl⟩ := List.mem_map.1 hn
          have := List.find?_eq_none.1 hfind p hp
          exact Keyed.has_iff_mem_keys.1 (by simpa using this)
      rw [hc]
      exact ⟨hr.keyed, fun k t hk f hf n hm => hkeys n (hr.closed k t hk f hf n hm), hr.nodup,
        fun n hn => hkeys n (hr.topLevel n (Reader.mem_firstOnly.1 hn).1),
        Reader.nodup_firstOnly _ _⟩

/-- Sources that are read without a failure are calls. -/
theorem Reader.readSources_eq_after (sources : List (String × String)) :
    ∀ {r : Reader}, (Reading.outcome (readSources sources) r).1 = .ok () →
      (Reading.outcome (readSources sources) r).2 =
        (sources.map fun s => Call.source s.1 s.2).foldl (fun r call => call.run r) r := by
  induction sources with
  | nil => intro r _; rfl
  | cons source rest ih =>
      intro r h
      obtain ⟨origin, text⟩ := source
      rw [readSources, Reading.outcome_bind] at h ⊢
      rw [List.map_cons, List.foldl_cons]
      have hrun : Call.run (.source origin text) r =
          (Reading.outcome (readSource origin text) r).2 := rfl
      rw [hrun]
      rcases hread : Reading.outcome (readSource origin text) r with ⟨answer, r'⟩
      rw [hread] at h
      cases answer with
      | ok names => exact ih h
      | error fault => cases h

theorem Catalog.finish_of_ofSources {sources : List (String × String)} {c : Catalog}
    (h : ofSources sources = .ok c) :
    (Reader.after (sources.map fun s => .source s.1 s.2)).finish = .ok c := by
  unfold ofSources at h
  have hrun : (Reader.readSources sources).run Reader.start =
      Reading.outcome (Reader.readSources sources) Reader.start := rfl
  rw [hrun] at h
  rcases hread : Reading.outcome (Reader.readSources sources) Reader.start with ⟨answer, r⟩
  rw [hread] at h
  cases answer with
  | error fault => cases h
  | ok _ =>
      have hafter := Reader.readSources_eq_after sources (congrArg Prod.fst hread)
      rw [hread] at hafter
      rw [Reader.after, ← hafter]
      exact h

theorem Catalog.closed_of_ofSources {sources : List (String × String)} {c : Catalog}
    (h : ofSources sources = .ok c) : c.Closed :=
  (Reader.sound_after _).closed_of_finish (finish_of_ofSources h)

/-! ## A tree of records

A record that holds itself, an enum that it refers to before the enum is defined, and one that a
schema left behind which then failed. -/

namespace Reader

/-- The schema of an enum with one symbol. -/
def enumNode (name symbol : String) : Json :=
  .obj [("name", .str name), ("symbols", .arr [.str symbol]), ("type", .str "enum")]

/-- The schema of a record. -/
def recordNode (name : String) (fields : List (String × Json)) : Json :=
  .obj [("fields", .arr (fields.map fun f => .obj [("name", .str f.1), ("type", f.2)])),
    ("name", .str name), ("type", .str "record")]

/-- The schema of an array. -/
def arrayNode (items : Json) : Json :=
  .obj [("items", items), ("type", .str "array")]

def treeCalls : List Call :=
  [ .source "broken" "[\"x.Colour\", 1]",
    .node (recordNode "x.Broken" [("side", enumNode "Left" "A"), ("bad", .null)]),
    .node (recordNode "x.Tree"
      [ ("kids", arrayNode (arrayNode (.str "Tree"))),
        ("colour", .str "Colour"),
        ("side", .str "Left"),
        ("mark", .arr [.str "null", .str "Colour"]) ]),
    .source "tree" "[\"x.Tree\"]",
    .node (enumNode "x.Colour" "RED") ]

/-- What comes of reading the tree. -/
def treeCatalog : Catalog :=
  match (after treeCalls).finish with
  | .ok c => c
  | .error _ => ⟨[], []⟩

theorem finish_treeCalls : (after treeCalls).finish = .ok treeCatalog := by
  have hok : (after treeCalls).finish.toOption.isSome = true := by decide +kernel
  unfold treeCatalog
  cases h : (after treeCalls).finish with
  | ok c => rfl
  | error fault => simp [h, Except.toOption] at hok

end Reader

end AvroCodegen
