import AvroCodegen.Proofs.Declarations

set_option autoImplicit false

/-! # The order of sources

A reference is answered where it is met, with what is defined by then: the name completed by the
namespace around it, else the bare name, else the completed name as a promise. So the answer may
change with the sources that were read before. It does not if the reference is `Settled`: completing
changes nothing, or the bare name is defined nowhere, or this source defines it and no other source
can come in between.

`InStep` compares two readers that read one source after different others: they answer the same and
store the same. With the empty reader as one of them, `Catalog.ofSources_perm` follows: settled
sources fit together just when each reads well alone, which no order changes. Where a reference is
not settled, the order decides (`Catalog.ofSources_order_decides`). -/

namespace AvroCodegen

namespace Reader

/-! ## References -/

/-- Reading a schema inside a namespace meets a reference, a word inside a namespace. -/
inductive Meets : Option String → Json → Option String → String → Prop
  | word {space : Option String} {word : String} :
      Primitive.ofWord? word = none → Meets space (.str word) space word
  | member {space space' : Option String} {members : List Json} {value : Json} {word : String} :
      value ∈ members → Meets space value space' word → Meets space (.arr members) space' word
  | typed {space : Option String} {members : Properties} {word : String} :
      Keyed.get? "type" members = some (.str word) → Word.of word = .other →
      Primitive.ofWord? word = none → Meets space (.obj members) space word
  | items {space space' : Option String} {members : Properties} {array word : String}
      {items : Json} :
      Keyed.get? "type" members = some (.str array) → Word.of array = .array →
      Keyed.get? "items" members = some items → Meets space items space' word →
      Meets space (.obj members) space' word
  | values {space space' : Option String} {members : Properties} {map word : String}
      {values : Json} :
      Keyed.get? "type" members = some (.str map) → Word.of map = .map →
      Keyed.get? "values" members = some values → Meets space values space' word →
      Meets space (.obj members) space' word
  | wrapped {space space' : Option String} {members : Properties} {nested : Json} {word : String} :
      Keyed.get? "type" members = some nested → (∀ word, nested ≠ .str word) →
      Meets space nested space' word → Meets space (.obj members) space' word
  | field {space space' : Option String} {members field : Properties} {record name word : String}
      {fields : List Json} {type : Json} :
      Keyed.get? "type" members = some (.str record) → Word.of record = .definition .record →
      text? "name" members = some name → Keyed.get? "fields" members = some (.arr fields) →
      .obj field ∈ fields → Keyed.get? "type" field = some type →
      Meets (splitFullname (qualify space (text? "namespace" members) name)).1 type space' word →
      Meets space (.obj members) space' word

/-- Reading fields inside a namespace meets a reference in the type of one of them. -/
def FieldsMeet (fields : List Json) (space space' : Option String) (word : String) : Prop :=
  ∃ field type, .obj field ∈ fields ∧ Keyed.get? "type" field = some type ∧
    Meets space type space' word

/-- A source meets a reference. -/
def SourceMeets (text : String) (space : Option String) (word : String) : Prop :=
  ∃ value, Json.read? text = some value ∧ Meets none value space word

/-- A reference in a source that defines `own`, among sources that define `all` together, has the
    same answer whatever was read before. -/
def Settled (own all : List String) (space : Option String) (word : String) : Prop :=
  qualify space none word = word ∨ word ∉ all ∨
    word ∈ own ∧ (qualify space none word ∈ own ∨ qualify space none word ∉ all)

theorem qualify_of_dot {space given : Option String} {word : String} (h : '.' ∈ word.toList) :
    qualify space given word = word := by
  simp [qualify, h]

/-- Where every definition has a namespace, every reference is settled. -/
theorem settled_of_dots {own all : List String} (h : ∀ n ∈ all, '.' ∈ n.toList)
    (space : Option String) (word : String) : Settled own all space word := by
  by_cases hword : '.' ∈ word.toList
  · exact Or.inl (qualify_of_dot hword)
  · exact Or.inr (Or.inl fun hall => hword (h word hall))

/-! ## Two readers of one source -/

/-- Every reference that is open is to a name that is defined in the end. -/
def Answered (all : List String) (r : Reader) : Prop :=
  ∀ n ∈ r.pending.map Prod.fst, n ∈ all

/-- Two readers in the middle of one source, which defines `own`: they stand in the same namespace and
    store the same under the names of the source. What else they store was defined by other sources,
    and what is open in the second is open in the first or defined in the end. -/
structure Beside (own all : List String) (r r' : Reader) : Prop where
  space : r'.space = r.space
  named : ∀ n ∈ own, Keyed.get? n r'.named = Keyed.get? n r.named
  bound : Keyed.keys r.named ⊆ all
  bound' : Keyed.keys r'.named ⊆ all
  answered : Answered all r → Answered all r'

/-- A step on which two such readers agree: where the first succeeds, so does the second, with the same
    answer. The step defines what `v` says and meets what `refs` says. -/
def InStep {α : Type} (own all : List String) (m : Reading α) (v : Option String → Declarations)
    (refs : Option String → Option String → String → Prop) : Prop :=
  ∀ r₁ r₂ a r₁', Beside own all r₁ r₂ → (v r₁.space).names ⊆ own →
    (∀ space word, refs r₁.space space word → Settled own all space word) →
    Reading.outcome m r₁ = (.ok a, r₁') →
    r₁'.space = r₁.space ∧ ∃ r₂', Reading.outcome m r₂ = (.ok a, r₂') ∧ Beside own all r₁' r₂'

variable {own all : List String} {r r' : Reader}

theorem Beside.mem_keys_iff (h : Beside own all r r') {n : String} (hn : n ∈ own ∨ n ∉ all) :
    n ∈ Keyed.keys r'.named ↔ n ∈ Keyed.keys r.named := by
  rcases hn with hn | hn
  · rw [← Keyed.has_iff_mem_keys, ← Keyed.has_iff_mem_keys, Keyed.has, Keyed.has, h.named n hn]
  · exact ⟨fun hmem => absurd (h.bound' hmem) hn, fun hmem => absurd (h.bound hmem) hn⟩

/-! ## References in step -/

/-- A reference is answered by its bare name. -/
def TakesBare (r : Reader) (word : String) : Prop :=
  qualify r.space none word ∉ Keyed.keys r.named ∧ word ∈ Keyed.keys r.named

/-- A reader with one more open reference. -/
def promise (n : String) (r : Reader) : Reader :=
  { r with pending := r.pending ++ [(n, r.location)] }

theorem outcome_refer_of_bare {word : String} (h : r.TakesBare word) :
    Reading.outcome (refer word) r = (.ok word, r) := by
  show Reading.outcome (if Keyed.has (qualify r.space none word) r.named then _
    else if Keyed.has word r.named then _ else _) r = _
  rw [if_neg fun hq => h.1 (Keyed.has_iff_mem_keys.1 hq), if_pos (Keyed.has_iff_mem_keys.2 h.2)]
  rfl

theorem outcome_refer_of_not_bare {word : String} (h : ¬ r.TakesBare word) :
    Reading.outcome (refer word) r = (.ok (qualify r.space none word),
      if qualify r.space none word ∈ Keyed.keys r.named then r
      else promise (qualify r.space none word) r) := by
  show Reading.outcome (if Keyed.has (qualify r.space none word) r.named then _
    else if Keyed.has word r.named then _ else _) r = _
  by_cases hq : qualify r.space none word ∈ Keyed.keys r.named
  · rw [if_pos (Keyed.has_iff_mem_keys.2 hq), if_pos hq]
    rfl
  · have hword : word ∉ Keyed.keys r.named := fun hword => h ⟨hq, hword⟩
    rw [if_neg fun hq' => hq (Keyed.has_iff_mem_keys.1 hq'),
      if_neg fun hword' => hword (Keyed.has_iff_mem_keys.1 hword'), if_neg hq]
    rfl

theorem answered_promise {n : String} : Answered all (promise n r) ↔ Answered all r ∧ n ∈ all := by
  simp only [Answered, promise, List.map_append, List.mem_append, List.map_singleton,
    List.mem_singleton]
  exact ⟨fun h => ⟨fun k hk => h k (Or.inl hk), h n (Or.inr rfl)⟩,
    fun ⟨h, hn⟩ k hk => hk.elim (h k) fun heq => heq ▸ hn⟩

theorem Beside.promise_left (h : Beside own all r r') (n : String) :
    Beside own all (promise n r) r' :=
  ⟨h.space, h.named, h.bound, h.bound', fun hr => h.answered (answered_promise.1 hr).1⟩

theorem Beside.promise_right (h : Beside own all r r') {n : String}
    (hn : Answered all r → n ∈ all) : Beside own all r (promise n r') :=
  ⟨h.space, h.named, h.bound, h.bound',
    fun hr => answered_promise.2 ⟨h.answered hr, hn hr⟩⟩

/-- A settled reference is answered by its bare name in both readers or in none. -/
theorem Beside.takesBare_iff (h : Beside own all r r') {word : String}
    (hsettled : Settled own all r.space word) : r'.TakesBare word ↔ r.TakesBare word := by
  unfold TakesBare
  rw [h.space]
  rcases hsettled with heq | hall | ⟨hown, hfull⟩
  · rw [heq]
    exact ⟨fun h => absurd h.2 h.1, fun h => absurd h.2 h.1⟩
  · exact ⟨fun h' => absurd (h.bound' h'.2) hall, fun h' => absurd (h.bound h'.2) hall⟩
  · rw [h.mem_keys_iff (Or.inl hown), h.mem_keys_iff hfull]

/-- A settled reference is answered the same by both. It may be open in one and defined in the other,
    but then it is defined in the end. -/
theorem inStep_refer (word : String) :
    InStep own all (refer word) (fun _ => .none) fun space space' word' =>
      space' = space ∧ word' = word := by
  intro r₁ r₂ a r₁' h _ hrefs hread
  have hbare := h.takesBare_iff (hrefs r₁.space word ⟨rfl, rfl⟩)
  by_cases hr₁ : r₁.TakesBare word
  · rw [outcome_refer_of_bare hr₁] at hread
    cases hread
    exact ⟨rfl, r₂, outcome_refer_of_bare (hbare.2 hr₁), h⟩
  · rw [outcome_refer_of_not_bare hr₁] at hread
    cases hread
    have hread₂ := outcome_refer_of_not_bare (r := r₂) fun hr₂ => hr₁ (hbare.1 hr₂)
    rw [h.space] at hread₂
    refine ⟨by split <;> rfl, _, hread₂, ?_⟩
    split <;> split
    · exact h
    · next hmem _ => exact h.promise_right fun _ => h.bound hmem
    · exact h.promise_left _
    · exact (h.promise_left _).promise_right fun hr => (answered_promise.1 hr).2

/-! ## Steps in step -/

theorem outcome_bind_of_ok {α β : Type} {m : Reading α} {f : α → Reading β} {a : α}
    (h : Reading.outcome m r = (.ok a, r')) :
    Reading.outcome (m >>= f) r = Reading.outcome (f a) r' := by
  rw [Reading.outcome_bind, h]

theorem outcome_within_of_ok {α : Type} {m : Reading α} {space : Option String} {a : α}
    (h : Reading.outcome m { r with space := space } = (.ok a, r')) :
    Reading.outcome (within space m) r = (.ok a, { r' with space := r.space }) := by
  show ((Reading.outcome m { r with space := space }).1,
    { (Reading.outcome m { r with space := space }).2 with space := r.space }) = _
  rw [h]

theorem outcome_closeType (fullname : String) (members : Properties) (body : NamedBody)
    (r : Reader) : Reading.outcome (closeType fullname members body) r =
      (.ok (.named fullname .none),
        { r with named := Keyed.put fullname (defined fullname members body) r.named }) :=
  rfl

section Steps

variable {α β γ : Type} {m : Reading α} {m' : Reading β} {v w : Option String → Declarations}
  {refs refs' : Option String → Option String → String → Prop}

theorem inStep_complain (problem : SchemaProblem) (v : Option String → Declarations)
    (refs : Option String → Option String → String → Prop) :
    InStep own all (complain problem : Reading α) v refs :=
  fun _ _ _ _ _ _ _ hread => absurd hread Reading.complain_ne_ok

theorem inStep_pure (a : α) (v : Option String → Declarations)
    (refs : Option String → Option String → String → Prop) :
    InStep own all (pure a : Reading α) v refs := by
  intro r₁ r₂ b r₁' h _ _ hread
  cases hread
  exact ⟨rfl, r₂, rfl, h⟩

theorem InStep.mono (hm : InStep own all m v refs)
    (hrefs : ∀ space space' word, refs space space' word → refs' space space' word) :
    InStep own all m v refs' :=
  fun r₁ r₂ a r₁' h hv hsettled =>
    hm r₁ r₂ a r₁' h hv fun space word hmeets => hsettled space word (hrefs _ _ _ hmeets)

theorem InStep.map {f : α → β} (hm : InStep own all m v refs) :
    InStep own all (do return f (← m)) v refs := by
  intro r₁ r₂ b r₁' h hv hsettled hread
  obtain ⟨a, r₃, hfirst, hrest⟩ := Reading.of_bind_ok hread
  obtain ⟨hspace, r₂', hread₂, h'⟩ := hm r₁ r₂ a r₃ h hv hsettled hfirst
  cases hrest
  refine ⟨hspace, r₂', ?_, h'⟩
  rw [outcome_bind_of_ok hread₂]
  rfl

theorem InStep.bind {f : α → Reading β} (hm : InStep own all m v refs)
    (hf : ∀ a, InStep own all (f a) w refs') :
    InStep own all (m >>= f) (fun space => (v space).append (w space))
      fun space space' word => refs space space' word ∨ refs' space space' word := by
  intro r₁ r₂ b r₁' h hv hsettled hread
  dsimp only at hv
  rw [Declarations.names_append, List.append_subset] at hv
  obtain ⟨a, r₃, hfirst, hrest⟩ := Reading.of_bind_ok hread
  obtain ⟨hspace, r₄, hfirst₂, h'⟩ :=
    hm r₁ r₂ a r₃ h hv.1 (fun space word hmeets => hsettled space word (Or.inl hmeets)) hfirst
  have hnext := hf a r₃ r₄ b r₁' h'
  rw [hspace] at hnext
  obtain ⟨hspace', r₂', hrest₂, h''⟩ :=
    hnext hv.2 (fun space word hmeets => hsettled space word (Or.inr hmeets)) hrest
  exact ⟨hspace', r₂', (outcome_bind_of_ok hfirst₂).trans hrest₂, h''⟩

theorem InStep.seq {f : α → β → γ} (hm : InStep own all m v refs) (hm' : InStep own all m' w refs') :
    InStep own all (do let a ← m; return f a (← m')) (fun space => (v space).append (w space))
      fun space space' word => refs space space' word ∨ refs' space space' word :=
  hm.bind fun _ => hm'.map

theorem inStep_wordNode (word : String) (marks : Annotations) :
    InStep own all (wordNode word marks) (fun _ => .none) fun space space' word' =>
      Primitive.ofWord? word = none ∧ space' = space ∧ word' = word := by
  unfold wordNode
  cases Primitive.ofWord? word with
  | some p => exact inStep_pure _ _ _
  | none => exact (inStep_refer word).map.mono fun _ _ _ h => ⟨rfl, h⟩

/-! ## Definitions in step -/

theorem inStep_symbolsOf (fullname : String) (symbols : List Json)
    (v : Option String → Declarations) :
    InStep own all (symbolsOf fullname symbols) v fun _ _ _ => False := by
  fun_induction symbolsOf fullname symbols with
  | case1 => exact inStep_pure _ _ _
  | case2 s rest ih => exact ih.map
  | case3 => exact inStep_complain _ _ _

theorem inStep_bodyOf {kind : Kind} (fullname : String) {members : Properties}
    (hfields : ∀ fields, Keyed.get? "fields" members = some (.arr fields) →
      InStep own all (readFields fullname fields) (fun space => declarationsOfFields space fields)
        (FieldsMeet fields)) :
    InStep own all (bodyOf kind fullname members)
      (fun space => declarationsOfBody kind space members)
      fun space space' word => ∃ fields, kind = .record ∧
        Keyed.get? "fields" members = some (.arr fields) ∧ FieldsMeet fields space space' word := by
  cases kind with
  | enum =>
      show InStep own all (enumBody fullname members) _ _
      unfold enumBody
      split
      · exact inStep_complain _ _ _
      · exact ((inStep_symbolsOf _ _ _).map).mono fun _ _ _ h => h.elim
  | fixed =>
      show InStep own all (fixedBody fullname members) _ _
      unfold fixedBody
      split
      · exact inStep_complain _ _ _
      · exact inStep_pure _ _ _
  | record =>
      unfold bodyOf declarationsOfBody
      dsimp only
      split
      · next fields hf =>
          simp only [hf]
          exact (hfields fields hf).map.mono fun _ _ _ h => ⟨fields, trivial, rfl, h⟩
      · exact inStep_complain _ _ _

/-- Readers side by side stay so as they enter a namespace. -/
theorem Beside.enter (h : Beside own all r r') (space : Option String) :
    Beside own all { r with space := space } { r' with space := space } :=
  ⟨rfl, h.named, h.bound, h.bound', h.answered⟩

/-- Both store a definition of the source. -/
theorem Beside.put (h : Beside own all r r') (hall : own ⊆ all) {n : String} (hn : n ∈ own)
    (t : NamedType) : Beside own all { r with named := Keyed.put n t r.named }
      { r' with named := Keyed.put n t r'.named } := by
  have hkeys : ∀ {m : Keyed NamedType}, Keyed.keys m ⊆ all → Keyed.keys (Keyed.put n t m) ⊆ all := by
    intro m hm k hk
    obtain ⟨v, hv⟩ := Keyed.mem_keys.1 hk
    rcases Keyed.eq_or_mem_of_mem_put hv with heq | hmem
    · rw [(Prod.mk.inj heq).1]
      exact hall hn
    · exact hm (Keyed.mem_keys.2 ⟨v, hmem⟩)
  refine ⟨h.space, fun k hk => ?_, hkeys h.bound, hkeys h.bound', h.answered⟩
  show Keyed.get? k (Keyed.put n t r'.named) = Keyed.get? k (Keyed.put n t r.named)
  rw [Keyed.get?_put, Keyed.get?_put, h.named k hk]

theorem inStep_definition (hall : own ⊆ all) {kind : Kind} {word : String} {members : Properties}
    (hword : Word.of word = .definition kind) (htype : Keyed.get? "type" members = some (.str word))
    (hbody : ∀ fullname, InStep own all (bodyOf kind fullname members)
      (fun space => declarationsOfBody kind space members)
      fun space space' word => ∃ fields, kind = .record ∧
        Keyed.get? "fields" members = some (.arr fields) ∧ FieldsMeet fields space space' word) :
    InStep own all (do
      let fullname ← openType word members
      let body ← within (splitFullname fullname).1 (bodyOf kind fullname members)
      closeType fullname members body)
      (fun space => declarations space (.obj members)) fun space => Meets space (.obj members) := by
  intro r₁ r₂ s r₁' h hv hsettled hread
  obtain ⟨fullname, r₀, hopen, hrest⟩ := Reading.of_bind_ok hread
  obtain ⟨rfl, hfree, name, hname, hfull⟩ := openType_ok hopen
  obtain ⟨body, r₃, hwithin, hclose⟩ := Reading.of_bind_ok hrest
  obtain ⟨r₄, hinner, rfl⟩ := Reading.of_within_ok hwithin
  rw [outcome_closeType] at hclose
  obtain ⟨hanswer, rfl⟩ := Prod.mk.inj hclose
  obtain rfl := Except.ok.inj hanswer
  have hd : declarations r₀.space (.obj members) = .one ⟨fullname, kind, members⟩
      (declarationsOfBody kind (splitFullname fullname).1 members) .none := by
    rw [declarations_typed htype, hword, hname, hfull]
  dsimp only at hv
  rw [hd, Declarations.names_one] at hv
  have hown : fullname ∈ own := hv (by simp)
  -- the second opens under the same fullname, which it does not have either
  have hopen₂ : Reading.outcome (openType word members) r₂ = (.ok fullname, r₂) := by
    have hfree₂ : ¬ Keyed.has (qualify r₂.space (text? "namespace" members) name) r₂.named := by
      rw [Keyed.has_iff_mem_keys, h.space, ← hfull, h.mem_keys_iff (Or.inl hown)]
      exact hfree
    unfold openType
    rw [hname]
    show Reading.outcome (if Keyed.has (qualify r₂.space _ name) r₂.named then _ else _) r₂ = _
    rw [if_neg hfree₂, h.space, ← hfull]
    rfl
  obtain ⟨_, r₅, hinner₂, h'⟩ := hbody fullname _ _ body r₄ (h.enter (splitFullname fullname).1)
    (fun n hn => hv (by simp only [List.mem_cons, List.mem_append]; exact Or.inr (Or.inl hn)))
    (fun space' word' ⟨fields, hkind, hf, field, type, hmem, ht, hm⟩ =>
      hsettled space' word' (.field htype (hkind ▸ hword) hname hf hmem ht (by rwa [hfull] at hm)))
    hinner
  have hwithin₂ := outcome_within_of_ok (r := r₂) hinner₂
  rw [h.space] at hwithin₂
  refine ⟨rfl, _, ?_, (h'.enter r₀.space).put hall hown (defined fullname members body)⟩
  rw [outcome_bind_of_ok hopen₂, outcome_bind_of_ok hwithin₂, outcome_closeType]

end Steps

/-! ## Nodes and fields in step -/

/-- Whatever is read is read in step. -/
theorem inStep_read (hall : own ⊆ all) :
    (∀ value, InStep own all (readNode value) (fun space => declarations space value)
      fun space => Meets space value) ∧
    (∀ record values, InStep own all (readFields record values)
      (fun space => declarationsOfFields space values) (FieldsMeet values)) ∧
    (∀ record value, InStep own all (readField record value)
      (fun space => declarationsOfField space value) (FieldsMeet [value])) ∧
    (∀ values, InStep own all (readNodes values) (fun space => declarationsOfAll space values)
      fun space space' word => ∃ value ∈ values, Meets space value space' word) := by
  refine readNode.mutual_induct
    (fun value => InStep own all (readNode value) (fun space => declarations space value)
      fun space => Meets space value)
    (fun record values => InStep own all (readFields record values)
      (fun space => declarationsOfFields space values) (FieldsMeet values))
    (fun record value => InStep own all (readField record value)
      (fun space => declarationsOfField space value) (FieldsMeet [value]))
    (fun values => InStep own all (readNodes values) (fun space => declarationsOfAll space values)
      fun space space' word => ∃ value ∈ values, Meets space value space' word)
    ?word ?union ?untyped ?definition ?arrayOpen ?array ?mapOpen ?map ?reference ?wrapper ?other
    ?noFields ?fields ?fieldUnnamed ?fieldUntyped ?field ?fieldOther ?noNodes ?nodes
  case word =>
    intro word
    simp only [readNode, declarations]
    refine (inStep_wordNode word .none).mono fun space space' word' hm => ?_
    obtain ⟨hp, hspace, hword⟩ := hm
    rw [hspace, hword]
    exact .word hp
  case union =>
    intro members ih
    simp only [readNode, declarations]
    refine ih.map.mono fun space space' word hm => ?_
    obtain ⟨value, hmem, hm⟩ := hm
    exact .member hmem hm
  case untyped =>
    intro members ht
    rw [readNode_untyped ht]
    exact inStep_complain _ _ _
  case definition =>
    intro members word ht kind hw ih
    rw [readNode_typed ht, hw]
    exact inStep_definition hall hw ht fun fullname => inStep_bodyOf fullname (ih fullname)
  case arrayOpen =>
    intro members word ht hw hi
    rw [readNode_typed ht, hw]
    dsimp only
    rw [hi]
    exact inStep_complain _ _ _
  case array =>
    intro members word ht hw items hi ih
    simp only [readNode_typed ht, declarations_typed ht, hw, hi]
    exact ih.map.mono fun space space' word => .items ht hw hi
  case mapOpen =>
    intro members word ht hw hv
    rw [readNode_typed ht, hw]
    dsimp only
    rw [hv]
    exact inStep_complain _ _ _
  case map =>
    intro members word ht hw values hv ih
    simp only [readNode_typed ht, declarations_typed ht, hw, hv]
    exact ih.map.mono fun space space' word => .values ht hw hv
  case reference =>
    intro members word ht hw
    simp only [readNode_typed ht, declarations_typed ht, hw]
    refine (inStep_wordNode word _).mono fun space space' word' hm => ?_
    obtain ⟨hp, hspace, hword⟩ := hm
    rw [hspace, hword]
    exact .typed ht hw hp
  case wrapper =>
    intro members nested hn ht ih
    simp only [readNode_wrapper ht hn, declarations_wrapper ht hn]
    exact ih.map.mono fun space space' word => .wrapped ht hn
  case other =>
    intro other hstr harr hobj
    rw [readNode]
    · exact inStep_complain _ _ _
    · exact hstr
    · exact harr
    · exact hobj
  case noFields =>
    intro record
    rw [readFields]
    exact inStep_pure _ _ _
  case fields =>
    intro record value rest ih ihs
    simp only [readFields, declarationsOfFields]
    refine (ih.seq ihs).mono fun space space' word hm => ?_
    rcases hm with ⟨field, type, hmem, ht, hm⟩ | ⟨field, type, hmem, ht, hm⟩
    · exact ⟨field, type, by simp [List.mem_singleton.1 hmem], ht, hm⟩
    · exact ⟨field, type, List.mem_cons_of_mem _ hmem, ht, hm⟩
  case fieldUnnamed =>
    intro record members hn
    rw [readField_obj, hn]
    exact inStep_complain _ _ _
  case fieldUntyped =>
    intro record members name hn ht
    rw [readField_obj, hn, ht]
    exact inStep_complain _ _ _
  case field =>
    intro record members name hn type ht ih
    simp only [readField_obj, declarationsOfField_obj ht, hn, ht]
    exact ih.map.mono fun space space' word hm => ⟨members, type, by simp, ht, hm⟩
  case fieldOther =>
    intro record value hobj
    rw [readField]
    · exact inStep_complain _ _ _
    · exact hobj
  case noNodes =>
    rw [readNodes]
    exact inStep_pure _ _ _
  case nodes =>
    intro value rest ih ihs
    simp only [readNodes, declarationsOfAll]
    refine (ih.seq ihs).mono fun space space' word hm => ?_
    rcases hm with hm | ⟨value', hmem, hm⟩
    · exact ⟨value, by simp, hm⟩
    · exact ⟨value', List.mem_cons_of_mem _ hmem, hm⟩

/-- What is done for a node that was read and then for the others: one that is not named is refused. -/
theorem inStep_declaring {m : Reading (List String)} {defines : Option String → Declarations}
    {meets : Option String → Option String → String → Prop} (h : InStep own all m defines meets)
    (node : Schema) :
    InStep own all
      (match node.reference? with
        | none => complain .topLevelNotNamed
        | some fullname => do return fullname :: (← m)) defines meets := by
  split
  · exact inStep_complain _ _ _
  · exact h.map

theorem inStep_readDeclared (hall : own ⊆ all) (values : List Json) :
    InStep own all (readDeclared values) (fun space => declarationsOfAll space values)
      fun space space' word => ∃ value ∈ values, Meets space value space' word := by
  induction values with
  | nil => exact inStep_pure _ _ _
  | cons value rest ih =>
      simp only [readDeclared, declarationsOfAll]
      refine (((inStep_read hall).1 value).bind (inStep_declaring ih)).mono fun space space' word hm => ?_
      rcases hm with hm | ⟨value', hmem, hm⟩
      · exact ⟨value, by simp, hm⟩
      · exact ⟨value', List.mem_cons_of_mem _ hmem, hm⟩

/-! ## Sources in step -/

/-- The schemas that a source declares: the members of a list, or the one that it is. -/
def sourceMembers (value : Json) : List Json :=
  match value with
  | .arr items => items
  | other => [other]

theorem declarationsOfAll_sourceMembers (space : Option String) (value : Json) :
    declarationsOfAll space (sourceMembers value) = declarations space value := by
  rw [declarations_eq_all]
  cases value <;> rfl

theorem meets_of_sourceMembers {value member : Json} {space space' : Option String} {word : String}
    (hmember : member ∈ sourceMembers value) (h : Meets space member space' word) :
    Meets space value space' word := by
  unfold sourceMembers at hmember
  split at hmember
  · exact .member hmember h
  · exact List.mem_singleton.1 hmember ▸ h

theorem readSource_eq_ok {origin text : String} {names : List String} :
    Reading.outcome (readSource origin text) r = (.ok names, r') ↔
      ∃ value r₁, Json.read? text = some value ∧
        Reading.outcome (readDeclared (sourceMembers value))
          { r with location := origin, space := none } = (.ok names, r₁) ∧
        r' = { r₁ with topLevel := r₁.topLevel ++ names } := by
  constructor
  · intro h
    obtain ⟨_, r₀, hmodify, h⟩ := Reading.of_bind_ok h
    cases hmodify
    cases hvalue : Json.read? text with
    | none =>
        rw [hvalue] at h
        exact absurd h Reading.complain_ne_ok
    | some value =>
        rw [hvalue] at h
        obtain ⟨declared, r₁, hdeclared, h⟩ := Reading.of_bind_ok h
        cases h
        exact ⟨value, r₁, rfl, hdeclared, rfl⟩
  · rintro ⟨value, r₁, hvalue, hdeclared, rfl⟩
    unfold readSource
    rw [hvalue]
    exact outcome_bind_of_ok hdeclared

/-- Two readers side by side read a source alike. -/
theorem Beside.readSource (h : Beside own all { r with space := none } { r' with space := none })
    (hall : own ⊆ all) {origin text : String}
    (hown : (declarationsOfSource text).names ⊆ own)
    (hsettled : ∀ space word, SourceMeets text space word → Settled own all space word)
    {names : List String} {r₁ : Reader}
    (hread : Reading.outcome (readSource origin text) r = (.ok names, r₁)) :
    ∃ r₂, Reading.outcome (readSource origin text) r' = (.ok names, r₂) ∧
      Beside own all r₁ r₂ := by
  obtain ⟨value, r₃, hvalue, hdeclared, rfl⟩ := readSource_eq_ok.1 hread
  have hstart : Beside own all { r with location := origin, space := none }
      { r' with location := origin, space := none } :=
    ⟨rfl, h.named, h.bound, h.bound', h.answered⟩
  have hdefines : (declarationsOfAll none (sourceMembers value)).names ⊆ own := by
    rw [declarationsOfAll_sourceMembers]
    simpa [declarationsOfSource, hvalue] using hown
  obtain ⟨_, r₄, hdeclared₂, h'⟩ := inStep_readDeclared hall _ _ _ names r₃ hstart hdefines
    (fun space word ⟨member, hmember, hm⟩ =>
      hsettled space word ⟨value, hvalue, meets_of_sourceMembers hmember hm⟩) hdeclared
  exact ⟨_, readSource_eq_ok.2 ⟨value, r₄, hvalue, hdeclared₂, rfl⟩,
    h'.space, h'.named, h'.bound, h'.bound', h'.answered⟩

/-! ## Sources that fit together -/

/-- What comes of reading a source alone. -/
def alone (source : String × String) : Except Fault (List String) × Reader :=
  Reading.outcome (readSource source.1 source.2) start

/-- The fullnames that a source defines. -/
def sourceNames (source : String × String) : List String :=
  (declarationsOfSource source.2).names

theorem mem_names_declarationsOfSources {sources : List (String × String)} {n : String} :
    n ∈ (declarationsOfSources sources).names ↔ ∃ s ∈ sources, n ∈ sourceNames s := by
  induction sources with
  | nil => simp [declarationsOfSources]
  | cons source rest ih =>
      rw [declarationsOfSources, Declarations.names_append, List.mem_append, ih]
      simp [sourceNames]

/-- Sources fit together: no fullname is defined by two of them, each can be read alone, and what is
    open then is defined in the end. -/
structure Fit (all : List String) (sources : List (String × String)) : Prop where
  apart : sources.Pairwise fun s t => List.Disjoint (sourceNames s) (sourceNames t)
  reads : ∀ s ∈ sources, ∃ names, (alone s).1 = .ok names
  answered : ∀ s ∈ sources, Answered all (alone s).2

theorem Fit.perm {sources sources' : List (String × String)} (h : Fit all sources)
    (hperm : sources.Perm sources') : Fit all sources' where
  apart := (hperm.pairwise_iff fun h => List.disjoint_symm h).1 h.apart
  reads := fun s hs => h.reads s (hperm.mem_iff.2 hs)
  answered := fun s hs => h.answered s (hperm.mem_iff.2 hs)

/-- The references of a source are settled among sources that define `all`. -/
def SourceSettled (all : List String) (source : String × String) : Prop :=
  ∀ space word, SourceMeets source.2 space word → Settled (sourceNames source) all space word

/-- A reader that stores nothing of what a source defines stands beside the empty one, on either
    side. -/
theorem beside_start {source : String × String} (hkeys : Keyed.keys r.named ⊆ all)
    (hfree : ∀ n ∈ sourceNames source, n ∉ Keyed.keys r.named) :
    Beside (sourceNames source) all { r with space := none } { start with space := none } ∧
      (Answered all r →
        Beside (sourceNames source) all { start with space := none } { r with space := none }) := by
  have hnone : ∀ n ∈ sourceNames source, Keyed.get? n start.named = Keyed.get? n r.named :=
    fun n hn => (Keyed.get?_eq_none.2 (hfree n hn)).symm
  have hstart : Keyed.keys start.named ⊆ all := by simp [start, Keyed.keys]
  exact ⟨⟨rfl, hnone, hkeys, hstart, fun _ => by simp [Answered, start]⟩,
    fun hr => ⟨rfl, fun n hn => (hnone n hn).symm, hstart, hkeys, fun _ => hr⟩⟩

theorem pending_readSource (hr : r.Sound) {origin text : String} {names : List String}
    (h : Reading.outcome (readSource origin text) r = (.ok names, r')) :
    r.pending <+: r'.pending := by
  obtain ⟨value, r₁, _, hdeclared, rfl⟩ := readSource_eq_ok.1 h
  have hstart : Sound { r with location := origin, space := none } :=
    sound_of_eq hr rfl (List.prefix_refl _) rfl
  have hkeeps := (readDeclared_keeps (sourceMembers value) hstart).1
  rw [hdeclared] at hkeeps
  exact hkeeps.1.pending

theorem sound_readSource (hr : r.Sound) {origin text : String} {names : List String}
    (h : Reading.outcome (readSource origin text) r = (.ok names, r')) : r'.Sound := by
  have hkeeps := (readSource_keeps hr origin text).1
  rwa [h] at hkeeps

theorem pending_readSources (sources : List (String × String)) :
    ∀ {r r' : Reader}, r.Sound → Reading.outcome (readSources sources) r = (.ok (), r') →
      r.pending <+: r'.pending := by
  induction sources with
  | nil =>
      intro r r' _ h
      cases h
      exact List.prefix_refl _
  | cons source rest ih =>
      intro r r' hr h
      obtain ⟨names, r₁, hsource, h⟩ := Reading.of_bind_ok h
      exact (pending_readSource hr hsource).trans (ih (sound_readSource hr hsource) h)

theorem Answered.of_prefix (h : Answered all r') (hp : r.pending <+: r'.pending) :
    Answered all r :=
  fun n hn => h n ((hp.map Prod.fst).subset hn)

/-- Sources that are read in a row fit together, and what is stored of each is what it stores
    alone. -/
theorem fit_of_readSources (sources : List (String × String)) :
    ∀ {r r' : Reader}, r.Sound → Keyed.keys r.named ⊆ all →
      (∀ s ∈ sources, sourceNames s ⊆ all ∧ SourceSettled all s) →
      Reading.outcome (readSources sources) r = (.ok (), r') → Answered all r' →
      Fit all sources ∧ ∀ s ∈ sources, ∀ n ∈ sourceNames s,
        n ∉ Keyed.keys r.named ∧ Keyed.get? n r'.named = Keyed.get? n (alone s).2.named := by
  induction sources with
  | nil =>
      intro r r' _ _ _ _ _
      exact ⟨⟨.nil, by simp, by simp⟩, by simp⟩
  | cons source rest ih =>
      intro r r' hr hkeys hall h hr'
      obtain ⟨names, r₁, hsource, hrest⟩ := Reading.of_bind_ok h
      have hadds := adds_readSource hsource
      have hadds' := adds_readSources rest hrest
      have hsound := sound_readSource hr hsource
      obtain ⟨hown, hsettled⟩ := hall source (by simp)
      have hkeys₁ : Keyed.keys r₁.named ⊆ all := fun n hn =>
        (hadds.mem_keys.1 hn).elim (fun hn => hkeys hn) fun hn => hown hn
      obtain ⟨hfit, hstored⟩ := ih hsound hkeys₁ (fun s hs => hall s (by simp [hs])) hrest hr'
      -- the source is read alone as it is here
      obtain ⟨r₂, halone, hbeside⟩ :=
        (beside_start hkeys hadds.free).1.readSource hown (fun _ hn => hn) hsettled hsource
      have hanswered := hbeside.answered (hr'.of_prefix (pending_readSources rest hsound hrest))
      have hr₂ : alone source = (.ok names, r₂) := halone
      have hapart : ∀ t ∈ rest, List.Disjoint (sourceNames source) (sourceNames t) :=
        fun t ht n hn hn' => (hstored t ht n hn').1 (hadds.mem_keys.2 (Or.inr hn))
      refine ⟨⟨List.pairwise_cons.2 ⟨hapart, hfit.apart⟩, ?_, ?_⟩, ?_⟩
      · exact List.forall_mem_cons.2 ⟨⟨names, by rw [hr₂]⟩, hfit.reads⟩
      · exact List.forall_mem_cons.2 ⟨by rw [hr₂]; exact hanswered, hfit.answered⟩
      · refine List.forall_mem_cons.2 ⟨fun n hn => ⟨hadds.free n hn, ?_⟩, fun t ht n hn => ?_⟩
        · have hother : n ∉ (declarationsOfSources rest).names := by
            rw [mem_names_declarationsOfSources]
            exact fun ⟨t, ht, hn'⟩ => hapart t ht hn hn'
          rw [hadds'.stays n hother, hr₂]
          exact (hbeside.named n hn).symm
        · obtain ⟨hfree, hget⟩ := hstored t ht n hn
          exact ⟨fun hmem => hfree (hadds.mem_keys.2 (Or.inl hmem)), hget⟩

/-- Sources that fit together are read in a row. -/
theorem exists_readSources (sources : List (String × String)) :
    ∀ {r : Reader}, Fit all sources → Keyed.keys r.named ⊆ all → Answered all r →
      (∀ s ∈ sources, sourceNames s ⊆ all ∧ SourceSettled all s) →
      (∀ s ∈ sources, ∀ n ∈ sourceNames s, n ∉ Keyed.keys r.named) →
      ∃ r', Reading.outcome (readSources sources) r = (.ok (), r') ∧ Answered all r' := by
  induction sources with
  | nil => exact fun _ _ hr _ _ => ⟨_, rfl, hr⟩
  | cons source rest ih =>
      intro r hfit hkeys hr hall hfree
      obtain ⟨hown, hsettled⟩ := hall source (by simp)
      obtain ⟨names, hnames⟩ := hfit.reads source (by simp)
      have hapart := List.pairwise_cons.1 hfit.apart
      obtain ⟨r₁, hsource, hbeside⟩ := ((beside_start hkeys (hfree source (by simp))).2 hr).readSource
        hown (fun _ hn => hn) hsettled (show alone source = (.ok names, (alone source).2) from
          Prod.ext hnames rfl)
      have hadds := adds_readSource hsource
      obtain ⟨r', hrest, hr'⟩ := ih (r := r₁)
        ⟨hapart.2, fun s hs => hfit.reads s (by simp [hs]),
          fun s hs => hfit.answered s (by simp [hs])⟩
        (fun n hn => (hadds.mem_keys.1 hn).elim (fun hn => hkeys hn) fun hn => hown hn)
        (hbeside.answered (hfit.answered source (by simp)))
        (fun s hs => hall s (by simp [hs]))
        fun s hs n hn hmem => (hadds.mem_keys.1 hmem).elim (hfree s (by simp [hs]) n hn)
          fun hn' => hapart.1 s hs hn' hn
      exact ⟨r', (outcome_bind_of_ok hsource).trans hrest, hr'⟩

theorem finish_eq_ok {c : Catalog} : r.finish = .ok c ↔
    Answered (Keyed.keys r.named) r ∧ c = ⟨r.named, firstOnly [] r.topLevel⟩ := by
  have hanswered : Answered (Keyed.keys r.named) r ↔
      r.pending.find? (fun p => !Keyed.has p.1 r.named) = none := by
    simp [Answered, List.find?_eq_none, Keyed.has_iff_mem_keys]
  rw [hanswered]
  unfold finish
  cases r.pending.find? (fun p => !Keyed.has p.1 r.named) with
  | none => simp [eq_comm]
  | some p => simp

end Reader

/-! ## Catalogs -/

namespace Catalog

open Reader

theorem ofSources_eq_ok {sources : List (String × String)} {c : Catalog} :
    ofSources sources = .ok c ↔
      ∃ r, Reading.outcome (readSources sources) start = (.ok (), r) ∧ r.finish = .ok c := by
  have hrun : (readSources sources).run start = Reading.outcome (readSources sources) start := rfl
  unfold ofSources
  rw [hrun]
  rcases Reading.outcome (readSources sources) start with ⟨_ | _, r⟩
  · simp
  · simp

/-- All references in some sources are settled. -/
def AllSettled (sources : List (String × String)) : Prop :=
  ∀ s ∈ sources, SourceSettled (declarationsOfSources sources).names s

/-- Sources whose references are settled give a catalog just when they fit together. What it has of a
    source is what the source gives alone. -/
theorem ofSources_of_settled {sources : List (String × String)} (h : AllSettled sources) :
    ((∃ c, ofSources sources = .ok c) ↔ Fit (declarationsOfSources sources).names sources) ∧
      ∀ c, ofSources sources = .ok c → ∀ s ∈ sources, ∀ n ∈ sourceNames s,
        c.get? n = Keyed.get? n (alone s).2.named := by
  have hall : ∀ s ∈ sources, sourceNames s ⊆ (declarationsOfSources sources).names ∧
      SourceSettled (declarationsOfSources sources).names s :=
    fun s hs => ⟨fun n hn => mem_names_declarationsOfSources.2 ⟨s, hs, hn⟩, h s hs⟩
  have hstart : Keyed.keys start.named ⊆ (declarationsOfSources sources).names := by
    simp [start, Keyed.keys]
  have hread : ∀ c, ofSources sources = .ok c → Fit (declarationsOfSources sources).names sources ∧
      ∀ s ∈ sources, ∀ n ∈ sourceNames s, c.get? n = Keyed.get? n (alone s).2.named := by
    intro c hc
    obtain ⟨r, hread, hfinish⟩ := ofSources_eq_ok.1 hc
    obtain ⟨hanswered, rfl⟩ := finish_eq_ok.1 hfinish
    have hadds := adds_readSources sources hread
    obtain ⟨hfit, hstored⟩ := fit_of_readSources sources sound_start hstart hall hread
      fun n hn => (hadds.mem_keys.1 (hanswered n hn)).resolve_left (by simp [start, Keyed.keys])
    exact ⟨hfit, fun s hs n hn => (hstored s hs n hn).2⟩
  refine ⟨⟨fun hc => hc.elim fun c hc => (hread c hc).1, fun hfit => ?_⟩, fun c hc => (hread c hc).2⟩
  obtain ⟨r, hread, hanswered⟩ := exists_readSources sources hfit hstart
    (by simp [Answered, start]) hall (by simp [start, Keyed.keys])
  have hadds := adds_readSources sources hread
  exact ⟨_, ofSources_eq_ok.2 ⟨r, hread, finish_eq_ok.2
    ⟨fun n hn => hadds.mem_keys.2 (Or.inr (hanswered n hn)), rfl⟩⟩⟩

/-- In another order, the same fullnames are defined. -/
theorem mem_names_perm {sources sources' : List (String × String)} (h : sources.Perm sources')
    {n : String} :
    n ∈ (declarationsOfSources sources).names ↔ n ∈ (declarationsOfSources sources').names := by
  simp only [mem_names_declarationsOfSources, h.mem_iff]

theorem mem_outermost_declarationsOfSources {sources : List (String × String)} {d : Declared} :
    d ∈ (declarationsOfSources sources).outermost ↔
      ∃ s ∈ sources, d ∈ (declarationsOfSource s.2).outermost := by
  induction sources with
  | nil => simp [declarationsOfSources, Declarations.outermost]
  | cons source rest ih =>
      rw [declarationsOfSources, Declarations.outermost_append, List.mem_append, ih]
      simp

theorem AllSettled.perm {sources sources' : List (String × String)} (h : AllSettled sources)
    (hperm : sources.Perm sources') : AllSettled sources' := by
  intro s hs space word hmeets
  have hsettled := h s (hperm.mem_iff.2 hs) space word hmeets
  simpa only [Settled, mem_names_perm hperm] using hsettled

/-- **The order of sources.** Sources that are accepted in two orders have the same fullnames in both,
    each made from the same definition. Where their references are settled, they are accepted in
    both orders or in none, and what is stored is the same. -/
theorem ofSources_perm {sources sources' : List (String × String)} (hperm : sources.Perm sources') :
    (∀ c c', ofSources sources = .ok c → ofSources sources' = .ok c' →
      (∀ n, n ∈ Keyed.keys c.named ↔ n ∈ Keyed.keys c'.named) ∧
      ∀ n ∈ Keyed.keys c.named, ∃ (d : Declared) (t t' : NamedType), d.fullname = n ∧
        c.get? n = some t ∧ d.Gives t ∧ c'.get? n = some t' ∧ d.Gives t') ∧
    (AllSettled sources →
      ((∃ c, ofSources sources = .ok c) ↔ ∃ c', ofSources sources' = .ok c') ∧
      ∀ c c', ofSources sources = .ok c → ofSources sources' = .ok c' →
        ∀ n, c.get? n = c'.get? n) := by
  have hkeys : ∀ {sources : List (String × String)} {c : Catalog}, ofSources sources = .ok c →
      ∀ n, n ∈ Keyed.keys c.named ↔ n ∈ (declarationsOfSources sources).names :=
    fun h n => (adds_of_ofSources h).mem_keys.trans (by simp [Keyed.keys])
  have hsame : ∀ c c', ofSources sources = .ok c → ofSources sources' = .ok c' →
      ∀ n, n ∈ Keyed.keys c.named ↔ n ∈ Keyed.keys c'.named := fun c c' hc hc' n => by
    rw [hkeys hc, hkeys hc', mem_names_perm hperm]
  refine ⟨fun c c' hc hc' => ⟨hsame c c' hc hc', fun n hn => ?_⟩, fun hsettled => ⟨?_, ?_⟩⟩
  · obtain ⟨d, hd, hname⟩ := List.mem_map.1 (Declarations.mem_names_iff.1 ((hkeys hc n).1 hn))
    have hd' : d ∈ (declarationsOfSources sources').outermost := by
      simpa only [mem_outermost_declarationsOfSources, hperm.mem_iff] using hd
    obtain ⟨t, ht, hgives⟩ := (adds_of_ofSources hc).stored d hd
    obtain ⟨t', ht', hgives'⟩ := (adds_of_ofSources hc').stored d hd'
    subst hname
    exact ⟨d, t, t', rfl, ht, hgives, ht', hgives'⟩
  · have hfit : Fit (declarationsOfSources sources).names sources ↔
        Fit (declarationsOfSources sources').names sources' := by
      have hall : ∀ {r : Reader}, Answered (declarationsOfSources sources).names r ↔
          Answered (declarationsOfSources sources').names r := by
        simp only [Answered, mem_names_perm hperm, implies_true]
      exact ⟨fun h => ⟨(h.perm hperm).apart, (h.perm hperm).reads,
          fun s hs => hall.1 ((h.perm hperm).answered s hs)⟩,
        fun h => ⟨(h.perm hperm.symm).apart, (h.perm hperm.symm).reads,
          fun s hs => hall.2 ((h.perm hperm.symm).answered s hs)⟩⟩
    rw [(ofSources_of_settled hsettled).1, hfit, (ofSources_of_settled (hsettled.perm hperm)).1]
  · intro c c' hc hc' n
    by_cases hn : n ∈ (declarationsOfSources sources).names
    · obtain ⟨s, hs, hmem⟩ := mem_names_declarationsOfSources.1 hn
      rw [(ofSources_of_settled hsettled).2 c hc s hs n hmem,
        (ofSources_of_settled (hsettled.perm hperm)).2 c' hc' s (hperm.mem_iff.1 hs) n hmem]
    · have hnot : n ∉ Keyed.keys c.named := fun h => hn ((hkeys hc n).1 h)
      rw [Catalog.get?, Catalog.get?, Keyed.get?_eq_none.2 hnot,
        Keyed.get?_eq_none.2 fun h => hnot ((hsame c c' hc hc' n).2 h)]

/-! ## A bare name in another source

A record of a namespace refers to a bare name, which a record without a namespace has in another
source, and in a third one a record of the same namespace. -/

/-- A record `B` without a namespace. -/
def bareSource : String × String :=
  ("bare.avsc", "\x7b\"type\":\"record\",\"name\":\"B\",\"fields\":[]\x7d")

/-- A record `x.B`. -/
def spacedSource : String × String :=
  ("spaced.avsc", "\x7b\"type\":\"record\",\"name\":\"x.B\",\"fields\":[]\x7d")

/-- A record `x.A` with a field that refers to `B`. -/
def userSource : String × String :=
  ("user.avsc", "\x7b\"type\":\"record\",\"name\":\"x.A\",\"fields\":[\x7b\"name\":\"b\","
    ++ "\"type\":\"B\"\x7d]\x7d")

/-- What the fields of a definition refer to. -/
def fieldReferences (answer : Outcome Catalog) (n : String) : Option (List (Option String)) :=
  (answer.toOption.bind (·.get? n)).map fun t => t.fields.map (·.schema.reference?)

/-- The bare name is found if its source was read before, and is an open reference to `x.B` otherwise.
    So one order may be accepted and the other not, or both with different definitions. -/
theorem ofSources_order_decides :
    (ofSources [bareSource, userSource]).toOption.isSome = true ∧
    (ofSources [userSource, bareSource]).toOption.isSome = false ∧
    fieldReferences (ofSources [bareSource, userSource, spacedSource]) "x.A" = some [some "B"] ∧
    fieldReferences (ofSources [spacedSource, bareSource, userSource]) "x.A" = some [some "x.B"] :=
  ⟨by decide +kernel, by decide +kernel, by decide +kernel, by decide +kernel⟩

theorem allSettled_user : AllSettled [userSource, spacedSource] :=
  fun _ _ _ _ _ => settled_of_dots (by decide +kernel) _ _

/-- What comes of the two sources with namespaces, the reference first. -/
def userCatalog : Catalog :=
  (ofSources [userSource, spacedSource]).toOption.getD ⟨[], []⟩

theorem ofSources_user : ofSources [userSource, spacedSource] = .ok userCatalog :=
  Answer.eq_ok_getD _ (by decide +kernel)

/-- Between these two, the reference may stand before what it refers to. -/
theorem ofSources_perm_user : [userSource, spacedSource].Perm [spacedSource, userSource] ∧
    AllSettled [userSource, spacedSource] ∧
    ofSources [userSource, spacedSource] = .ok userCatalog ∧
    ∃ c, ofSources [spacedSource, userSource] = .ok c ∧ ∀ n, userCatalog.get? n = c.get? n := by
  have hperm : [userSource, spacedSource].Perm [spacedSource, userSource] := .swap _ _ _
  obtain ⟨haccepted, hsame⟩ := (ofSources_perm hperm).2 allSettled_user
  obtain ⟨c, hc⟩ := haccepted.1 ⟨userCatalog, ofSources_user⟩
  exact ⟨hperm, allSettled_user, ofSources_user, c, hc, hsame userCatalog c ofSources_user hc⟩

end Catalog

end AvroCodegen
