import AvroCodegen.Entity.Expansion
import AvroCodegen.Proofs.Answer
import Mathlib.Data.List.Perm.Subperm
import Mathlib.Logic.Relation

set_option autoImplicit false

/-! # Records written out in full

The three forms of an expansion come of one recursion, which a bound on its depth ends. Here the
recursion is said without a bound and without a form. `Store.Unfolds` lists the trails of some fields,
each the fields that lead to one entry, and `Store.Breaks` goes to the field at which a record comes up
inside itself. A derivation of either is a walk that came to its end.

The bound does not show, because the records around are all different and there are only so many
(`Store.comesOut_expandFrom`). So an expansion shows the trails that its form is about, or fails with
the same fault in every form, and it fails just where a cycle of record fields can be reached. -/

namespace AvroCodegen

/-! ## Trails -/

/-- What an entry of an expansion is: a leaf, or the beginning or the end of a record field. -/
inductive Mark where
  | leaf
  | opening
  | closing
  deriving DecidableEq, Repr

/-- Whether a form of expansion shows entries of a kind. -/
def Shown.shows : Shown → Mark → Bool
  | .leaves, mark => mark = .leaf
  | .records, mark => mark = .opening
  | .bracketed, _ => true

/-- What leads to an entry of an expansion: the record fields around it, outermost first, and the field
    that it is about. -/
structure Trail where
  around : List Field
  field : Field
  mark : Mark

namespace Trail

/-- All fields of a trail. -/
def fields (t : Trail) : List Field :=
  t.around ++ [t.field]

/-- The type of the entry at the end of a trail. -/
def type (t : Trail) : FieldType :=
  if t.mark = .closing then .close t.field.type else t.field.type

/-- The same trail inside one more record field. -/
def below (f : Field) (t : Trail) : Trail :=
  { t with around := f :: t.around }

/-- The trails of a record field, given those of its record. -/
def block (f : Field) (inner : List Trail) : List Trail :=
  ⟨[], f, .opening⟩ :: inner.map (below f) ++ [⟨[], f, .closing⟩]

/-- The entry at the end of a trail. Its name is the names of all fields with the joiner between,
    behind a prefix. -/
def entry (joiner before : String) (t : Trail) : Field :=
  ⟨before ++ joiner.intercalate (t.fields.map Field.name), t.type⟩

/-- What a form of expansion shows of some trails. -/
def entries (shown : Shown) (joiner before : String) (ts : List Trail) : List Field :=
  (ts.filter fun t => shown.shows t.mark).map (entry joiner before)

variable {shown : Shown} {joiner before : String} {f : Field} {t : Trail} {ts : List Trail}

@[simp] theorem fields_below (f : Field) (t : Trail) : (below f t).fields = f :: t.fields := rfl

/-- Going into a record field lengthens the prefix. -/
theorem entry_below : (below f t).entry joiner before =
    t.entry joiner (before ++ f.name ++ joiner) := by
  have hne : t.fields.map Field.name ≠ [] := by simp [fields]
  have htype : (below f t).type = t.type := rfl
  simp only [entry, fields_below, List.map_cons, htype, String.intercalate_cons_of_ne_nil hne,
    String.append_assoc]

theorem mem_block {inner : List Trail} : t ∈ block f inner ↔
    t = ⟨[], f, .opening⟩ ∨ (∃ u ∈ inner, u.below f = t) ∨ t = ⟨[], f, .closing⟩ := by
  simp [block]

@[simp] theorem entries_nil : entries shown joiner before [] = [] := rfl

@[simp] theorem entries_append (ts us : List Trail) : entries shown joiner before (ts ++ us) =
    entries shown joiner before ts ++ entries shown joiner before us := by
  simp [entries]

theorem entries_below : entries shown joiner before (ts.map (below f)) =
    entries shown joiner (before ++ f.name ++ joiner) ts := by
  simp only [entries, List.filter_map, List.map_map]
  exact List.map_congr_left fun t _ => entry_below

theorem entries_leaf : entries shown joiner before [⟨[], f, .leaf⟩] =
    Store.showIf (shown ≠ .records) ⟨before ++ f.name, f.type⟩ := by
  cases shown <;> simp [entries, Shown.shows, Store.showIf, entry, fields, type]

theorem entries_block {inner : List Trail} : entries shown joiner before (block f inner) =
    Store.showIf (shown ≠ .leaves) ⟨before ++ f.name, f.type⟩
      ++ entries shown joiner (before ++ f.name ++ joiner) inner
      ++ Store.showIf (shown = .bracketed) ⟨before ++ f.name, .close f.type⟩ := by
  have hopening : entries shown joiner before [⟨[], f, .opening⟩] =
      Store.showIf (shown ≠ .leaves) ⟨before ++ f.name, f.type⟩ := by
    cases shown <;> simp [entries, Shown.shows, Store.showIf, entry, fields, type]
  have hclosing : entries shown joiner before [⟨[], f, .closing⟩] =
      Store.showIf (shown = .bracketed) ⟨before ++ f.name, .close f.type⟩ := by
    cases shown <;> simp [entries, Shown.shows, Store.showIf, entry, fields, type]
  rw [block, ← List.singleton_append, entries_append, entries_append, hopening, entries_below,
    hclosing]

end Trail

namespace Store

/-! ## The recursion without a bound -/

/-- The fields of a record; nothing else has fields. -/
def fieldsAt (s : Store) (id : Nat) : List Field :=
  ((s.record? id).map RecordEntity.fields).getD []

/-- The trails of some fields in order: one for a leaf, and for a record field a block around the
    trails of its record. -/
inductive Unfolds (s : Store) : List Field → List Trail → Prop
  | nil : Unfolds s [] []
  | leaf {f : Field} {fs : List Field} {ts : List Trail} : f.type.record? = none →
      Unfolds s fs ts → Unfolds s (f :: fs) (⟨[], f, .leaf⟩ :: ts)
  | block {f : Field} {fs : List Field} {ts inner : List Trail} {nested : Nat} :
      f.type.record? = some nested → Unfolds s (s.fieldsAt nested) inner →
      Unfolds s fs ts → Unfolds s (f :: fs) (Trail.block f inner ++ ts)

/-- What stops the fields of a record from unfolding, where the record stands inside others: the first
    field, at any depth, whose record is among those around it. -/
inductive Breaks (s : Store) : Nat → List Nat → List Field → Fault → Prop
  | here {id nested : Nat} {around : List Nat} {f : Field} {fs : List Field} :
      f.type.record? = some nested → nested ∈ id :: around →
      Breaks s id around (f :: fs) (.schema (s.schemaName id ++ "." ++ f.name) .nestsItself)
  | inside {id nested : Nat} {around : List Nat} {f : Field} {fs : List Field} {e : Fault} :
      f.type.record? = some nested → nested ∉ id :: around →
      Breaks s nested (id :: around) (s.fieldsAt nested) e → Breaks s id around (f :: fs) e
  | later {id : Nat} {around : List Nat} {f : Field} {fs : List Field} {part : List Trail}
      {e : Fault} :
      Unfolds s [f] part → Breaks s id around fs e → Breaks s id around (f :: fs) e

variable {s : Store} {shown : Shown} {joiner before : String} {depth id nested : Nat}
  {around path : List Nat} {r : RecordEntity} {f : Field} {fs gs : List Field} {ts us : List Trail}
  {e : Fault}

theorem fieldsAt_of_record? (h : s.record? id = some r) : s.fieldsAt id = r.fields := by
  simp [fieldsAt, h]

theorem mem_fieldsAt : f ∈ s.fieldsAt id ↔ ∃ r, s.record? id = some r ∧ f ∈ r.fields := by
  unfold fieldsAt
  cases s.record? id with
  | none => simp
  | some r => simp

theorem Unfolds.append (h : s.Unfolds fs ts) (h' : s.Unfolds gs us) :
    s.Unfolds (fs ++ gs) (ts ++ us) := by
  induction h with
  | nil => exact h'
  | leaf htype _ ih => exact .leaf htype ih
  | block htype hinner _ _ ih =>
      rw [List.append_assoc]
      exact .block htype hinner ih

theorem Breaks.append_right (h : s.Breaks id around fs e) : s.Breaks id around (fs ++ gs) e := by
  induction h with
  | here htype hmem => exact .here htype hmem
  | inside htype hmem hbreaks _ => exact .inside htype hmem hbreaks
  | later hpart _ ih => exact .later hpart ih

/-- Fields have one way to unfold. -/
theorem Unfolds.unique (h : s.Unfolds fs ts) (h' : s.Unfolds fs us) : ts = us := by
  induction h generalizing us with
  | nil =>
      cases h'
      rfl
  | leaf htype _ ih =>
      cases h' with
      | leaf _ hrest => rw [ih hrest]
      | block htype' _ _ =>
          rw [htype] at htype'
          cases htype'
  | block htype _ _ ihinner ih =>
      cases h' with
      | leaf htype' _ =>
          rw [htype] at htype'
          cases htype'
      | block htype' hinner hrest =>
          rw [htype, Option.some.injEq] at htype'
          subst htype'
          rw [ihinner hinner, ih hrest]

/-! ## Ways through records -/

/-- A way from some fields: one of them, and as long as that is a record field it may go on with a
    field of the record. -/
inductive Leads (s : Store) : List Field → List Field → Prop
  | here {f : Field} {fs : List Field} : f ∈ fs → Leads s fs [f]
  | inside {f : Field} {fs way : List Field} {nested : Nat} : f ∈ fs →
      f.type.record? = some nested → Leads s (s.fieldsAt nested) way → Leads s fs (f :: way)

variable {way : List Field}

theorem Leads.mono (h : s.Leads fs way) (hsub : fs ⊆ gs) : s.Leads gs way := by
  cases h with
  | here hf => exact .here (hsub hf)
  | inside hf htype hway => exact .inside (hsub hf) htype hway

theorem Leads.exists_cons (h : s.Leads fs way) : ∃ f ∈ fs, ∃ rest, way = f :: rest := by
  cases h with
  | here hf => exact ⟨_, hf, _, rfl⟩
  | inside hf _ _ => exact ⟨_, hf, _, rfl⟩

/-- What holds of the fields of all records holds along a way. -/
theorem Leads.forall_mem {P : Field → Prop} (h : s.Leads fs way) (hfs : ∀ f ∈ fs, P f)
    (hs : ∀ id, ∀ f ∈ s.fieldsAt id, P f) : ∀ f ∈ way, P f := by
  induction h with
  | here hf => simpa using hfs _ hf
  | inside hf _ _ ih => exact List.forall_mem_cons.2 ⟨hfs _ hf, ih (hs _)⟩

theorem Unfolds.leads (h : s.Unfolds fs ts) : ∀ t ∈ ts, s.Leads fs t.fields := by
  induction h with
  | nil => simp
  | leaf _ _ ih =>
      refine List.forall_mem_cons.2 ⟨.here (by simp), fun t ht => ?_⟩
      exact (ih t ht).mono (List.subset_cons_self _ _)
  | @block f fs ts inner nested htype _ _ ihinner ih =>
      intro t ht
      rcases List.mem_append.1 ht with ht | ht
      · rcases Trail.mem_block.1 ht with rfl | ⟨u, hu, rfl⟩ | rfl
        · exact .here (by simp)
        · exact .inside (by simp) htype (ihinner u hu)
        · exact .here (by simp)
      · exact (ih t ht).mono (List.subset_cons_self _ _)

/-- A trail is a leaf just where its last field is no record field. -/
theorem Unfolds.mark (h : s.Unfolds fs ts) :
    ∀ t ∈ ts, t.mark = .leaf ↔ t.field.type.record? = none := by
  induction h with
  | nil => simp
  | leaf htype _ ih => exact List.forall_mem_cons.2 ⟨by simpa using htype, ih⟩
  | @block f fs ts inner nested htype _ _ ihinner ih =>
      intro t ht
      rcases List.mem_append.1 ht with ht | ht
      · rcases Trail.mem_block.1 ht with rfl | ⟨u, hu, rfl⟩ | rfl
        · simp [htype]
        · exact ihinner u hu
        · simp [htype]
      · exact ih t ht

/-! ## The bound does not show -/

/-- What one field adds to an expansion of bounded depth. -/
def expandField (s : Store) (shown : Shown) (joiner : String) (depth : Nat) (path : List Nat)
    (before fullname : String) (f : Field) : Outcome (List Field) :=
  let name := before ++ f.name
  match f.type.record? with
  | none => .ok (showIf (shown ≠ .records) ⟨name, f.type⟩)
  | some nested =>
    if path.contains nested then .error (.schema (fullname ++ "." ++ f.name) .nestsItself)
    else do
      let inner ← s.expandFrom shown joiner depth (nested :: path) (name ++ joiner) nested
      return showIf (shown ≠ .leaves) ⟨name, f.type⟩ ++ inner
        ++ showIf (shown = .bracketed) ⟨name, .close f.type⟩

/-- What some fields add, one after the other. -/
def expandFields (s : Store) (shown : Shown) (joiner : String) (depth : Nat) (path : List Nat)
    (before fullname : String) (fs : List Field) : Outcome (List Field) := do
  let parts ← fs.mapM (s.expandField shown joiner depth path before fullname)
  return parts.flatten

theorem expandFrom_succ (hr : s.record? id = some r) :
    s.expandFrom shown joiner (depth + 1) path before id =
      s.expandFields shown joiner depth path before (s.schemaName id) (s.fieldsAt id) := by
  rw [expandFrom, hr, schemaName_of_record? hr, fieldsAt_of_record? hr]
  rfl

theorem expandFields_cons {fullname : String} :
    s.expandFields shown joiner depth path before fullname (f :: fs) = (do
      let part ← s.expandField shown joiner depth path before fullname f
      let rest ← s.expandFields shown joiner depth path before fullname fs
      return part ++ rest) := by
  unfold expandFields
  rw [List.mapM_cons]
  cases s.expandField shown joiner depth path before fullname f with
  | error e => rfl
  | ok part =>
      cases fs.mapM (s.expandField shown joiner depth path before fullname) with
      | error e => rfl
      | ok parts => rfl

/-- Answers for every excess of the bound, every form, joiner and prefix, that come of the fields of a
    record: either these unfold and the answers show their trails, or they break and each answer is
    the fault. -/
inductive ComesOut (s : Store) (id : Nat) (around : List Nat) (fs : List Field)
    (answer : Nat → Shown → String → String → Outcome (List Field)) : Prop
  | unfolds {ts : List Trail} : s.Unfolds fs ts →
      (∀ extra shown joiner before,
        answer extra shown joiner before = .ok (Trail.entries shown joiner before ts)) →
      ComesOut s id around fs answer
  | breaks {e : Fault} : s.Breaks id around fs e →
      (∀ extra shown joiner before, answer extra shown joiner before = .error e) →
      ComesOut s id around fs answer

theorem comesOut_expandField
    (hinner : ∀ nested, nested ∉ id :: around →
      s.ComesOut nested (id :: around) (s.fieldsAt nested) fun extra shown joiner before =>
        s.expandFrom shown joiner (depth + extra) (nested :: id :: around) before nested)
    (f : Field) :
    s.ComesOut id around [f] fun extra shown joiner before =>
      s.expandField shown joiner (depth + extra) (id :: around) before (s.schemaName id) f := by
  unfold expandField
  cases htype : f.type.record? with
  | none =>
      refine .unfolds (.leaf htype .nil) fun extra shown joiner before => ?_
      rw [Trail.entries_leaf]
  | some nested =>
      by_cases hmem : nested ∈ id :: around
      · refine .breaks (.here htype hmem) fun extra shown joiner before => ?_
        exact if_pos (List.contains_iff_mem.2 hmem)
      · have hnot : ¬ (id :: around).contains nested = true := fun h =>
          hmem (List.contains_iff_mem.1 h)
        cases hinner nested hmem with
        | unfolds hunfolds hok =>
            refine .unfolds (.block htype hunfolds .nil) fun extra shown joiner before => ?_
            simp only [if_neg hnot]
            rw [Answer.bind_of_ok (hok _ _ _ _), List.append_nil, Trail.entries_block]
            rfl
        | breaks hbreaks herror =>
            refine .breaks (.inside htype hmem hbreaks) fun extra shown joiner before => ?_
            simp only [if_neg hnot]
            rw [Answer.bind_of_error (herror _ _ _ _)]

theorem comesOut_expandFields
    (hinner : ∀ nested, nested ∉ id :: around →
      s.ComesOut nested (id :: around) (s.fieldsAt nested) fun extra shown joiner before =>
        s.expandFrom shown joiner (depth + extra) (nested :: id :: around) before nested)
    (fs : List Field) :
    s.ComesOut id around fs fun extra shown joiner before =>
      s.expandFields shown joiner (depth + extra) (id :: around) before (s.schemaName id) fs := by
  induction fs with
  | nil => exact .unfolds .nil fun _ _ _ _ => rfl
  | cons f fs ih =>
      simp only [expandFields_cons]
      cases comesOut_expandField hinner f with
      | breaks hbreaks herror =>
          exact .breaks hbreaks.append_right fun _ _ _ _ => Answer.bind_of_error (herror _ _ _ _) _
      | unfolds hpart hok =>
          simp only [hok]
          cases ih with
          | breaks hbreaks herror =>
              exact .breaks (.later hpart hbreaks) fun _ _ _ _ =>
                Answer.bind_of_error (herror _ _ _ _) _
          | unfolds hts hok' =>
              refine .unfolds (hpart.append hts) fun extra shown joiner before => ?_
              rw [Trail.entries_append, hok']
              rfl

theorem length_le_size {ids : List Nat} (hnodup : ids.Nodup) (h : ∀ i ∈ ids, i < s.size) :
    ids.length ≤ s.size := by
  have hsub : ids ⊆ List.range s.size := fun i hi => List.mem_range.2 (h i hi)
  simpa using (hnodup.subperm hsub).length_le

/-- A bound that leaves room for all records that are not around does not show. -/
theorem comesOut_expandFrom (depth : Nat) :
    ∀ {id : Nat} {around : List Nat}, (id :: around).Nodup → (∀ i ∈ around, i < s.size) →
      s.size < depth + around.length →
      s.ComesOut id around (s.fieldsAt id) fun extra shown joiner before =>
        s.expandFrom shown joiner (depth + extra) (id :: around) before id := by
  induction depth with
  | zero =>
      intro id around hnodup haround hdepth
      have hle := length_le_size (List.nodup_cons.1 hnodup).2 haround
      omega
  | succ depth ih =>
      intro id around hnodup haround hdepth
      simp only [Nat.add_right_comm depth 1]
      cases hr : s.record? id with
      | none =>
          have hnone : s.fieldsAt id = [] := by simp [fieldsAt, hr]
          rw [hnone]
          exact .unfolds .nil fun extra shown joiner before => by simp [expandFrom, hr]
      | some r =>
          have hid : id < s.size := lt_size_of_get? (record?_eq_some.1 hr)
          simp only [expandFrom_succ hr]
          -- a record that is not around yet makes one more, and the bound one less
          refine comesOut_expandFields (fun nested hmem => ih ?_ ?_ ?_) _
          · exact List.nodup_cons.2 ⟨hmem, hnodup⟩
          · exact List.forall_mem_cons.2 ⟨hid, haround⟩
          · rw [List.length_cons]
            omega

theorem comesOut_expand (s : Store) (id : Nat) :
    s.ComesOut id [] (s.fieldsAt id) fun extra shown joiner before =>
      s.expandFrom shown joiner (s.size + 1 + extra) [id] before id :=
  comesOut_expandFrom (s.size + 1) (by simp) (by simp) (Nat.lt_succ_self s.size)

/-! ## Cycles of record fields -/

/-- A record has a field that is another record; the items of arrays do not count. -/
def Nests (s : Store) (a b : Nat) : Prop :=
  ∃ f ∈ s.fieldsAt a, f.type.record? = some b

/-- The records of fields that unfold lead into each other for a while only. -/
theorem Unfolds.acc (h : s.Unfolds fs ts) :
    ∀ f ∈ fs, ∀ nested, f.type.record? = some nested → Acc (fun b a => s.Nests a b) nested := by
  induction h with
  | nil => simp
  | leaf htype _ ih =>
      refine List.forall_mem_cons.2 ⟨fun nested hnested => ?_, ih⟩
      rw [htype] at hnested
      cases hnested
  | block htype _ _ ihinner ih =>
      refine List.forall_mem_cons.2 ⟨fun nested hnested => ?_, ih⟩
      rw [htype, Option.some.injEq] at hnested
      subst hnested
      exact .intro _ fun b ⟨f, hf, hb⟩ => ihinner f hf b hb

theorem not_cycle_of_acc (h : Acc (fun b a => s.Nests a b) id) :
    ¬ Relation.TransGen s.Nests id id := by
  induction h with
  | intro a _ ih =>
      intro hcycle
      -- the cycle passes through the record below as well
      obtain ⟨b, hab, hba⟩ := Relation.TransGen.head'_iff.1 hcycle
      exact ih b hab (Relation.TransGen.tail' hba hab)

/-- Below a record that unfolds there is no cycle. -/
theorem Unfolds.not_cycle (h : s.Unfolds (s.fieldsAt id) ts) {a : Nat}
    (ha : Relation.ReflTransGen s.Nests id a) : ¬ Relation.TransGen s.Nests a a := by
  have hid : Acc (fun b a => s.Nests a b) id := .intro _ fun b ⟨f, hf, hb⟩ => h.acc f hf b hb
  have hacc : Acc (fun b a => s.Nests a b) a := by
    induction ha with
    | refl => exact hid
    | tail _ hab ih => exact ih.inv hab
  exact not_cycle_of_acc hacc

/-- A field on the way from a record that closes a cycle: its record leads back to the one that has the
    field. The fault names the place of the field. -/
def ClosesCycle (s : Store) (start : Nat) (e : Fault) : Prop :=
  ∃ a r f b, Relation.ReflTransGen s.Nests start a ∧ s.record? a = some r ∧ f ∈ r.fields ∧
    f.type.record? = some b ∧ Relation.ReflTransGen s.Nests b a ∧
    e = .schema (r.schema.fullname ++ "." ++ f.name) .nestsItself

/-- What breaks is a field that closes a cycle, if each record leads from those around to the next. -/
theorem Breaks.closesCycle (h : s.Breaks id around fs e) {start : Nat}
    (hstart : Relation.ReflTransGen s.Nests start id)
    (haround : ∀ i ∈ id :: around, Relation.ReflTransGen s.Nests i id)
    (hfs : ∀ f ∈ fs, f ∈ s.fieldsAt id) : s.ClosesCycle start e := by
  induction h with
  | @here id nested around f fs htype hmem =>
      obtain ⟨r, hr, hf⟩ := mem_fieldsAt.1 (hfs f (by simp))
      refine ⟨id, r, f, nested, hstart, hr, hf, htype, haround nested hmem, ?_⟩
      rw [schemaName_of_record? hr]
  | @inside id nested around f fs e htype _ _ ih =>
      have hnests : s.Nests id nested := ⟨f, hfs f (by simp), htype⟩
      refine ih (hstart.tail hnests) ?_ fun f hf => hf
      refine List.forall_mem_cons.2 ⟨.refl, fun i hi => ?_⟩
      exact (haround i hi).tail hnests
  | later _ _ ih => exact ih hstart haround fun f hf => hfs f (by simp [hf])

theorem Breaks.closesCycle_of_start (h : s.Breaks id [] (s.fieldsAt id) e) :
    s.ClosesCycle id e :=
  h.closesCycle .refl (by simpa using .refl) fun _ hf => hf

theorem ClosesCycle.exists_cycle (h : s.ClosesCycle id e) :
    ∃ a, Relation.ReflTransGen s.Nests id a ∧ Relation.TransGen s.Nests a a := by
  obtain ⟨a, r, f, b, ha, hr, hf, htype, hback, _⟩ := h
  have hnests : s.Nests a b := ⟨f, mem_fieldsAt.2 ⟨r, hr, hf⟩, htype⟩
  exact ⟨a, ha, Relation.TransGen.head' hnests hback⟩

/-- What unfolds does not break. -/
theorem Unfolds.not_breaks (h : s.Unfolds (s.fieldsAt id) ts) :
    ¬ s.Breaks id [] (s.fieldsAt id) e := by
  intro hbreaks
  obtain ⟨a, ha, hcycle⟩ := hbreaks.closesCycle_of_start.exists_cycle
  exact h.not_cycle ha hcycle

/-! ## Expansions -/

/-- An expansion succeeds where the fields of the record unfold, and shows their trails. -/
theorem expand_eq_ok_iff {out : List Field} : s.expand shown joiner id = .ok out ↔
    ∃ ts, s.Unfolds (s.fieldsAt id) ts ∧ out = Trail.entries shown joiner "" ts := by
  cases s.comesOut_expand id with
  | @unfolds ts hts hok =>
      rw [show s.expand shown joiner id = .ok (Trail.entries shown joiner "" ts) from hok 0 _ _ _]
      constructor
      · intro h
        exact ⟨ts, hts, (Except.ok.inj h).symm⟩
      · rintro ⟨us, hus, rfl⟩
        rw [hts.unique hus]
  | @breaks e hbreaks herror =>
      rw [show s.expand shown joiner id = .error e from herror 0 _ _ _]
      constructor
      · intro h
        cases h
      · rintro ⟨ts, hts, _⟩
        exact absurd hbreaks hts.not_breaks

/-- How the expansion of a record ends. A walk without a bound finds the trails or the field that
    breaks, and that is the answer under every larger bound on the depth. It is a fault just where a
    cycle of record fields can be reached, and then names a field that closes one. -/
structure Ends (s : Store) (shown : Shown) (joiner : String) (id : Nat) : Prop where
  comesOut : (∃ ts, s.Unfolds (s.fieldsAt id) ts ∧
      s.expand shown joiner id = .ok (Trail.entries shown joiner "" ts)) ∨
    ∃ e, s.Breaks id [] (s.fieldsAt id) e ∧ s.expand shown joiner id = .error e
  unbounded : ∀ depth, s.size < depth →
    s.expandFrom shown joiner depth [id] "" id = s.expand shown joiner id
  fails : (∃ e, s.expand shown joiner id = .error e) ↔
    ∃ a, Relation.ReflTransGen s.Nests id a ∧ Relation.TransGen s.Nests a a
  closes : ∀ e, s.expand shown joiner id = .error e → s.ClosesCycle id e

/-- **An expansion fails on cycles only.** For every store, record, joiner and form the expansion of a
    record comes to an end. It fails if and only if a record that nests itself can be reached through
    record fields, and the fault is located at a field that closes such a cycle; a record that comes
    up many times without being inside itself does no harm. -/
theorem expand_ends (s : Store) (shown : Shown) (joiner : String) (id : Nat) :
    s.Ends shown joiner id := by
  have hexcess : ∀ depth, s.size < depth → ∃ extra, depth = s.size + 1 + extra := fun depth h =>
    ⟨depth - (s.size + 1), by omega⟩
  cases s.comesOut_expand id with
  | @unfolds ts hts hok =>
      have hexpand : s.expand shown joiner id = .ok (Trail.entries shown joiner "" ts) :=
        hok 0 shown joiner ""
      refine
        { comesOut := Or.inl ⟨ts, hts, hexpand⟩
          unbounded := fun depth hdepth => ?_
          fails := ⟨?_, ?_⟩
          closes := fun e he => ?_ }
      · obtain ⟨extra, rfl⟩ := hexcess depth hdepth
        rw [hok, hexpand]
      · rintro ⟨e, he⟩
        cases hexpand.symm.trans he
      · rintro ⟨a, ha, hcycle⟩
        exact absurd hcycle (hts.not_cycle ha)
      · cases hexpand.symm.trans he
  | @breaks e hbreaks herror =>
      have hexpand : s.expand shown joiner id = .error e := herror 0 shown joiner ""
      have hcloses : s.ClosesCycle id e := hbreaks.closesCycle_of_start
      refine
        { comesOut := Or.inr ⟨e, hbreaks, hexpand⟩
          unbounded := fun depth hdepth => ?_
          fails := ⟨fun _ => hcloses.exists_cycle, fun _ => ⟨e, hexpand⟩⟩
          closes := fun e' he' => ?_ }
      · obtain ⟨extra, rfl⟩ := hexcess depth hdepth
        rw [herror, hexpand]
      · rw [← Except.error.inj (hexpand.symm.trans he')]
        exact hcloses

end Store

end AvroCodegen
