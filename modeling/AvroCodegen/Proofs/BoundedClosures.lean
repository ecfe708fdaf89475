import AvroCodegen.Entity.Closure
import AvroCodegen.Proofs.DependencyOrder
import AvroCodegen.Proofs.StoreRelations

set_option autoImplicit false

/-! # What a bounded closure gathers

A bounded closure walks each record once, and whether a dependency ends the walk depends on the
record that is walked. So a record may be owned on one path and walked through on another, and a walk
that is cut off because its record was walked before must not lose anything.

`Store.Inside` is the least set of records that the walk has to come through, said without a walk.
`Gathers` says what the walk does without a bound on its depth. Everything it marks lies inside, and
once it is over every marked record has all its dependencies handled; so it marks all that lies inside
and gathers what stands at the edge. -/

namespace AvroCodegen

namespace Store

/-! ## Inside and at the edge -/

/-- Whether a number is that of an enum. -/
def isEnum (s : Store) (id : Nat) : Bool :=
  ((s.get? id).bind Entity.enum?).isSome

/-- The least set of records that has a record in it, and with each of its records every record that
    this one needs and does not own. -/
inductive Inside (s : Store) (id : Nat) : Nat → Prop
  | start : Inside s id id
  | step {w d : Nat} {r rd : RecordEntity} : Inside s id w → s.record? w = some r →
      d ∈ r.dependencies → s.record? d = some rd → r.owns d = false → Inside s id d

/-- What ends a walk at a record: the enums that it needs, and the records that it needs and owns. -/
def AtEdge (s : Store) (r : RecordEntity) (d : Nat) : Prop :=
  d ∈ r.dependencies ∧ (s.isEnum d = true ∨ (∃ rd, s.record? d = some rd) ∧ r.owns d = true)

/-- A store in which every dependency is an entity, and no two entities have the same fullname. -/
structure Linked (s : Store) : Prop where
  dependencies : ∀ id r, s.record? id = some r → ∀ d ∈ r.dependencies, d < s.size
  once : ∀ i < s.size, ∀ j < s.size, s.schemaName i = s.schemaName j → i = j

variable {s : Store} {id d : Nat} {r rd : RecordEntity}

theorem exists_get?_of_lt (h : id < s.size) : ∃ e, s.get? id = some e :=
  ⟨_, List.getElem?_eq_getElem h⟩

theorem isEnum_of_get? {e : EnumEntity} (h : s.get? d = some (.enum e)) : s.isEnum d = true := by
  simp [isEnum, h, Entity.enum?]

theorem isEnum_eq_false (h : s.record? d = some rd) : s.isEnum d = false := by
  simp [isEnum, record?_eq_some.1 h, Entity.enum?]

theorem mem_dependencies_iff :
    d ∈ s.dependencies id ↔ ∃ r, s.record? id = some r ∧ d ∈ r.dependencies := by
  unfold dependencies
  cases s.record? id with
  | none => simp
  | some r => simp

/-! ## Gathering without a bound -/

/-- A walk over some dependencies of a record, whatever its depth. Every dependency is an entity. -/
inductive Gathers (s : Store) (inclusive : Bool) :
    RecordEntity → List Nat → Gathering → Gathering → Prop
  | done (r : RecordEntity) (b : Gathering) : Gathers s inclusive r [] b b
  | enum {r : RecordEntity} {d : Nat} {ds : List Nat} {b b' : Gathering} {e : EnumEntity} :
      s.get? d = some (.enum e) → Gathers s inclusive r ds (b.collect d) b' →
      Gathers s inclusive r (d :: ds) b b'
  | owned {r rd : RecordEntity} {d : Nat} {ds : List Nat} {b b' : Gathering} :
      s.record? d = some rd → r.owns d = true →
      Gathers s inclusive r ds (if inclusive then b.collect d else b) b' →
      Gathers s inclusive r (d :: ds) b b'
  | again {r rd : RecordEntity} {d : Nat} {ds : List Nat} {b b' : Gathering} :
      s.record? d = some rd → r.owns d = false → d ∈ b.walked →
      Gathers s inclusive r ds b b' → Gathers s inclusive r (d :: ds) b b'
  | walk {r rd : RecordEntity} {d : Nat} {ds : List Nat} {b b₁ b' : Gathering} :
      s.record? d = some rd → r.owns d = false → d ∉ b.walked →
      Gathers s inclusive rd rd.dependencies (b.mark d) b₁ →
      Gathers s inclusive r ds b₁ b' → Gathers s inclusive r (d :: ds) b b'

end Store

/-! ## What was walked and collected -/

namespace Gathering

variable {b b' : Gathering} {id d : Nat}

@[simp] theorem walked_collect (id : Nat) (b : Gathering) : (b.collect id).walked = b.walked := by
  unfold collect
  split <;> rfl

@[simp] theorem collected_mark (id : Nat) (b : Gathering) : (b.mark id).collected = b.collected := rfl

theorem mem_walked_mark : d ∈ (b.mark id).walked ↔ d = id ∨ d ∈ b.walked := by
  simp [mark]

theorem collected_subset_collect (id : Nat) (b : Gathering) :
    b.collected ⊆ (b.collect id).collected := by
  unfold collect
  split
  · exact List.Subset.refl _
  · exact List.subset_append_left _ _

theorem eq_or_mem_of_mem_collect (h : d ∈ (b.collect id).collected) : d ∈ b.collected ∨ d = id := by
  unfold collect at h
  split at h
  · exact Or.inl h
  · simpa using h

theorem nodup_collect (h : b.collected.Nodup) : (b.collect id).collected.Nodup := by
  unfold collect
  split
  · exact h
  · next hid =>
      have hfree : id ∉ b.collected := by simpa using hid
      exact h.append (List.nodup_singleton id) (List.disjoint_singleton.2 hfree)

/-- The same walk with fewer entities collected. -/
def keeping (p : Nat → Bool) (b : Gathering) : Gathering :=
  { b with collected := b.collected.filter p }

theorem keeping_collect (p : Nat → Bool) (id : Nat) (b : Gathering) :
    (b.collect id).keeping p = if p id then (b.keeping p).collect id else b.keeping p := by
  by_cases hmem : id ∈ b.collected
  · by_cases hp : p id = true <;> simp [collect, keeping, hmem, hp]
  · by_cases hp : p id = true <;> simp [collect, keeping, hmem, hp]

/-- A later state of a walk. -/
structure Extends (b b' : Gathering) : Prop where
  walked : b.walked ⊆ b'.walked
  collected : b.collected ⊆ b'.collected

theorem Extends.refl (b : Gathering) : b.Extends b :=
  ⟨List.Subset.refl _, List.Subset.refl _⟩

theorem Extends.trans {b₁ b₂ b₃ : Gathering} (h : b₁.Extends b₂) (h' : b₂.Extends b₃) :
    b₁.Extends b₃ :=
  ⟨List.Subset.trans h.walked h'.walked, List.Subset.trans h.collected h'.collected⟩

theorem extends_collect (id : Nat) (b : Gathering) : b.Extends (b.collect id) :=
  ⟨by rw [walked_collect]; exact List.Subset.refl _, collected_subset_collect id b⟩

theorem extends_mark (id : Nat) (b : Gathering) : b.Extends (b.mark id) :=
  ⟨List.subset_cons_self _ _, List.Subset.refl _⟩

end Gathering

namespace Store

variable {s : Store} {inclusive : Bool} {id : Nat} {r : RecordEntity} {ds : List Nat}
  {b b' : Gathering}

theorem Gathers.extends (h : s.Gathers inclusive r ds b b') : b.Extends b' := by
  induction h with
  | done r b => exact .refl b
  | enum _ _ ih => exact (Gathering.extends_collect _ _).trans ih
  | owned _ _ _ ih =>
      refine Gathering.Extends.trans ?_ ih
      split
      · exact Gathering.extends_collect _ _
      · exact .refl _
  | again _ _ _ _ ih => exact ih
  | walk _ _ _ _ _ ih₁ ih => exact ((Gathering.extends_mark _ _).trans ih₁).trans ih

/-! ## The bound on the depth is never met -/

/-- How many entities were not walked yet. -/
def unwalked (s : Store) (b : Gathering) : Nat :=
  s.ids.countP fun i => !b.walked.contains i

theorem unwalked_anti (h : b.Extends b') : s.unwalked b' ≤ s.unwalked b := by
  refine List.countP_mono_left fun i _ hi => ?_
  simp only [Bool.not_eq_true', List.contains_eq_mem, decide_eq_false_iff_not] at hi ⊢
  exact fun hb => hi (h.walked hb)

theorem unwalked_mark_lt (hid : id < s.size) (hb : id ∉ b.walked) :
    s.unwalked (b.mark id) < s.unwalked b := by
  refine countP_lt_countP (List.mem_range.2 hid) (fun i _ hi => ?_) (by simp [hb])
    (by simp [Gathering.mark])
  simp only [Bool.not_eq_true', List.contains_eq_mem, decide_eq_false_iff_not] at hi ⊢
  exact fun h => hi (Gathering.mem_walked_mark.2 (Or.inr h))

/-- One dependency of a walk of bounded depth. -/
def gatherOne (s : Store) (inclusive : Bool) (depth : Nat) (r : RecordEntity) (b : Gathering)
    (d : Nat) : Gathering :=
  match s.get? d with
  | none => b
  | some (.enum _) => b.collect d
  | some (.record _) =>
    if r.owns d then (if inclusive then b.collect d else b)
    else if b.walked.contains d then b
    else s.gather inclusive depth d (b.mark d)

theorem gather_succ (depth : Nat) (hr : s.record? id = some r) (b : Gathering) :
    s.gather inclusive (depth + 1) id b =
      r.dependencies.foldl (s.gatherOne inclusive depth r) b := by
  rw [gather, hr]
  rfl

/-- A bound not below the number of entities still to walk does not show: the walk is the unbounded
    one. -/
theorem gathers_foldl (hs : s.Linked) (depth : Nat) :
    ∀ {r : RecordEntity} (ds : List Nat) (b : Gathering), (∀ d ∈ ds, d < s.size) →
      s.unwalked b ≤ depth →
      s.Gathers inclusive r ds b (ds.foldl (s.gatherOne inclusive depth r) b) := by
  induction depth using Nat.strongRecOn with
  | _ depth ihd =>
    intro r ds
    induction ds with
    | nil => intro b _ _; exact .done r b
    | cons d ds ih =>
        intro b hds hb
        have hrest : ∀ k ∈ ds, k < s.size := fun k hk => hds k (by simp [hk])
        obtain ⟨e, hget⟩ := exists_get?_of_lt (hds d (by simp))
        rw [List.foldl_cons]
        cases e with
        | enum e =>
            have hone : s.gatherOne inclusive depth r b d = b.collect d := by simp [gatherOne, hget]
            rw [hone]
            refine .enum hget (ih _ hrest ?_)
            exact Nat.le_trans (unwalked_anti (Gathering.extends_collect d b)) hb
        | record rd =>
            have hrd : s.record? d = some rd := record?_eq_some.2 hget
            cases howns : r.owns d with
            | true =>
                have hone : s.gatherOne inclusive depth r b d =
                    if inclusive then b.collect d else b := by simp [gatherOne, hget, howns]
                rw [hone]
                refine .owned hrd howns (ih _ hrest ?_)
                split
                · exact Nat.le_trans (unwalked_anti (Gathering.extends_collect d b)) hb
                · exact hb
            | false =>
                by_cases hwalked : d ∈ b.walked
                · have hone : s.gatherOne inclusive depth r b d = b := by
                    simp [gatherOne, hget, howns, hwalked]
                  rw [hone]
                  exact .again hrd howns hwalked (ih _ hrest hb)
                · -- marking `d` leaves one entity less to walk, so the bound may go down by one
                  have hlt := unwalked_mark_lt (hds d (by simp)) hwalked
                  obtain ⟨k, rfl⟩ : ∃ k, depth = k + 1 := ⟨depth - 1, by omega⟩
                  have hone : s.gatherOne inclusive (k + 1) r b d =
                      rd.dependencies.foldl (s.gatherOne inclusive k rd) (b.mark d) := by
                    rw [← gather_succ k hrd]
                    simp [gatherOne, hget, howns, hwalked]
                  have hinner := ihd k (by omega) (r := rd) rd.dependencies (b.mark d)
                    (hs.dependencies d rd hrd) (by omega)
                  rw [hone]
                  refine .walk hrd howns hwalked hinner (ih _ hrest ?_)
                  have := unwalked_anti (s := s) hinner.extends
                  omega

/-- A bounded closure is what the unbounded walk from the record collects. -/
theorem gathers_bounded (hs : s.Linked) (hr : s.record? id = some r) (inclusive : Bool) :
    ∃ b, s.Gathers inclusive r r.dependencies ⟨[id], []⟩ b ∧ s.bounded inclusive id = b.collected := by
  refine ⟨_, gathers_foldl hs s.size r.dependencies ⟨[id], []⟩ (hs.dependencies id r hr) ?_, ?_⟩
  · have hle : s.unwalked ⟨[id], []⟩ ≤ s.ids.length := List.countP_le_length
    simpa [ids] using hle
  · rw [bounded, gather_succ s.size hr]

/-! ## What a walk gathers -/

/-- A walk collects nothing but what stands at the edge. -/
theorem Gathers.atEdge (h : s.Gathers inclusive r ds b b') {w : Nat} (hw : s.Inside id w)
    (hr : s.record? w = some r) (hds : ∀ d ∈ ds, d ∈ r.dependencies) {x : Nat}
    (hx : x ∈ b'.collected) :
    x ∈ b.collected ∨ ∃ v rv, s.Inside id v ∧ s.record? v = some rv ∧ s.AtEdge rv x := by
  induction h generalizing w with
  | done r b => exact Or.inl hx
  | @enum r d ds b b' e he _ ih =>
      rcases ih hw hr (fun k hk => hds k (by simp [hk])) hx with hx | hx
      · rcases Gathering.eq_or_mem_of_mem_collect hx with hx | rfl
        · exact Or.inl hx
        · exact Or.inr ⟨w, r, hw, hr, hds x (by simp), Or.inl (isEnum_of_get? he)⟩
      · exact Or.inr hx
  | @owned r rd d ds b b' hrd howns _ ih =>
      rcases ih hw hr (fun k hk => hds k (by simp [hk])) hx with hx | hx
      · split at hx
        · rcases Gathering.eq_or_mem_of_mem_collect hx with hx | rfl
          · exact Or.inl hx
          · exact Or.inr ⟨w, r, hw, hr, hds x (by simp), Or.inr ⟨⟨rd, hrd⟩, howns⟩⟩
        · exact Or.inl hx
      · exact Or.inr hx
  | again _ _ _ _ ih => exact ih hw hr (fun k hk => hds k (by simp [hk])) hx
  | @walk r rd d ds b b₁ b' hrd howns _ _ _ ih₁ ih =>
      rcases ih hw hr (fun k hk => hds k (by simp [hk])) hx with hx | hx
      · exact ih₁ (hw.step hr (hds d (by simp)) hrd howns) hrd (fun k hk => hk) hx
      · exact Or.inr hx

theorem Gathers.nodup (h : s.Gathers inclusive r ds b b') (hb : b.collected.Nodup) :
    b'.collected.Nodup := by
  induction h with
  | done r b => exact hb
  | enum _ _ ih => exact ih (Gathering.nodup_collect hb)
  | owned _ _ _ ih =>
      refine ih ?_
      split
      · exact Gathering.nodup_collect hb
      · exact hb
  | again _ _ _ _ ih => exact ih hb
  | walk _ _ _ _ _ ih₁ ih => exact ih (ih₁ hb)

/-- A dependency of a record is handled once it is collected, if it stands at the edge, and otherwise
    marked. -/
structure Handled (s : Store) (b : Gathering) (r : RecordEntity) (d : Nat) : Prop where
  collected : s.AtEdge r d → d ∈ b.collected
  walked : ∀ rd, s.record? d = some rd → r.owns d = false → d ∈ b.walked

/-- A record is settled once all its dependencies are handled. -/
def Settled (s : Store) (b : Gathering) (w : Nat) : Prop :=
  ∀ r, s.record? w = some r → ∀ d ∈ r.dependencies, s.Handled b r d

theorem Handled.mono {d : Nat} (h : s.Handled b r d) (hb : b.Extends b') : s.Handled b' r d :=
  ⟨fun hd => hb.collected (h.collected hd), fun rd hrd howns => hb.walked (h.walked rd hrd howns)⟩

theorem Settled.mono {w : Nat} (h : s.Settled b w) (hb : b.Extends b') : s.Settled b' w :=
  fun r hr d hd => (h r hr d hd).mono hb

theorem handled_of_walked {d : Nat} {rd : RecordEntity} (hrd : s.record? d = some rd)
    (howns : r.owns d = false) (hd : d ∈ b.walked) : s.Handled b r d := by
  refine ⟨fun hedge => ?_, fun _ _ _ => hd⟩
  rcases hedge.2 with henum | ⟨_, hown⟩
  · rw [isEnum_eq_false hrd] at henum
    cases henum
  · rw [howns] at hown
    cases hown

/-- An inclusive walk handles each dependency that it is given. -/
theorem Gathers.handled (h : s.Gathers true r ds b b') : ∀ d ∈ ds, s.Handled b' r d := by
  induction h with
  | done r b => simp
  | @enum r d ds b b' e he hrest ih =>
      have hd : s.Handled (b.collect d) r d := by
        refine ⟨fun _ => Gathering.mem_collect d b, fun rd hrd _ => ?_⟩
        rw [record?_eq_some, he] at hrd
        cases hrd
      exact List.forall_mem_cons.2 ⟨hd.mono hrest.extends, ih⟩
  | @owned r rd d ds b b' hrd howns hrest ih =>
      have hd : s.Handled (b.collect d) r d := by
        refine ⟨fun _ => Gathering.mem_collect d b, fun rd _ hfree => ?_⟩
        rw [howns] at hfree
        cases hfree
      exact List.forall_mem_cons.2 ⟨hd.mono hrest.extends, ih⟩
  | @again r rd d ds b b' hrd howns hwalked hrest ih =>
      have hd : s.Handled b r d := handled_of_walked hrd howns hwalked
      exact List.forall_mem_cons.2 ⟨hd.mono hrest.extends, ih⟩
  | @walk r rd d ds b b₁ b' hrd howns _ hinner hrest _ ih =>
      have hd : s.Handled (b.mark d) r d :=
        handled_of_walked hrd howns (Gathering.mem_walked_mark.2 (Or.inl rfl))
      exact List.forall_mem_cons.2 ⟨(hd.mono hinner.extends).mono hrest.extends, ih⟩

/-- Every record that an inclusive walk marks is settled when the walk is over. -/
theorem Gathers.settled (h : s.Gathers true r ds b b') {w : Nat} (hw : w ∈ b'.walked) :
    w ∈ b.walked ∨ s.Settled b' w := by
  induction h with
  | done r b => exact Or.inl hw
  | enum _ _ ih => simpa using ih hw
  | owned _ _ _ ih => simpa using ih hw
  | again _ _ _ _ ih => exact ih hw
  | @walk r rd d ds b b₁ b' hrd _ _ hinner hrest ih₁ ih =>
      rcases ih hw with hw | hw
      · rcases ih₁ hw with hw | hw
        · rcases Gathering.mem_walked_mark.1 hw with rfl | hw
          · -- the walk below `d` went over all that `d` needs
            refine Or.inr fun r' hr' k hk => ?_
            rw [hrd, Option.some.injEq] at hr'
            subst hr'
            exact (hinner.handled k hk).mono hrest.extends
          · exact Or.inl hw
        · exact Or.inr (hw.mono hrest.extends)
      · exact Or.inr hw

/-- The walk from a record settles all that lies inside. -/
theorem Gathers.settled_of_inside (h : s.Gathers true r r.dependencies ⟨[id], []⟩ b)
    (hr : s.record? id = some r) {w : Nat} (hw : s.Inside id w) : s.Settled b w := by
  have hall : ∀ w ∈ b.walked, s.Settled b w := by
    intro w hw
    rcases h.settled hw with hw | hw
    · rw [List.mem_singleton.1 hw]
      intro r' hr' d hd
      rw [hr, Option.some.injEq] at hr'
      subst hr'
      exact h.handled d hd
    · exact hw
  refine hall w ?_
  induction hw with
  | start => exact h.extends.walked (by simp)
  | @step w d r' rd _ hr' hd hrd howns ih => exact (hall w ih r' hr' d hd).walked rd hrd howns

/-- The walk from a record collects what stands at the edge, and nothing else. -/
theorem mem_toBoundary_iff (hs : s.Linked) (hr : s.record? id = some r) {d : Nat} :
    d ∈ s.dependenciesToBoundary id ↔
      ∃ w rw, s.Inside id w ∧ s.record? w = some rw ∧ s.AtEdge rw d := by
  obtain ⟨b, hgathers, hb⟩ := gathers_bounded hs hr true
  rw [dependenciesToBoundary, hb]
  constructor
  · intro hd
    rcases hgathers.atEdge .start hr (fun k hk => hk) hd with hd | hd
    · cases hd
    · exact hd
  · rintro ⟨w, rw, hw, hrw, hd⟩
    exact (hgathers.settled_of_inside hr hw rw hrw d hd.1).collected hd

theorem nodup_toBoundary (hs : s.Linked) (hr : s.record? id = some r) :
    (s.dependenciesToBoundary id).Nodup := by
  obtain ⟨b, hgathers, hb⟩ := gathers_bounded hs hr true
  rw [dependenciesToBoundary, hb]
  exact hgathers.nodup List.nodup_nil

/-! ## Both closures walk alike -/

/-- Leaving out the boundary changes nothing but what is collected there. -/
theorem gather_keeping (s : Store) (depth : Nat) :
    ∀ (id : Nat) (b : Gathering), s.gather false depth id (b.keeping s.isEnum) =
      (s.gather true depth id b).keeping s.isEnum := by
  induction depth with
  | zero => intro id b; rfl
  | succ depth ih =>
      intro id b
      cases hr : s.record? id with
      | none => simp [gather, hr]
      | some r =>
          rw [gather_succ depth hr, gather_succ depth hr]
          refine List.foldl_hom _ fun b d => ?_
          unfold gatherOne
          cases hd : s.get? d with
          | none => rfl
          | some e =>
              cases e with
              | enum e => simp [Gathering.keeping_collect, isEnum_of_get? hd]
              | record rd =>
                  have hrecord := isEnum_eq_false (record?_eq_some.2 hd)
                  have hmark : (b.keeping s.isEnum).mark d = (b.mark d).keeping s.isEnum := rfl
                  have hwalked : (b.keeping s.isEnum).walked = b.walked := rfl
                  simp only [hmark, hwalked, ih]
                  split
                  · simp [Gathering.keeping_collect, hrecord]
                  · split <;> rfl

theorem withinBoundary_eq_filter (s : Store) (id : Nat) :
    s.dependenciesWithinBoundary id = (s.dependenciesToBoundary id).filter s.isEnum :=
  congrArg Gathering.collected (s.gather_keeping (s.size + 1) id ⟨[id], []⟩)

/-! ## All dependencies -/

theorem Linked.wellKeyed (hs : s.Linked) : s.walkable.WellKeyed where
  closed := by
    intro i _ j hj
    obtain ⟨r, hr, hj⟩ := mem_dependencies_iff.1 hj
    exact List.mem_range.2 (hs.dependencies i r hr j hj)
  key_inj := fun i hi j hj h => hs.once i (List.mem_range.1 hi) j (List.mem_range.1 hj) h

theorem Inside.reaches {w : Nat} (hw : s.Inside id w) : w = id ∨ s.walkable.Reaches id w := by
  induction hw with
  | start => exact Or.inl rfl
  | @step w d r rd _ hr hd _ _ ih =>
      have hneeds : s.walkable.Needs w d := mem_dependencies_iff.2 ⟨r, hr, hd⟩
      rcases ih with rfl | ih
      · exact Or.inr (.single hneeds)
      · exact Or.inr (ih.tail hneeds)

/-- What stands at the edge is needed, over one or more steps. -/
theorem mem_allDependencies (hs : s.Linked) (hr : s.record? id = some r) {d : Nat}
    (hd : d ∈ s.dependenciesToBoundary id) : d ∈ s.allDependencies id := by
  obtain ⟨w, rw, hw, hrw, hd, _⟩ := (mem_toBoundary_iff hs hr).1 hd
  have hneeds : s.walkable.Needs w d := mem_dependencies_iff.2 ⟨rw, hrw, hd⟩
  have hid : id < s.size := lt_size_of_get? (record?_eq_some.1 hr)
  refine (DependencyGraph.mem_flatten_iff hs.wellKeyed [id] ?_).2 ⟨id, by simp, ?_⟩
  · exact fun i hi => List.mem_singleton.1 hi ▸ List.mem_range.2 hid
  · rcases hw.reaches with rfl | hw
    · exact .single hneeds
    · exact hw.tail hneeds

/-! ## The closures of a store that was built -/

theorem ComesOf.idAmong_schemaName {c : Catalog} {g : Graph} {scope : List (Nat × Naming)}
    {drafts : List Entity} (hs : s.ComesOf c g scope drafts) (hg : g.Whole c)
    (hscope : (scope.map Prod.fst).Nodup) (hid : id < s.size) :
    idAmong (placed g scope) (s.schemaName id) = some id := by
  rw [hs.size_eq] at hid
  have hp := List.getElem?_eq_getElem hid
  obtain ⟨e, he, hschema, _⟩ := hs.exists_get? hp
  refine (idAmong_eq_some hg.once hscope).2 ⟨_, hp, ?_⟩
  rw [← fullname_placed hp, ← hschema]
  simp [schemaName, he]

theorem ComesOf.linked {c : Catalog} {g : Graph} {scope : List (Nat × Naming)}
    {drafts : List Entity} (hs : s.ComesOf c g scope drafts) (hg : g.Whole c)
    (hscope : (scope.map Prod.fst).Nodup) : s.Linked where
  dependencies := by
    intro id r hr d hd
    obtain ⟨_, p, _, _, hdependencies, _⟩ := hs.record_eq hr
    rw [hdependencies] at hd
    obtain ⟨j, _, hd⟩ := List.mem_filterMap.1 hd
    obtain ⟨q, hq, _⟩ := (idAmong_eq_some hg.once hscope).1 hd
    rw [hs.size_eq]
    exact (List.getElem?_eq_some_iff.1 hq).1
  once := by
    intro i hi j hj h
    have hfound := hs.idAmong_schemaName hg hscope hi
    rwa [h, hs.idAmong_schemaName hg hscope hj, Option.some.injEq, eq_comm] at hfound

/-- What the bounded closures of a record show: the walks end, the inclusive one gathers what stands
    at the edge of the records inside, and the exclusive one the enums of it. -/
structure Bounds (s : Store) (id : Nat) (r : RecordEntity) : Prop where
  ends : ∀ inclusive, ∃ b, s.Gathers inclusive r r.dependencies ⟨[id], []⟩ b ∧
    s.bounded inclusive id = b.collected
  once : (s.dependenciesToBoundary id).Nodup
  edge : ∀ d, d ∈ s.dependenciesToBoundary id ↔
    ∃ w rw, s.Inside id w ∧ s.record? w = some rw ∧ s.AtEdge rw d
  enums : s.dependenciesWithinBoundary id = (s.dependenciesToBoundary id).filter s.isEnum
  needed : ∀ d, d ∈ s.dependenciesToBoundary id ∨ d ∈ s.dependenciesWithinBoundary id →
    d ∈ s.allDependencies id
  owned : ∀ w rw d rd, s.Inside id w → s.record? w = some rw → d ∈ rw.dependencies →
    s.record? d = some rd → rw.owns d = true →
      d ∈ s.dependenciesToBoundary id ∧ d ∉ s.dependenciesWithinBoundary id

theorem Linked.bounds (hs : s.Linked) (hr : s.record? id = some r) : s.Bounds id r where
  ends := gathers_bounded hs hr
  once := nodup_toBoundary hs hr
  edge := fun d => mem_toBoundary_iff hs hr
  enums := withinBoundary_eq_filter s id
  needed := by
    intro d hd
    refine mem_allDependencies hs hr (hd.elim (fun hd => hd) fun hd => ?_)
    rw [withinBoundary_eq_filter] at hd
    exact (List.mem_filter.1 hd).1
  owned := by
    intro w rw d rd hw hrw hd hrd howns
    refine ⟨(mem_toBoundary_iff hs hr).2 ⟨w, rw, hw, hrw, hd, Or.inr ⟨⟨rd, hrd⟩, howns⟩⟩,
      fun hmem => ?_⟩
    rw [withinBoundary_eq_filter, List.mem_filter, isEnum_eq_false hrd] at hmem
    cases hmem.2

/-- **A bounded closure stops where ownership begins.** In every store of a catalog that was read, with
    or without cycles, the walks from a record come to an end. The inclusive one gathers, each once,
    the enums that the records inside need and the records that they need and own; the exclusive one
    gathers the enums among these, in the same order; and both stay among all dependencies. What some
    record inside owns is at the boundary even if another refers to it plainly. -/
theorem bounded_closures (calls : List Reader.Call) {c : Catalog}
    (h : (Reader.after calls).finish = .ok c) {g : Graph} (hg : g.Built c) (generator : String)
    (scope : List (Nat × Naming)) (hscope : (scope.map Prod.fst).Nodup)
    (hs : build generator g c scope = .ok s) (hr : s.record? id = some r) : s.Bounds id r := by
  have hwhole := hg.whole ((Reader.sound_after calls).closed_of_finish h)
  obtain ⟨drafts, hcomes⟩ := exists_comesOf hwhole hscope hs
  exact (hcomes.linked hwhole hscope).bounds hr

/-! ## A basket and its lines

The basket owns its lines, and a promotion, which the basket refers to first, refers to them plainly.
Each line refers back to the basket. -/

/-- The calls that read the basket. -/
def basketCalls : List Reader.Call :=
  [ .node (Reader.recordNode "w.Basket"
      [ ("promo", Reader.recordNode "Promo"
          [ ("line", Reader.recordNode "Line"
              [("kind", Reader.enumNode "Kind" "A"), ("basket", .str "w.Basket")]) ]),
        ("lines", Reader.arrayNode (.str "Line")) ]),
    .source "basket" "[\"w.Basket\"]" ]

/-- What comes of reading the basket. -/
def basketCatalog : Catalog :=
  (Reader.after basketCalls).finish.toOption.getD ⟨[], []⟩

/-- The graph of the basket. -/
def basketGraph : Graph :=
  (Graph.ofCatalog basketCatalog).toOption.getD Graph.empty

/-- The nodes of the basket: line, basket, kind and promotion. -/
def basketScope : List (Nat × Naming) :=
  [ (2, ⟨"w", "Line", "w.Line"⟩), (0, ⟨"w", "Basket", "w.Basket"⟩),
    (3, ⟨"w", "Kind", "w.Kind"⟩), (1, ⟨"w", "Promo", "w.Promo"⟩) ]

/-- The store of the basket. -/
def basketStore : Store :=
  (build "java" basketGraph basketCatalog basketScope).toOption.getD (Store.empty "java")

theorem bounded_closures_basket :
    (Reader.after basketCalls).finish = .ok basketCatalog ∧ basketGraph.Built basketCatalog ∧
    (basketScope.map Prod.fst).Nodup ∧
    build "java" basketGraph basketCatalog basketScope = .ok basketStore ∧
    basketStore.dependenciesToBoundary 1 = [2, 0] ∧
    basketStore.dependenciesWithinBoundary 1 = [2] ∧
    ∃ r, basketStore.record? 1 = some r ∧ basketStore.Bounds 1 r := by
  have hread := Answer.eq_ok_getD (m := (Reader.after basketCalls).finish) ⟨[], []⟩
    (by decide +kernel)
  have hgraph := Answer.eq_ok_getD (m := Graph.ofCatalog basketCatalog) Graph.empty
    (by decide +kernel)
  have hbuilt : basketGraph.Built basketCatalog := Graph.built_ofCatalog hgraph
  have hscope : (basketScope.map Prod.fst).Nodup := by decide
  have hstore := Answer.eq_ok_getD (m := build "java" basketGraph basketCatalog basketScope)
    (Store.empty "java") (by decide +kernel)
  have hrecord : (basketStore.record? 1).isSome = true := by decide +kernel
  obtain ⟨r, hr⟩ := Option.isSome_iff_exists.1 hrecord
  exact ⟨hread, hbuilt, hscope, hstore, by decide +kernel, by decide +kernel, r, hr,
    bounded_closures basketCalls hread hbuilt "java" basketScope hscope hstore hr⟩

end Store

end AvroCodegen
