import AvroCodegen.Entity.Build
import AvroCodegen.Proofs.Answer

set_option autoImplicit false

/-! # Entities take turns

`Store.wire` lets one record enter its relations with itself and with the records around it, in a
list of entities that all the others write to as well. `wired` is the entity that comes of a draft
once the first `k` entities had their turn; each turn leads from `k` to `k + 1`, so the relations can
be read off at the end. -/

namespace AvroCodegen

/-! ## Taking turns -/

namespace Entity

theorem addParent_addParent (parent : Nat) (e : Entity) :
    (e.addParent parent).addParent parent = e.addParent parent := by
  cases e with
  | enum e => rfl
  | record r =>
      by_cases h : parent ∈ r.parents
      · simp [addParent, h]
      · simp [addParent, h]

/-- A draft has no relations yet. -/
def Unrelated : Entity → Prop
  | .record r => r.dependencies = [] ∧ r.parents = [] ∧ r.owners = []
  | .enum _ => True

end Entity

namespace Store

/-- What becomes of the draft with the number `id` once the first `k` entities have had their turn. -/
def wired (links owners : Nat → List Nat) (k id : Nat) : Entity → Entity
  | .record r =>
    .record { r with
      dependencies := if id < k then links id else []
      parents := (List.range k).filter (fun i => id ∈ links i)
      owners := if id < k then owners id else [] }
  | .enum e => .enum e

variable {links owners : Nat → List Nat} {k id : Nat}

theorem wired_zero {e : Entity} (h : e.Unrelated) : wired links owners 0 id e = e := by
  cases e with
  | enum e => rfl
  | record r =>
      obtain ⟨naming, schema, fields, dependencies, parents, owners', isRoot⟩ := r
      obtain ⟨rfl, rfl, rfl⟩ := h
      rfl

theorem isSome_record?_wired (e : Entity) :
    (wired links owners k id e).record?.isSome = e.record?.isSome := by
  cases e <;> rfl

theorem isRecord_mapIdx (drafts : List Entity) :
    isRecord (drafts.mapIdx (wired links owners k)) = isRecord drafts := by
  funext id
  unfold isRecord
  rw [List.getElem?_mapIdx]
  cases drafts[id]? with
  | none => rfl
  | some e => exact isSome_record?_wired e

/-- What the turn of the entity `k` does to the entity `id`. -/
def turn (links owners : Nat → List Nat) (k id : Nat) (e : Entity) : Entity :=
  let e := if id ∈ links k then e.addParent k else e
  if k = id then e.setRelations (links k) (owners k) else e

/-- The turn of an enum without links changes nothing. -/
theorem turn_enum {e : Entity} (hlinks : links k = []) (he : k = id → e.record? = none) :
    turn links owners k id e = e := by
  have hmem : id ∉ links k := by simp [hlinks]
  dsimp only [turn]
  rw [if_neg hmem]
  split
  · next hk =>
      cases e with
      | record r => exact nomatch he hk
      | enum e => rfl
  · rfl

theorem turn_wired (e : Entity) :
    turn links owners k id (wired links owners k id e) = wired links owners (k + 1) id e := by
  cases e with
  | enum e =>
      dsimp only [turn]
      split <;> split <;> rfl
  | record r =>
      -- `k` is no parent yet, and is the next number in turn
      have hfresh : k ∉ (List.range k).filter (fun i => id ∈ links i) := by simp
      have hparents : (List.range (k + 1)).filter (fun i => id ∈ links i) =
          if id ∈ links k then (List.range k).filter (fun i => id ∈ links i) ++ [k]
          else (List.range k).filter (fun i => id ∈ links i) := by
        rw [List.range_succ, List.filter_append]
        split <;> simp [*]
      have hadd : (if id ∈ links k then (wired links owners k id (.record r)).addParent k
          else wired links owners k id (.record r)) =
          .record { r with
            dependencies := if id < k then links id else []
            parents := (List.range (k + 1)).filter (fun i => id ∈ links i)
            owners := if id < k then owners id else [] } := by
        rw [hparents]
        split
        · simp only [wired, Entity.addParent, List.contains_iff_mem, if_neg hfresh]
        · rfl
      unfold turn
      rw [hadd]
      by_cases hk : k = id
      · subst hk
        simp [wired, Entity.setRelations]
      · have hlt : id < k + 1 ↔ id < k := by omega
        simp [wired, hk, hlt]

theorem getElem?_foldl_addParent (parent : Nat) (ids : List Nat) :
    ∀ (entities : List Entity) (id : Nat),
      (ids.foldl (fun es link => es.modify link (Entity.addParent parent)) entities)[id]? =
        entities[id]?.map fun e => if id ∈ ids then e.addParent parent else e := by
  induction ids with
  | nil => intro entities id; simp
  | cons i ids ih =>
      intro entities id
      rw [List.foldl_cons, ih, List.getElem?_modify]
      cases entities[id]? with
      | none => rfl
      | some e =>
          by_cases hi : i = id
          · subst hi
            by_cases hmem : i ∈ ids <;> simp [hmem, Entity.addParent_addParent]
          · simp [hi, Ne.symm hi]

/-- The placed owners of a placed node. -/
def ownerIds (g : Graph) (idOf : String → Option Nat) (p : Placed) : List Nat :=
  (g.owners p.node).filterMap fun j => idOf (g.fullname j)

theorem ownersOf_eq {g : Graph} {idOf : String → Option Nat} {isRecord : Nat → Bool} {p : Placed}
    (h : ∀ id ∈ ownerIds g idOf p, isRecord id = true) :
    ownersOf g idOf isRecord p = .ok (ownerIds g idOf p) := by
  unfold ownersOf
  rw [Answer.mapM_eq_map (g := Prod.snd), List.map_filterMap]
  · congr 1
    refine List.filterMap_congr fun j _ => ?_
    rw [Option.map_map]
    exact congrFun Option.map_id _
  · rintro ⟨j, id⟩ hmem
    obtain ⟨j', hj', heq⟩ := List.mem_filterMap.1 hmem
    obtain ⟨id', hid', heq⟩ := Option.map_eq_some_iff.1 heq
    obtain ⟨rfl, rfl⟩ := Prod.mk.inj heq
    exact if_pos (h id' (List.mem_filterMap.2 ⟨j', hj', hid'⟩))

section Drafts

variable (g : Graph) (ps : List Placed) (drafts : List Entity)

/-- The links of the entity with the given number; an enum has none. -/
def linksAt (id : Nat) : List Nat :=
  if isRecord drafts id then (ps[id]?.map (linksOf g (idAmong ps))).getD [] else []

/-- The owners of the entity with the given number. -/
def ownersAt (id : Nat) : List Nat :=
  (ps[id]?.map (ownerIds g (idAmong ps))).getD []

/-- The entities once the first `k` had their turn. -/
def wiredAll (k : Nat) : List Entity :=
  drafts.mapIdx (wired (linksAt g ps drafts) (ownersAt g ps) k)

variable {g ps drafts}

theorem linksAt_eq {id : Nat} {p : Placed} (hp : ps[id]? = some p)
    (hrecord : isRecord drafts id = true) : linksAt g ps drafts id = linksOf g (idAmong ps) p := by
  simp [linksAt, hrecord, hp]

theorem ownersAt_eq {id : Nat} {p : Placed} (hp : ps[id]? = some p) :
    ownersAt g ps id = ownerIds g (idAmong ps) p := by
  simp [ownersAt, hp]

theorem getElem?_wiredAll_succ (k id : Nat) : (wiredAll g ps drafts (k + 1))[id]? =
    (wiredAll g ps drafts k)[id]?.map (turn (linksAt g ps drafts) (ownersAt g ps) k id) := by
  simp only [wiredAll, List.getElem?_mapIdx, Option.map_map]
  cases drafts[id]? with
  | none => rfl
  | some e => exact congrArg some (turn_wired e).symm

/-- The turn of an entity leads from one state to the next, and cannot fail where all owners are
    records. -/
theorem wire_wiredAll {k : Nat} {p : Placed} (hp : ps[k]? = some p)
    (howners : ∀ id ∈ ownerIds g (idAmong ps) p, isRecord drafts id = true) :
    wire g (idAmong ps) (wiredAll g ps drafts k) (p, k) = .ok (wiredAll g ps drafts (k + 1)) := by
  have hkinds : isRecord (wiredAll g ps drafts k) = isRecord drafts := isRecord_mapIdx drafts
  unfold wire
  simp only [hkinds]
  by_cases hrecord : isRecord drafts k = true
  · rw [if_pos hrecord, ownersOf_eq howners]
    -- what is written to the list is, entity by entity, the turn
    refine congrArg Except.ok (List.ext_getElem? fun id => ?_)
    rw [getElem?_wiredAll_succ, List.getElem?_modify, getElem?_foldl_addParent,
      ← linksAt_eq hp hrecord, ← ownersAt_eq hp]
    cases (wiredAll g ps drafts k)[id]? with
    | none => rfl
    | some e => rfl
  · -- an enum has no links, so its turn changes nothing
    have hlinks : linksAt g ps drafts k = [] := by simp [linksAt, hrecord]
    rw [if_neg hrecord]
    refine congrArg Except.ok (List.ext_getElem? fun id => ?_)
    rw [getElem?_wiredAll_succ]
    cases he : (wiredAll g ps drafts k)[id]? with
    | none => rfl
    | some e =>
        refine congrArg some (turn_enum hlinks fun hk => ?_).symm
        subst hk
        rw [← hkinds, isRecord, he] at hrecord
        simpa using hrecord

/-- All turns, one after the other. -/
theorem foldlM_wire (hdrafts : ∀ e ∈ drafts, e.Unrelated)
    (howners : ∀ p ∈ ps, ∀ id ∈ ownerIds g (idAmong ps) p, isRecord drafts id = true) :
    ps.zipIdx.foldlM (wire g (idAmong ps)) drafts = .ok (wiredAll g ps drafts ps.length) := by
  have hstart : wiredAll g ps drafts 0 = drafts := by
    refine List.ext_getElem? fun id => ?_
    rw [wiredAll, List.getElem?_mapIdx]
    cases he : drafts[id]? with
    | none => rfl
    | some e => exact congrArg some (wired_zero (hdrafts e (List.mem_of_getElem? he)))
  have hrun := Answer.foldlM_zipIdx (wire g (idAmong ps)) (wiredAll g ps drafts) ps 0
    fun m p hp => by
      rw [Nat.zero_add]
      exact wire_wiredAll hp (howners p (List.mem_of_getElem? hp))
  rwa [hstart, Nat.zero_add] at hrun

end Drafts

/-! ## What turns leave alone -/

section Steady

variable {β : Type} {view : Entity → β}

/-- A view of entities that no relation changes. -/
structure Steady (view : Entity → β) : Prop where
  addParent : ∀ parent e, view (e.addParent parent) = view e
  setRelations : ∀ dependencies owners e, view (e.setRelations dependencies owners) = view e

theorem map_modify {f : Entity → Entity} (h : ∀ e, view (f e) = view e) (id : Nat)
    (entities : List Entity) : (entities.modify id f).map view = entities.map view := by
  refine List.ext_getElem? fun k => ?_
  rw [List.getElem?_map, List.getElem?_map, List.getElem?_modify]
  cases entities[k]? with
  | none => rfl
  | some e => by_cases hk : id = k <;> simp [hk, h]

theorem Steady.map_foldl (hview : Steady view) (parent : Nat) (links : List Nat) :
    ∀ entities : List Entity,
      (links.foldl (fun es link => es.modify link (Entity.addParent parent)) entities).map view =
        entities.map view := by
  induction links with
  | nil => exact fun _ => rfl
  | cons link rest ih =>
      exact fun entities => (ih _).trans (map_modify (hview.addParent parent) link entities)

variable {g : Graph} {idOf : String → Option Nat}

theorem Steady.map_wire (hview : Steady view) {entities entities' : List Entity}
    {place : Placed × Nat} (h : wire g idOf entities place = .ok entities') :
    entities'.map view = entities.map view := by
  obtain ⟨p, id⟩ := place
  unfold wire at h
  dsimp only at h
  split at h
  · obtain ⟨owners, _, h⟩ := Answer.of_bind_ok h
    rw [← Except.ok.inj h, map_modify (hview.setRelations _ _), hview.map_foldl]
  · rw [Except.ok.inj h]

theorem Steady.map_foldlM_wire (hview : Steady view) (places : List (Placed × Nat)) :
    ∀ {entities entities' : List Entity},
      places.foldlM (wire g idOf) entities = .ok entities' →
      entities'.map view = entities.map view := by
  induction places with
  | nil =>
      intro entities entities' h
      rw [← Except.ok.inj h]
  | cons place rest ih =>
      intro entities entities' h
      rw [List.foldlM_cons] at h
      obtain ⟨entities₁, hplace, h⟩ := Answer.of_bind_ok h
      rw [ih h, hview.map_wire hplace]

/-- What a view shows of a store it shows of the drafts. -/
theorem Steady.map_of_build (hview : Steady view) {c : Catalog} {scope : List (Nat × Naming)}
    {generator : String} {s : Store} (h : build generator g c scope = .ok s) :
    ∃ drafts, (placed g scope).mapM (draft c g (idAmong (placed g scope))) = .ok drafts ∧
      s.entities.map view = drafts.map view := by
  obtain ⟨drafts, hdrafts, h⟩ := Answer.of_bind_ok h
  obtain ⟨entities, hwire, h⟩ := Answer.of_bind_ok h
  refine ⟨drafts, hdrafts, ?_⟩
  rw [← Except.ok.inj h, hview.map_foldlM_wire _ hwire]

/-- A record without its relations. -/
def bare (r : RecordEntity) : RecordEntity :=
  { r with dependencies := [], parents := [], owners := [] }

theorem steady_bare : Steady fun e : Entity => e.record?.map bare where
  addParent := by
    intro parent e
    cases e with
    | enum e => rfl
    | record r =>
        dsimp only [Entity.addParent, Entity.record?]
        split <;> rfl
  setRelations := by
    intro dependencies owners e
    cases e <;> rfl

/-- A record of a store is the draft of a definition, up to its relations. -/
theorem exists_draft_of_build {c : Catalog} {scope : List (Nat × Naming)} {generator : String}
    {s : Store} (hs : build generator g c scope = .ok s) {id : Nat} {r : RecordEntity}
    (hr : s.record? id = some r) :
    ∃ p r₀, (placed g scope)[id]? = some p ∧
      draft c g (idAmong (placed g scope)) p = .ok (.record r₀) ∧ bare r₀ = bare r := by
  obtain ⟨drafts, hdrafts, hview⟩ := steady_bare.map_of_build hs
  have hid := congrArg (fun views => views[id]?) hview
  have hget : s.entities[id]? = some (.record r) := record?_eq_some.1 hr
  simp only [List.getElem?_map] at hid
  rw [hget, Option.map_some, eq_comm, Option.map_eq_some_iff] at hid
  obtain ⟨e, he, hbare⟩ := hid
  obtain ⟨p, hp, hdraft⟩ := Answer.getElem?_of_forall₂ (Answer.forall₂_of_mapM hdrafts).flip he
  cases e with
  | enum e => cases hbare
  | record r₀ => exact ⟨p, r₀, hp, hdraft, Option.some.inj hbare⟩

end Steady

end Store

end AvroCodegen
