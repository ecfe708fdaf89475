import AvroCodegen.Proofs.RunStages
import AvroCodegen.Proofs.StoreRelations

set_option autoImplicit false

/-! # What a run makes of its scope

A run passes over its scope three times: it decides on each node and names it, builds a store from
the names, and renders what was chosen, for which it looks up the entities by fullname. `Covers` is the
single pass that this comes to: node by node, either the file of its own entity with the first role
that is offered, or an entry among the skipped (`Generator.run_covers`). -/

namespace AvroCodegen

open Acting

/-! ## The first role -/

namespace Role

/-- One role comes before another. -/
def Before (r r' : Role) : Prop :=
  all.idxOf r < all.idxOf r'

theorem mem_all (r : Role) : r ∈ all := by
  cases r <;> decide

theorem nodup_all : all.Nodup := by
  decide

theorem choose_eq_some_iff {facts : RoleFacts} {offered : List Role} {r : Role} :
    choose facts offered = some r ↔ (r ∈ offered ∧ r.fits facts = true) ∧
      ∀ r', r'.Before r → ¬ (r' ∈ offered ∧ r'.fits facts = true) := by
  unfold choose
  rw [List.find?_eq_some_iff_getElem]
  simp only [Bool.and_eq_true, List.contains_iff_mem, Bool.not_eq_true']
  refine and_congr_right fun _ => ⟨fun ⟨i, hi, heq, hfirst⟩ r' hbefore hr' => ?_, fun hfirst => ?_⟩
  · have hidx : all.idxOf r = i := heq ▸ nodup_all.idxOf_getElem i hi
    have hno := hfirst (all.idxOf r') (by rw [← hidx]; exact hbefore)
    rw [List.getElem_idxOf, ← Bool.not_eq_true, Bool.and_eq_true, List.contains_iff_mem] at hno
    exact hno hr'
  · refine ⟨all.idxOf r, List.idxOf_lt_length_of_mem (mem_all r), List.getElem_idxOf _, fun j hj => ?_⟩
    have hlt := hj.trans (List.idxOf_lt_length_of_mem (mem_all r))
    rw [← Bool.not_eq_true, Bool.and_eq_true, List.contains_iff_mem]
    refine hfirst _ ?_
    unfold Before
    rwa [nodup_all.idxOf_getElem j hlt]

theorem choose_eq_none_iff {facts : RoleFacts} {offered : List Role} :
    choose facts offered = none ↔ ∀ r, ¬ (r ∈ offered ∧ r.fits facts = true) := by
  simp [choose, mem_all]

end Role

namespace Generator

variable {E σ : Type} [TemplateEngine E]

/-! ## Decisions -/

/-- The filters of a generator, if it has any, let a fullname pass. -/
def Admits (g : Generator) (fullname : String) : Prop :=
  ∀ f, g.config.filters = some f → f.admits fullname = true

/-- A generator has a template for a role that fits a node. -/
def Offers (g : Generator) (graph : Graph) (i : Nat) (t : NamedType) (role : Role) : Prop :=
  g.templates.has role.name = true ∧ role.fits (factsOf graph i t) = true

/-- A node is rendered with a role: it is admitted, and no role before is offered. -/
structure Chooses (g : Generator) (graph : Graph) (i : Nat) (t : NamedType) (role : Role) :
    Prop where
  admitted : g.Admits t.fullname
  offered : g.Offers graph i t role
  first : ∀ earlier : Role, earlier.Before role → ¬ g.Offers graph i t earlier

/-- A node is not rendered, for a reason. -/
def Skips (g : Generator) (graph : Graph) (i : Nat) (t : NamedType) : SkipReason → Prop
  | .filtered => ¬ g.Admits t.fullname
  | .noTemplate => g.Admits t.fullname ∧ ∀ role, ¬ g.Offers graph i t role

variable {g : Generator} {graph : Graph} {i : Nat} {t : NamedType}

theorem mem_roles {role : Role} : role ∈ g.roles ↔ g.templates.has role.name = true := by
  simp [roles, Role.mem_all]

/-- The two steps of a decision: the filters, then the first role offered. -/
theorem eligibility_eq (g : Generator) (graph : Graph) (i : Nat) (t : NamedType) :
    (¬ g.Admits t.fullname ∧ g.eligibility graph i t = .error .filtered) ∨
    (g.Admits t.fullname ∧ g.eligibility graph i t =
      match Role.choose (factsOf graph i t) g.roles with
      | some r => .ok r
      | none => .error .noTemplate) := by
  unfold eligibility Admits
  cases g.config.filters with
  | none => exact Or.inr ⟨by simp, rfl⟩
  | some f =>
      cases hadmits : f.admits t.fullname with
      | false => exact Or.inl ⟨by simp [hadmits], by simp [hadmits]⟩
      | true =>
          refine Or.inr ⟨by simp [hadmits], ?_⟩
          dsimp only
          rw [hadmits]
          rfl

theorem eligibility_eq_ok_iff {role : Role} :
    g.eligibility graph i t = .ok role ↔ g.Chooses graph i t role := by
  rcases eligibility_eq g graph i t with ⟨hnot, heq⟩ | ⟨hadmits, heq⟩
  · rw [heq]
    exact ⟨fun h => (nomatch h), fun h => absurd h.admitted hnot⟩
  · have hchoose := @Role.choose_eq_some_iff (factsOf graph i t) g.roles role
    simp only [mem_roles] at hchoose
    have hok : g.eligibility graph i t = .ok role ↔
        Role.choose (factsOf graph i t) g.roles = some role := by
      rw [heq]
      cases Role.choose (factsOf graph i t) g.roles <;> simp
    rw [hok, hchoose]
    exact ⟨fun ⟨hoffered, hfirst⟩ => ⟨hadmits, hoffered, hfirst⟩, fun h => ⟨h.offered, h.first⟩⟩

theorem eligibility_eq_error_iff {reason : SkipReason} :
    g.eligibility graph i t = .error reason ↔ g.Skips graph i t reason := by
  rcases eligibility_eq g graph i t with ⟨hnot, heq⟩ | ⟨hadmits, heq⟩
  · rw [heq]
    cases reason with
    | filtered => simp [Skips, hnot]
    | noTemplate => simp [Skips, hnot]
  · have hchoose := @Role.choose_eq_none_iff (factsOf graph i t) g.roles
    simp only [mem_roles] at hchoose
    have herror : g.eligibility graph i t = .error reason ↔
        Role.choose (factsOf graph i t) g.roles = none ∧ reason = .noTemplate := by
      rw [heq]
      cases Role.choose (factsOf graph i t) g.roles <;> simp [eq_comm]
    rw [herror, hchoose]
    cases reason with
    | filtered => simp [Skips, hadmits]
    | noTemplate => simp [Skips, Offers, hadmits]

/-- A node is rendered with some role just when it is admitted and some role is offered. -/
theorem exists_chooses_iff : (∃ role, g.Chooses graph i t role) ↔
    g.Admits t.fullname ∧ ∃ role, g.Offers graph i t role := by
  constructor
  · rintro ⟨role, h⟩
    exact ⟨h.admitted, role, h.offered⟩
  · rintro ⟨hadmits, role, hoffers⟩
    cases heq : g.eligibility graph i t with
    | ok role => exact ⟨role, eligibility_eq_ok_iff.1 heq⟩
    | error reason =>
        have hskips := eligibility_eq_error_iff.1 heq
        cases reason with
        | filtered => exact absurd hadmits hskips
        | noTemplate => exact absurd hoffers (hskips.2 role)

/-- A node that is skipped is not rendered. -/
theorem Skips.not_chooses {reason : SkipReason} (h : g.Skips graph i t reason) :
    ¬ ∃ role, g.Chooses graph i t role := by
  rintro ⟨role, hrole⟩
  have hok := eligibility_eq_ok_iff.2 hrole
  rw [eligibility_eq_error_iff.2 h] at hok
  cases hok

/-! ## The plan -/

/-- What is planned for a node. -/
structure PlannedFor (g : Generator) (graph : Graph) (n : Nat × NamedType) (p : Planned) : Prop where
  node : p.node = n.1
  type : p.type = n.2
  role : p.role = g.eligibility graph n.1 n.2

theorem forall₂_plan {ctx : RunContext E σ} {env : E} {registry : Registry}
    {planned : List Planned} (h : g.plan ctx env registry = .ok planned) :
    List.Forall₂ (g.PlannedFor ctx.graph) (nodesOf ctx.graph ctx.scope) planned := by
  refine (Answer.forall₂_of_mapM h).imp fun n p hp => ?_
  obtain ⟨naming, _, hp⟩ := Answer.of_bind_ok hp
  rw [← Except.ok.inj hp]
  exact ⟨rfl, rfl, rfl⟩

theorem mem_nodesOf {scope : List Nat} {n : Nat × NamedType} (h : n ∈ nodesOf graph scope) :
    n.1 ∈ scope ∧ graph.type? n.1 = some n.2 ∧ n.2.kind ≠ .fixed := by
  obtain ⟨i, hi, heq⟩ := List.mem_filterMap.1 h
  cases ht : graph.type? i with
  | none => simp [ht] at heq
  | some t =>
      by_cases hkind : t.kind = .fixed
      · simp [ht, hkind] at heq
      · simp only [ht, if_neg hkind, Option.some.injEq] at heq
        subst heq
        exact ⟨hi, ht, hkind⟩

theorem map_fst_nodesOf (graph : Graph) (scope : List Nat) :
    ((nodesOf graph scope).map Prod.fst).Sublist scope := by
  induction scope with
  | nil => exact .slnil
  | cons i rest ih =>
      unfold nodesOf at ih ⊢
      rw [List.filterMap_cons]
      split
      · exact ih.cons i
      · next n hn =>
          have hfst : n.1 = i := by
            split at hn
            · split at hn
              · cases hn
              · rw [← Option.some.inj hn]
            · cases hn
          rw [List.map_cons, hfst]
          exact ih.cons_cons i

/-- Distinct nodes have distinct fullnames. -/
theorem nodup_fullnames {scope : List Nat} (hscope : scope.Nodup) (hgraph : graph.names.Nodup) :
    ((nodesOf graph scope).map fun n => n.2.fullname).Nodup := by
  have hnodes := List.Nodup.of_map _ (hscope.sublist (map_fst_nodesOf graph scope))
  refine hnodes.map_on fun n hn n' hn' heq => ?_
  obtain ⟨_, ht, _⟩ := mem_nodesOf hn
  obtain ⟨_, ht', _⟩ := mem_nodesOf hn'
  have hfst : n.1 = n'.1 := by
    refine Graph.fullname_inj hgraph (Graph.lt_of_type? ht) (Graph.lt_of_type? ht') ?_
    rw [Graph.fullname_of_type? ht, Graph.fullname_of_type? ht', heq]
  refine Prod.ext hfst ?_
  rw [hfst, ht'] at ht
  exact (Option.some.inj ht).symm

end Generator

/-! ## The store of a plan -/

namespace Store

/-- What no relation changes: the definition of an entity and its names. -/
def title (e : Entity) : NamedType × Naming :=
  (e.schema, e.naming)

theorem steady_title : Steady title where
  addParent := by
    intro parent e
    cases e with
    | enum e => rfl
    | record r =>
        dsimp only [Entity.addParent]
        split <;> rfl
  setRelations := by
    intro dependencies owners e
    cases e <;> rfl

variable {c : Catalog} {g : Graph} {scope : List (Nat × Naming)} {generator : String} {s : Store}

/-- A store has one entity for each placed node, with its type and its names. -/
theorem map_title_of_build (h : build generator g c scope = .ok s) :
    s.entities.map title = (placed g scope).map fun p => (p.type, p.naming) := by
  obtain ⟨drafts, hdrafts, h⟩ := steady_title.map_of_build h
  rw [h]
  refine List.ext_getElem? fun k => ?_
  have hdrafted := draftsOf_mapM hdrafts
  rw [List.getElem?_map, List.getElem?_map]
  cases hp : (placed g scope)[k]? with
  | some p =>
      obtain ⟨e, he, hdraft⟩ := Answer.getElem?_of_forall₂ hdrafted hp
      rw [he]
      exact congrArg some (Prod.ext hdraft.schema hdraft.naming)
  | none =>
      have hlen : drafts.length ≤ k := hdrafted.length_eq ▸ List.getElem?_eq_none_iff.1 hp
      rw [List.getElem?_eq_none hlen]
      rfl

/-- For the fullname of an entity some entity is found. -/
theorem exists_find? {id : Nat} {e : Entity} (he : s.get? id = some e) :
    ∃ id' e', s.find? e.schema.fullname = some id' ∧ s.get? id' = some e' ∧
      e'.schema.fullname = e.schema.fullname := by
  have hsome : (s.find? e.schema.fullname).isSome := by
    rw [find?, List.find?_isSome]
    refine ⟨id, ?_, by simp [he]⟩
    simpa [ids, size] using (List.getElem?_eq_some_iff.1 he).1
  obtain ⟨id', hid'⟩ := Option.isSome_iff_exists.1 hsome
  have hsame : (s.get? id').map (fun e => e.schema.fullname) = some e.schema.fullname := by
    simpa using List.find?_some hid'
  obtain ⟨e', he', hname⟩ := Option.map_eq_some_iff.1 hsame
  exact ⟨id', e', hid', he', hname⟩

/-- Where definitions differ, an entity is found by its own. -/
theorem find?_of_nodup (hnodup : (s.entities.map fun e => e.schema.fullname).Nodup) {id : Nat}
    {e : Entity} (he : s.get? id = some e) : s.find? e.schema.fullname = some id := by
  -- the first entity of the fullname is this one, for there is no other
  obtain ⟨id', e', hid', he', hname⟩ := exists_find? he
  have hlt : id' < (s.entities.map fun e => e.schema.fullname).length := by
    simpa using (List.getElem?_eq_some_iff.1 he').1
  have heq : id' = id := by
    refine (List.getElem?_inj hlt hnodup).1 ?_
    rw [get?] at he he'
    rw [List.getElem?_map, List.getElem?_map, he, he', Option.map_some, Option.map_some, hname]
  rw [hid', heq]

end Store

namespace Generator

variable {E σ : Type} [TemplateEngine E] {g : Generator} {ctx : RunContext E σ} {env : E}
  {store : Store}

theorem placed_planned {graph : Graph} {nodes : List (Nat × NamedType)} {planned : List Planned}
    (h : List.Forall₂ (g.PlannedFor graph) nodes planned)
    (hnodes : ∀ n ∈ nodes, graph.type? n.1 = some n.2 ∧ n.2.kind ≠ .fixed) :
    (Store.placed graph (planned.map fun p => (p.node, p.naming))).map
      (fun p => (p.type, p.naming)) = planned.map fun p => (p.type, p.naming) := by
  induction h with
  | nil => rfl
  | @cons n p nodes planned hp _ ih =>
      obtain ⟨ht, hkind⟩ := hnodes n (by simp)
      have ih := ih fun m hm => hnodes m (by simp [hm])
      unfold Store.placed at ih ⊢
      rw [← hp.node] at ht
      rw [List.map_cons, List.filterMap_cons]
      simp only [ht, if_neg hkind, List.map_cons, ih, hp.type]

theorem map_type_planned {graph : Graph} {nodes : List (Nat × NamedType)}
    {planned : List Planned} (h : List.Forall₂ (g.PlannedFor graph) nodes planned) :
    planned.map Planned.type = nodes.map Prod.snd := by
  induction h with
  | nil => rfl
  | cons hp _ ih => rw [List.map_cons, List.map_cons, ih, hp.type]

/-- The store of a prepared run has the definitions and names that were planned. -/
theorem titles_of_prepare {registry : Registry} {p : Prepared E}
    (h : g.prepare ctx registry = .ok p) :
    p.store.entities.map Store.title = p.planned.map fun q => (q.type, q.naming) := by
  obtain ⟨_, _, hplan, hbuild⟩ := prepare_eq_ok_iff.1 h
  exact (Store.map_title_of_build hbuild).trans
    (placed_planned (forall₂_plan hplan) fun n hn => (mem_nodesOf hn).2)

/-- The store of a prepared run has an entity for each node, chosen or not. -/
theorem schemas_of_prepare {registry : Registry} {p : Prepared E}
    (h : g.prepare ctx registry = .ok p) :
    List.Forall₂ (g.PlannedFor ctx.graph) (nodesOf ctx.graph ctx.scope) p.planned ∧
      p.store.entities.map Entity.schema = (nodesOf ctx.graph ctx.scope).map Prod.snd := by
  obtain ⟨_, _, hplan, _⟩ := prepare_eq_ok_iff.1 h
  have hplanned := forall₂_plan hplan
  have hschemas := congrArg (List.map Prod.fst) (titles_of_prepare h)
  rw [List.map_map, List.map_map] at hschemas
  exact ⟨hplanned, hschemas.trans (map_type_planned hplanned)⟩

/-- An entity is found by the fullname of its node. -/
theorem exists_entity {nodes : List (Nat × NamedType)}
    (hschemas : store.entities.map Entity.schema = nodes.map Prod.snd)
    (hnodup : (nodes.map fun n => n.2.fullname).Nodup) {n : Nat × NamedType} (hn : n ∈ nodes) :
    ∃ id e, store.find? n.2.fullname = some id ∧ store.get? id = some e ∧ e.schema = n.2 := by
  obtain ⟨id, hid⟩ := List.mem_iff_getElem?.1 hn
  have hschema : (store.entities.map Entity.schema)[id]? = (nodes.map Prod.snd)[id]? := by
    rw [hschemas]
  rw [List.getElem?_map, List.getElem?_map, hid, Option.map_some, Option.map_eq_some_iff] at hschema
  obtain ⟨e, he, heq⟩ := hschema
  have hnames : (store.entities.map fun e => e.schema.fullname).Nodup := by
    have hmap := congrArg (List.map NamedType.fullname) hschemas
    rw [List.map_map, List.map_map] at hmap
    exact hmap ▸ hnodup
  exact ⟨id, e, heq ▸ Store.find?_of_nodup hnames he, he, heq⟩

/-! ## Coverage -/

/-- Going over nodes in order, from one output to another, each node is rendered into a file or
    skipped: the file comes of its own entity and the template of the role chosen. -/
inductive Covers (g : Generator) (ctx : RunContext E σ) (env : E) (store : Store) :
    List (Nat × NamedType) → List Path → List (String × SkipReason) → σ → σ → Prop
  | none (o : σ) : Covers g ctx env store [] [] [] o o
  | rendered {i id : Nat} {t : NamedType} {role : Role} {e : Entity} {path : Path}
      {content : String} {nodes : List (Nat × NamedType)} {files : List Path}
      {skipped : List (String × SkipReason)} {o o₁ o₂ : σ} :
      g.Chooses ctx.graph i t role →
      store.find? t.fullname = some id → store.get? id = some e → e.schema = t →
      g.pathOf ctx env store id e = .ok path →
      TemplateEngine.render env role.name (g.contentContext ctx store id e) = .ok content →
      outcome (ctx.sink.write path content) o = (.ok (), o₁) →
      Covers g ctx env store nodes files skipped o₁ o₂ →
      Covers g ctx env store ((i, t) :: nodes) (path :: files) skipped o o₂
  | skipped {i : Nat} {t : NamedType} {reason : SkipReason} {nodes : List (Nat × NamedType)}
      {files : List Path} {skipped : List (String × SkipReason)} {o o' : σ} :
      g.Skips ctx.graph i t reason →
      Covers g ctx env store nodes files skipped o o' →
      Covers g ctx env store ((i, t) :: nodes) files ((t.fullname, reason) :: skipped) o o'

theorem Covers.length {nodes : List (Nat × NamedType)} {files : List Path}
    {skipped : List (String × SkipReason)} {o o' : σ}
    (h : Covers g ctx env store nodes files skipped o o') :
    files.length + skipped.length = nodes.length := by
  induction h with
  | none => rfl
  | rendered _ _ _ _ _ _ _ _ ih => simp only [List.length_cons, ← ih]; omega
  | skipped _ _ ih => simp only [List.length_cons, ← ih]; omega

/-- The skipped are some of the nodes, in order. -/
theorem Covers.skipped_sublist {nodes : List (Nat × NamedType)} {files : List Path}
    {skipped : List (String × SkipReason)} {o o' : σ}
    (h : Covers g ctx env store nodes files skipped o o') :
    (skipped.map Prod.fst).Sublist (nodes.map fun n => n.2.fullname) := by
  induction h with
  | none => exact .slnil
  | rendered _ _ _ _ _ _ _ _ ih => exact ih.cons _
  | skipped _ _ ih => exact ih.cons_cons _

/-- A node is among the skipped just when it is not rendered. -/
theorem Covers.mem_skipped_iff {nodes : List (Nat × NamedType)} {files : List Path}
    {skipped : List (String × SkipReason)} {o o' : σ}
    (h : Covers g ctx env store nodes files skipped o o')
    (hnodup : (nodes.map fun n => n.2.fullname).Nodup) {n : Nat × NamedType} (hn : n ∈ nodes) :
    n.2.fullname ∈ skipped.map Prod.fst ↔ ¬ ∃ role, g.Chooses ctx.graph n.1 n.2 role := by
  induction h with
  | none => cases hn
  | @rendered i id t role e path content nodes files skipped o o₁ o₂ hchooses _ _ _ _ _ _ hrest ih =>
      rw [List.map_cons, List.nodup_cons] at hnodup
      rcases List.mem_cons.1 hn with rfl | hn
      · refine ⟨fun hmem => absurd (hrest.skipped_sublist.subset hmem) hnodup.1, fun hnot => ?_⟩
        exact absurd ⟨role, hchooses⟩ hnot
      · exact ih hnodup.2 hn
  | @skipped i t reason nodes files skipped o o' hskips hrest ih =>
      rw [List.map_cons, List.nodup_cons] at hnodup
      rcases List.mem_cons.1 hn with rfl | hn
      · exact ⟨fun _ => hskips.not_chooses, fun _ => by simp⟩
      · have hne : n.2.fullname ≠ t.fullname := fun heq =>
          hnodup.1 (heq ▸ List.mem_map_of_mem (f := fun n : Nat × NamedType => n.2.fullname) hn)
        rw [List.map_cons, List.mem_cons, ih hnodup.2 hn]
        exact or_iff_right hne

/-- What is planned and written covers the nodes. -/
theorem covers_of_writes {nodes : List (Nat × NamedType)} {planned : List Planned}
    (hplanned : List.Forall₂ (g.PlannedFor ctx.graph) nodes planned)
    (hentities : ∀ n ∈ nodes, ∃ id e, store.find? n.2.fullname = some id ∧
      store.get? id = some e ∧ e.schema = n.2) :
    ∀ {files : List Path} {o o' : σ},
      Writes g ctx env store (chosenIn planned) files o o' →
      Covers g ctx env store nodes files (skippedIn planned) o o' := by
  induction hplanned with
  | nil =>
      intro files o o' hwrites
      cases hwrites
      exact .none o
  | @cons n p nodes planned hp hrest ih =>
      intro files o o' hwrites
      obtain ⟨i, t⟩ := n
      have hrest := fun m hm => hentities m (List.mem_cons_of_mem _ hm)
      have hrole := hp.role
      rcases heligible : g.eligibility ctx.graph i t with reason | role
      · rw [heligible] at hrole
        have hchosen : chosenIn (p :: planned) = chosenIn planned := by simp [chosenIn, hrole]
        have hskipped : skippedIn (p :: planned) = (t.fullname, reason) :: skippedIn planned := by
          simp [skippedIn, hrole, hp.type]
        rw [hskipped]
        rw [hchosen] at hwrites
        exact .skipped (eligibility_eq_error_iff.1 heligible) (ih hrest hwrites)
      · rw [heligible] at hrole
        have hchosen : chosenIn (p :: planned) = (t, role) :: chosenIn planned := by
          simp [chosenIn, hrole, hp.type]
        have hskipped : skippedIn (p :: planned) = skippedIn planned := by simp [skippedIn, hrole]
        rw [hskipped]
        rw [hchosen] at hwrites
        cases hwrites with
        | file hfile hwrite hwrites =>
            obtain ⟨id, e, hfind, hget, hschema⟩ := hentities (i, t) (by simp)
            simp only [fileOf, hfind, hget] at hfile
            obtain ⟨path, hpath, hfile⟩ := Answer.of_bind_ok hfile
            obtain ⟨content, hcontent, hfile⟩ := Answer.of_bind_ok hfile
            obtain ⟨rfl, rfl⟩ := Prod.mk.inj (Except.ok.inj hfile)
            exact .rendered (eligibility_eq_ok_iff.1 heligible) hfind hget hschema hpath hcontent hwrite
              (ih hrest hwrites)

/-- What a run that succeeds has done with the nodes of its scope. -/
structure Coverage (g : Generator) (ctx : RunContext E σ) (w w' : Workshop σ) (report : RunReport)
    (env : E) (store : Store) (o : σ) : Prop where
  environment : g.environment w.registry = .ok env
  /-- Each node in order is rendered or skipped. -/
  covers : Covers g ctx env store (nodesOf ctx.graph ctx.scope) report.files report.skipped w.output o
  /-- What was written is left, or what the command of the run has made of it. -/
  output : w'.output = o ∨ g.config.postCall.isSome ∧ ctx.skipPostCalls = false ∧
    ∃ command, g.commandOf ctx env report.files = .ok command ∧
      w'.output = (outcome (ctx.runner.run command ctx.base) o).2
  /-- The skipped are the nodes that are not admitted or for which no role is offered, each once. -/
  skipped : (report.skipped.map Prod.fst).Nodup ∧ ∀ n ∈ nodesOf ctx.graph ctx.scope,
    (n.2.fullname ∈ report.skipped.map Prod.fst ↔
      ¬ (g.Admits n.2.fullname ∧ ∃ role, g.Offers ctx.graph n.1 n.2 role))
  entities : report.entities = report.files.length + report.skipped.length
  published : w'.registry.stores = w.registry.stores ++ [(g.name, store)]
  /-- Every node has an entity, found by its fullname. -/
  schemas : store.entities.map Entity.schema = (nodesOf ctx.graph ctx.scope).map Prod.snd
  found : ∀ n ∈ nodesOf ctx.graph ctx.scope, ∃ id e, store.find? n.2.fullname = some id ∧
    store.get? id = some e ∧ e.schema = n.2

/-- **What a run covers.** A run that succeeds has rendered each record and enum of its scope with the
    first role offered, or listed it as skipped, but not both; and it publishes an entity for every
    one of them. The nodes are distinct, and so are their fullnames, as in every graph that is
    `Built`. -/
theorem run_covers {g : Generator} {ctx : RunContext E σ} (hscope : ctx.scope.Nodup)
    (hgraph : ctx.graph.names.Nodup) {w w' : Workshop σ} {report : RunReport}
    (h : outcome (g.run ctx) w = (.ok report, w')) :
    ∃ env store o, g.Coverage ctx w w' report env store o := by
  obtain ⟨p, files, o, command, hprepare, hwrites, _, hcalls, rfl⟩ := stages_of_run h
  obtain ⟨hplanned, hschemas⟩ := schemas_of_prepare hprepare
  have hnodup := nodup_fullnames hscope hgraph
  have hfound := fun n hn => exists_entity hschemas hnodup (n := n) hn
  have hcovers := covers_of_writes hplanned hfound hwrites
  obtain ⟨hregistry, hleaves⟩ := hcalls.leaves
  have hsize : p.store.size = (nodesOf ctx.graph ctx.scope).length := by
    simpa [Store.size] using congrArg List.length hschemas
  refine ⟨p.env, p.store, o, (prepare_eq_ok_iff.1 hprepare).2.1, hcovers, ?_,
    ⟨hnodup.sublist hcovers.skipped_sublist, fun n hn => ?_⟩, hsize.trans hcovers.length.symm,
    congrArg Registry.stores hregistry, hschemas, hfound⟩
  · rcases hleaves with rfl | ⟨hpost, hskip, command, hcommand, rfl⟩
    · exact Or.inl rfl
    · exact Or.inr ⟨hpost, hskip, command, hcommand, rfl⟩
  · rw [← exists_chooses_iff]
    exact hcovers.mem_skipped_iff hnodup hn

/-! ## A run over the tree

One of the enums is denied and for the other there is no template; the record is rendered as what
others hold, before it could be as a record. -/

/-- A generator with templates for two roles. -/
def treeGenerator : Generator :=
  ⟨⟨"java", none, .none, none, some ⟨none, some ["x.Left"]⟩, none⟩,
    .ofSources "here" [("dependent", "held"), ("record", "plain")]⟩

/-- A run over all nodes, into memory. -/
def treeContext : RunContext :=
  ⟨Reader.treeCatalog, Store.treeGraph, [2, 0, 1], [], "/out", CommandRunner.basic, .memory, false⟩

def emptyWorkshop : Workshop :=
  ⟨.empty, .start .empty⟩

theorem run_covers_tree : treeContext.scope.Nodup ∧ treeContext.graph.names.Nodup ∧
    ∃ report w' env store o, outcome (treeGenerator.run treeContext) emptyWorkshop = (.ok report, w') ∧
      report.files = ["/out/x/Tree"] ∧
      report.skipped = [("x.Left", .filtered), ("x.Colour", .noTemplate)] ∧
      treeGenerator.Coverage treeContext emptyWorkshop w' report env store o := by
  have hscope : treeContext.scope.Nodup := by decide
  have hgraph : treeContext.graph.names.Nodup := by decide +kernel
  have hreport : (outcome (treeGenerator.run treeContext) emptyWorkshop).1.toOption.map
      (fun report => (report.files, report.skipped)) =
        some (["/out/x/Tree"], [("x.Left", .filtered), ("x.Colour", .noTemplate)]) := by
    decide +kernel
  rcases hrun : outcome (treeGenerator.run treeContext) emptyWorkshop with ⟨fault | report, w'⟩
  · rw [hrun] at hreport
    cases hreport
  · rw [hrun] at hreport
    obtain ⟨hfiles, hskipped⟩ := Prod.mk.inj (Option.some.inj hreport)
    obtain ⟨env, store, o, hcoverage⟩ := run_covers hscope hgraph hrun
    exact ⟨hscope, hgraph, report, w', env, store, o, rfl, hfiles, hskipped, hcoverage⟩

end Generator

end AvroCodegen
