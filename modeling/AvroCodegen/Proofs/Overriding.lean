import AvroCodegen.Proofs.RunEffects

set_option autoImplicit false

/-! # Names that are taken over

A generator names the nodes that it renders by its own templates. The others it names too, and if it
overrides another generator, it names them as that one does. It looks them up by fullname in the store
that the other has published, where every node has an entity, whatever that one has rendered. So along
runs that override each other the names of a node stay those of the first until one of them renders it
(`Workshop.names_along`). -/

namespace AvroCodegen

open Acting

/-! ## The names in a store -/

namespace Store

/-- The namespace and name of the entity that is found for a fullname. -/
def names? (s : Store) (fullname : String) : Option (String × String) := do
  let e ← s.get? (← s.find? fullname)
  return (e.naming.space, e.naming.name)

theorem names?_eq_some {s : Store} {fullname : String} {id : Nat} {e : Entity}
    (hfind : s.find? fullname = some id) (hget : s.get? id = some e) :
    s.names? fullname = some (e.naming.space, e.naming.name) := by
  simp [names?, hfind, hget]

end Store

namespace Generator

variable {E σ : Type} {g : Generator} {ctx : RunContext E σ} {env : E} {registry : Registry}
  {p : Prepared E} {n : Nat × NamedType}

/-- What the templates for the names of a node are rendered over. -/
def namingContext (ctx : RunContext E σ) (t : NamedType) : Keyed Value :=
  extend ctx.values [("schema", .view (.schema t))]

/-- Whether a node is rendered. -/
def Renders (g : Generator) (graph : Graph) (n : Nat × NamedType) : Prop :=
  ∃ role, g.Chooses graph n.1 n.2 role

theorem isSome_eligibility_iff {graph : Graph} :
    (g.eligibility graph n.1 n.2).toOption.isSome = true ↔ g.Renders graph n := by
  unfold Renders
  simp only [← eligibility_eq_ok_iff]
  cases g.eligibility graph n.1 n.2 with
  | error reason => simp [Except.toOption]
  | ok role => simp [Except.toOption]

/-! ## The names that a run decides on -/

variable [TemplateEngine E]

theorem forall₂_namings {planned : List Planned} (h : g.plan ctx env registry = .ok planned) :
    List.Forall₂ (fun n (q : Planned) => g.namesOf env registry (namingContext ctx n.2) n.2
      (g.eligibility ctx.graph n.1 n.2).toOption.isSome = .ok (q.naming.space, q.naming.name))
      (nodesOf ctx.graph ctx.scope) planned := by
  refine (Answer.forall₂_of_mapM h).imp fun n q hq => ?_
  obtain ⟨naming, hnaming, hq⟩ := Answer.of_bind_ok hq
  obtain ⟨names, hnames, hnaming⟩ := Answer.of_bind_ok hnaming
  obtain ⟨fullname, _, hnaming⟩ := Answer.of_bind_ok hnaming
  rw [← Except.ok.inj hq, ← Except.ok.inj hnaming]
  exact hnames

/-- In the store that is built, a node has the names decided on. -/
theorem exists_names (hscope : ctx.scope.Nodup) (hgraph : ctx.graph.names.Nodup)
    (h : g.prepare ctx registry = .ok p) (hn : n ∈ nodesOf ctx.graph ctx.scope) :
    ∃ names, p.store.names? n.2.fullname = some names ∧
      g.namesOf p.env registry (namingContext ctx n.2) n.2
        (g.eligibility ctx.graph n.1 n.2).toOption.isSome = .ok names := by
  obtain ⟨_, _, hplan, _⟩ := prepare_eq_ok_iff.1 h
  obtain ⟨hplanned, hschemas⟩ := schemas_of_prepare h
  obtain ⟨i, hi⟩ := List.mem_iff_getElem?.1 hn
  obtain ⟨q, hq, hnames⟩ := Answer.getElem?_of_forall₂ (forall₂_namings hplan) hi
  have htitle : (p.store.entities.map Store.title)[i]? =
      (p.planned.map fun q => (q.type, q.naming))[i]? := by
    rw [titles_of_prepare h]
  rw [List.getElem?_map, List.getElem?_map, hq, Option.map_some, Option.map_eq_some_iff] at htitle
  obtain ⟨e, he, htitle⟩ := htitle
  obtain ⟨htype, hnaming⟩ := Prod.mk.inj htitle
  obtain ⟨q', hq', hfor⟩ := Answer.getElem?_of_forall₂ hplanned hi
  rw [hq] at hq'
  obtain rfl := Option.some.inj hq'
  have hschema : e.schema = n.2 := htype.trans hfor.type
  have hnodup : (p.store.entities.map fun e => e.schema.fullname).Nodup := by
    have hmap := congrArg (List.map NamedType.fullname) hschemas
    rw [List.map_map, List.map_map] at hmap
    exact hmap ▸ nodup_fullnames hscope hgraph
  refine ⟨_, Store.names?_eq_some (hschema ▸ Store.find?_of_nodup hnodup he) he, ?_⟩
  rw [hnaming]
  exact hnames

/-- A node that is rendered is named by the generator itself. -/
theorem namesOf_rendered (context : Keyed Value) (t : NamedType) :
    g.namesOf env registry context t true = g.ownNames env context t := by
  unfold namesOf
  cases g.config.overrides <;> rfl

/-- A node that is not rendered has the names that the store of the overridden generator has. -/
theorem namesOf_eq_ok_iff {target : String} (htarget : g.config.overrides = some target)
    {context : Keyed Value} {t : NamedType} {names : String × String} :
    g.namesOf env registry context t false = .ok names ↔
      ∃ s, registry.store target = .ok s ∧ s.names? t.fullname = some names := by
  unfold namesOf
  rw [htarget]
  dsimp only
  rw [if_neg Bool.false_ne_true]
  constructor
  · intro h
    obtain ⟨found, hlookup, h⟩ := Answer.of_bind_ok h
    obtain ⟨hstore, hfind⟩ := Registry.lookup_eq_ok_iff.1 hlookup
    refine ⟨found.1, Registry.store_eq_ok_iff.2 hstore, ?_⟩
    cases hget : found.1.get? found.2 with
    | none =>
        simp only [hget] at h
        cases h
    | some e =>
        simp only [hget] at h
        rw [← Except.ok.inj h]
        exact Store.names?_eq_some hfind hget
  · rintro ⟨s, hstore, hnames⟩
    obtain ⟨id, hfind, hnames⟩ := Option.bind_eq_some_iff.1 hnames
    obtain ⟨e, hget, hnames⟩ := Option.bind_eq_some_iff.1 hnames
    have hlookup : registry.lookup target t.fullname = .ok (s, id) :=
      Registry.lookup_eq_ok_iff.2 ⟨Registry.store_eq_ok_iff.1 hstore, hfind⟩
    rw [Answer.bind_of_ok hlookup]
    simp only [hget]
    exact congrArg Except.ok (Option.some.inj hnames)

/-! ## What a run publishes -/

/-- A run that succeeds has published the store that it has prepared, under a name that was free. -/
theorem exists_published {w w' : Workshop σ} {report : RunReport}
    (h : outcome (g.run ctx) w = (.ok report, w')) :
    ∃ p, g.prepare ctx w.registry = .ok p ∧ w.registry.has g.name = false ∧
      w'.registry.stores = w.registry.stores ++ [(g.name, p.store)] := by
  obtain ⟨p, files, o, command, hprepare, _, hfree, hcalls, _⟩ := stages_of_run h
  exact ⟨p, hprepare, hfree, congrArg Registry.stores hcalls.leaves.1⟩

end Generator

/-! ## Runs that override each other -/

/-- A run with the workshop that it begins in. -/
structure Turn (E : Type := Environment) (σ : Type := Output) where
  run : Run E σ
  workshop : Workshop σ

namespace Turn

variable {E σ : Type} [TemplateEngine E]

/-- The workshop that a turn leaves. -/
def after (t : Turn E σ) : Workshop σ :=
  t.run.after t.workshop

/-- The run of a turn succeeds. -/
def Succeeds (t : Turn E σ) : Prop :=
  ∃ report, t.run.answer t.workshop = .ok report

/-- The generator of another turn overrides that of this one. -/
def OverriddenBy (t t' : Turn E σ) : Prop :=
  t'.run.generator.config.overrides = some t.run.name

/-- The generator of a turn renders a node. -/
def Renders (t : Turn E σ) (n : Nat × NamedType) : Prop :=
  t.run.generator.Renders t.run.context.graph n

theorem succeeds_of_isSome {t : Turn E σ} (h : (t.run.answer t.workshop).toOption.isSome = true) :
    t.Succeeds := by
  obtain ⟨report, hreport⟩ := Option.isSome_iff_exists.1 h
  exact ⟨report, Answer.eq_ok_of_toOption hreport⟩

/-- A turn that succeeds has published the store that it has prepared. -/
theorem exists_published {t : Turn E σ} (h : t.Succeeds) : ∃ p, t.run.prepare t.workshop = .ok p ∧
    t.after.registry.store t.run.name = .ok p.store := by
  obtain ⟨report, hanswer⟩ := h
  have houtcome : outcome (t.run.generator.run t.run.context) t.workshop = (.ok report, t.after) :=
    Prod.ext hanswer rfl
  obtain ⟨p, hprepare, hfree, hstores⟩ := Generator.exists_published houtcome
  refine ⟨p, hprepare, Registry.store_eq_ok_iff.2 ?_⟩
  have hnot : t.run.name ∉ Keyed.keys t.workshop.registry.stores := fun hmem =>
    Bool.false_ne_true (hfree.symm.trans (Keyed.has_iff_mem_keys.2 hmem))
  rw [hstores, show t.run.generator.name = t.run.name from rfl, ← Keyed.put_of_not_mem hnot,
    Keyed.get?_put, if_pos rfl]

end Turn

namespace Workshop

variable {E σ : Type} [TemplateEngine E]

/-- The turns of a sequence of runs. -/
def turns (w : Workshop σ) : List (Run E σ) → List (Turn E σ)
  | [] => []
  | r :: rest => ⟨r, w⟩ :: (r.after w).turns rest

/-- Of a sequence of runs, turns that succeed over the same nodes and of which each but the first
    overrides the one before it. There may be others between them. -/
structure Lineage (w : Workshop σ) (runs : List (Run E σ)) (graph : Graph) (scope : List Nat)
    (turns : List (Turn E σ)) : Prop where
  among : turns.Sublist (w.turns runs)
  succeeds : ∀ t ∈ turns, t.Succeeds
  context : ∀ t ∈ turns, t.run.context.graph = graph ∧ t.run.context.scope = scope
  overrides : turns.IsChain Turn.OverriddenBy

variable {w : Workshop σ} {runs : List (Run E σ)} {graph : Graph} {scope : List Nat}

/-- The turns after one of them begin in what it leaves. -/
theorem sublist_turns {t : Turn E σ} {rest : List (Turn E σ)} : ∀ {w : Workshop σ},
    (t :: rest).Sublist (w.turns runs) → ∃ before later : List (Run E σ),
      t.workshop = w.after before ∧
      w.after runs = t.after.after later ∧ rest.Sublist (t.after.turns later) := by
  induction runs with
  | nil =>
      intro w h
      cases h
  | cons r runs ih =>
      intro w h
      rcases List.sublist_cons_iff.1 h with h | ⟨rest', heq, h⟩
      · obtain ⟨before, later, hbegin, hafter, hrest⟩ := ih h
        exact ⟨r :: before, later, hbegin, hafter, hrest⟩
      · obtain ⟨rfl, rfl⟩ := List.cons.inj heq
        exact ⟨[], runs, rfl, rfl, h⟩

theorem Lineage.tail {t : Turn E σ} {rest : List (Turn E σ)}
    (h : Lineage w runs graph scope (t :: rest)) :
    ∃ before later : List (Run E σ), t.workshop = w.after before ∧
      w.after runs = t.after.after later ∧
      Lineage t.after later graph scope rest := by
  obtain ⟨before, later, hbegin, hafter, hrest⟩ := sublist_turns h.among
  exact ⟨before, later, hbegin, hafter, hrest, fun u hu => h.succeeds u (List.mem_cons_of_mem _ hu),
    fun u hu => h.context u (List.mem_cons_of_mem _ hu), h.overrides.of_cons⟩

/-- What is published stays, whatever runs come after it. -/
theorem store_after {name : String} {s : Store} (runs : List (Run E σ))
    (h : w.registry.store name = .ok s) : (w.after runs).registry.store name = .ok s := by
  obtain ⟨stores, hgains⟩ := exists_gains runs w
  exact hgains.store_eq_ok h

/-- Each turn has a store in the end, with the names that its generator has decided on. -/
theorem Lineage.exists_store {t : Turn E σ} {turns : List (Turn E σ)} (hscope : scope.Nodup)
    (hgraph : graph.names.Nodup) (h : Lineage w runs graph scope turns) (ht : t ∈ turns) :
    ∃ p, t.run.prepare t.workshop = .ok p ∧
      (w.after runs).registry.store t.run.name = .ok p.store ∧
      ∀ n ∈ Generator.nodesOf graph scope, ∃ names, p.store.names? n.2.fullname = some names ∧
        t.run.generator.namesOf p.env t.workshop.registry
          (Generator.namingContext t.run.context n.2) n.2
          (t.run.generator.eligibility graph n.1 n.2).toOption.isSome = .ok names := by
  obtain ⟨_, later, _, hafter, _⟩ :=
    sublist_turns ((List.singleton_sublist.2 ht).trans h.among)
  obtain ⟨p, hprepare, hstore⟩ := Turn.exists_published (h.succeeds t ht)
  obtain ⟨rfl, rfl⟩ := h.context t ht
  exact ⟨p, hprepare, hafter ▸ store_after later hstore,
    fun n hn => Generator.exists_names hscope hgraph hprepare hn⟩

/-- A node that is not rendered keeps its names from one turn to the next. -/
theorem Lineage.step {t u : Turn E σ} {rest : List (Turn E σ)} (hscope : scope.Nodup)
    (hgraph : graph.names.Nodup) (h : Lineage w runs graph scope (t :: u :: rest)) :
    ∃ s s', (w.after runs).registry.store t.run.name = .ok s ∧
      (w.after runs).registry.store u.run.name = .ok s' ∧
      ∀ n ∈ Generator.nodesOf graph scope, ¬ u.Renders n →
        ∃ names, s.names? n.2.fullname = some names ∧ s'.names? n.2.fullname = some names := by
  obtain ⟨_, later, _, hafter, htail⟩ := h.tail
  obtain ⟨between, _, hbegin, _, _⟩ := htail.tail
  obtain ⟨p, _, hstore⟩ := Turn.exists_published (h.succeeds t List.mem_cons_self)
  obtain ⟨q, _, hstore', hnames⟩ := htail.exists_store hscope hgraph List.mem_cons_self
  refine ⟨p.store, q.store, hafter ▸ store_after later hstore, hafter ▸ hstore', ?_⟩
  intro n hn hnot
  obtain ⟨names, hown, hdecided⟩ := hnames n hn
  have hskipped : (u.run.generator.eligibility graph n.1 n.2).toOption.isSome = false := by
    rw [← Bool.not_eq_true, Generator.isSome_eligibility_iff]
    rwa [Turn.Renders, (h.context u (by simp)).1] at hnot
  have htarget := (List.isChain_cons_cons.1 h.overrides).1
  -- what the turn looks up is the store of the one that it overrides, for it begins after that
  rw [hskipped, Generator.namesOf_eq_ok_iff htarget, hbegin] at hdecided
  obtain ⟨s, hs, hsame⟩ := hdecided
  rw [store_after between hstore] at hs
  obtain rfl := Except.ok.inj hs
  exact ⟨names, hsame, hown⟩

/-- A node that no turn renders keeps its names all along. -/
theorem Lineage.names_eq (hscope : scope.Nodup) (hgraph : graph.names.Nodup) {top : Turn E σ}
    (between : List (Turn E σ)) : ∀ {w : Workshop σ} {runs : List (Run E σ)} {base : Turn E σ},
      Lineage w runs graph scope (base :: (between ++ [top])) →
      ∃ s s', (w.after runs).registry.store base.run.name = .ok s ∧
        (w.after runs).registry.store top.run.name = .ok s' ∧
        ∀ n ∈ Generator.nodesOf graph scope, (∀ t ∈ between ++ [top], ¬ t.Renders n) →
          ∃ names, s.names? n.2.fullname = some names ∧ s'.names? n.2.fullname = some names := by
  induction between with
  | nil =>
      intro w runs base h
      obtain ⟨s, s', hs, hs', hstep⟩ := h.step hscope hgraph
      exact ⟨s, s', hs, hs', fun n hn hnot => hstep n hn (hnot top (by simp))⟩
  | cons t between ih =>
      intro w runs base h
      obtain ⟨s, s₁, hs, hs₁, hstep⟩ := h.step hscope hgraph
      obtain ⟨_, later, _, hafter, htail⟩ := h.tail
      obtain ⟨s₁', s', hs₁', hs', hrest⟩ := ih htail
      rw [← hafter] at hs₁' hs'
      obtain rfl := Except.ok.inj (hs₁.symm.trans hs₁')
      refine ⟨s, s', hs, hs', fun n hn hnot => ?_⟩
      obtain ⟨names, hfirst, hnames⟩ := hstep n hn (hnot t (by simp))
      obtain ⟨names', hnames', hlast⟩ := hrest n hn fun u hu => hnot u (List.mem_cons_of_mem _ hu)
      rw [hnames] at hnames'
      obtain rfl := Option.some.inj hnames'
      exact ⟨names, hfirst, hlast⟩

/-- **Names along runs that override each other.** Runs that succeed over the same distinct nodes, each
    overriding the one before it, give a node that none of them but the first renders the namespace and
    name that the first gave it, whatever their templates are; and a node that the last one renders has
    the names that the last one's own templates give, or those of its definition. -/
theorem names_along {base top : Turn E σ} {between : List (Turn E σ)} (hscope : scope.Nodup)
    (hgraph : graph.names.Nodup)
    (h : Lineage w runs graph scope (base :: (between ++ [top]))) :
    ∃ s s', (w.after runs).registry.store base.run.name = .ok s ∧
      (w.after runs).registry.store top.run.name = .ok s' ∧
      ∀ n ∈ Generator.nodesOf graph scope,
        ((∀ t ∈ between ++ [top], ¬ t.Renders n) →
          ∃ names, s.names? n.2.fullname = some names ∧ s'.names? n.2.fullname = some names) ∧
        (top.Renders n → ∃ (env : E) (names : String × String),
          top.run.generator.environment top.workshop.registry = .ok env ∧
          top.run.generator.ownNames env (Generator.namingContext top.run.context n.2) n.2 =
            .ok names ∧ s'.names? n.2.fullname = some names) := by
  have htop : top ∈ base :: (between ++ [top]) := by simp
  obtain ⟨s, s', hs, hs', hkept⟩ := h.names_eq hscope hgraph between
  obtain ⟨p, hprepare, hstore, hnames⟩ := h.exists_store hscope hgraph htop
  obtain rfl := Except.ok.inj (hs'.symm.trans hstore)
  refine ⟨s, p.store, hs, hs', fun n hn => ⟨hkept n hn, fun hrenders => ?_⟩⟩
  obtain ⟨names, hfound, hdecided⟩ := hnames n hn
  rw [Turn.Renders, (h.context top htop).1, ← Generator.isSome_eligibility_iff] at hrenders
  rw [hrenders, Generator.namesOf_rendered] at hdecided
  exact ⟨p.env, names, (Generator.prepare_eq_ok_iff.1 hprepare).2.1, hdecided, hfound⟩

/-! ## Three runs over the tree

The second renders nothing, so the third, which overrides it and renders the enums, names the record as
the first does. A run between them, of documents on what nobody has published, has failed. -/

open Generator

/-- A run that renders the record and names everything its own way. -/
def baseRun : Run :=
  ⟨⟨⟨"base", none, ⟨some "base", none, none, none, none⟩, none, none, none⟩,
    .ofSources "here" [("record", "plain")]⟩, treeContext⟩

/-- A run for roots, of which there are none. -/
def rootsRun : Run :=
  ⟨⟨⟨"roots", none, ⟨some "roots", none, none, none, none⟩, some "base", none, none⟩,
    .ofSources "here" [("root", "top")]⟩, treeContext⟩

/-- A run that renders the enums. -/
def enumsRun : Run :=
  ⟨⟨⟨"enums", none, ⟨some "kinds", none, none, none, none⟩, some "roots", none, none⟩,
    .ofSources "here" [("enum", "kept")]⟩, treeContext⟩

def treeRuns : List Run := [baseRun, docsRun, rootsRun, enumsRun]

def baseTurn : Turn := ⟨baseRun, emptyWorkshop⟩

def rootsTurn : Turn := ⟨rootsRun, emptyWorkshop.after [baseRun, docsRun]⟩

def enumsTurn : Turn := ⟨enumsRun, emptyWorkshop.after [baseRun, docsRun, rootsRun]⟩

theorem lineage_tree : Lineage emptyWorkshop treeRuns Store.treeGraph [2, 0, 1]
    (baseTurn :: ([rootsTurn] ++ [enumsTurn])) where
  among := .cons_cons _ (.cons _ (.cons_cons _ (.cons_cons _ .slnil)))
  succeeds := by
    have hsome : ∀ t ∈ [baseTurn, rootsTurn, enumsTurn],
        (t.run.answer t.workshop).toOption.isSome = true := by decide +kernel
    exact fun t ht => Turn.succeeds_of_isSome (hsome t ht)
  context := by simp [baseTurn, rootsTurn, enumsTurn, baseRun, rootsRun, enumsRun, treeContext]
  overrides := .cons_cons rfl (.cons_cons rfl (.singleton _))

theorem names_along_tree : [2, 0, 1].Nodup ∧ Store.treeGraph.names.Nodup ∧
    Lineage emptyWorkshop treeRuns Store.treeGraph [2, 0, 1]
      (baseTurn :: ([rootsTurn] ++ [enumsTurn])) ∧
    ["base", "enums"].map (fun name =>
      (((emptyWorkshop.after treeRuns).registry.store name).toOption.map fun s =>
        ["x.Tree", "x.Left"].map s.names?)) =
      [some [some ("base", "Tree"), some ("base", "Left")],
        some [some ("base", "Tree"), some ("kinds", "Left")]] ∧
    ∃ s s', (emptyWorkshop.after treeRuns).registry.store "base" = .ok s ∧
      (emptyWorkshop.after treeRuns).registry.store "enums" = .ok s' ∧
      ∀ n ∈ nodesOf Store.treeGraph [2, 0, 1],
        (∀ t ∈ [rootsTurn, enumsTurn], ¬ t.Renders n) →
          ∃ names, s.names? n.2.fullname = some names ∧ s'.names? n.2.fullname = some names := by
  have hscope : [2, 0, 1].Nodup := by decide
  have hgraph : Store.treeGraph.names.Nodup := by decide +kernel
  obtain ⟨s, s', hs, hs', hnames⟩ := names_along hscope hgraph lineage_tree
  exact ⟨hscope, hgraph, lineage_tree, by decide +kernel, s, s', hs, hs',
    fun n hn => (hnames n hn).1⟩

end Workshop

end AvroCodegen
