import AvroCodegen.Production
import AvroCodegen.Proofs.Overriding

set_option autoImplicit false

/-! # What the check of a definition is for

A definition is checked before anything runs, and its generators trust the check: each run begins by
looking for the store of the generator that it overrides, names nodes by what it finds there, and ends
by publishing under its own name. `Definition.check_provides` says that nothing of this ever fails once
the check has passed. The names that are published are those of the generators that have run, in order
(`Follows.names`), and each store has an entity for every node (`Follows.schemas`), so what a run looks
up is there. -/

namespace AvroCodegen

open Acting

/-! ## The check -/

namespace Definition

/-- Generators that may follow others, of which the names are given: their names are new and differ,
    and what they override comes before them. -/
structure Following (seen : List String) (configs : List GeneratorConfig) : Prop where
  nodup : (configs.map GeneratorConfig.name).Nodup
  fresh : ∀ c ∈ configs, c.name ∉ seen
  earlier : ∀ before c later, configs = before ++ c :: later →
    ∀ target, c.overrides = some target → target ∈ seen ++ before.map GeneratorConfig.name

theorem following_cons_iff {seen : List String} {c : GeneratorConfig}
    {rest : List GeneratorConfig} : Following seen (c :: rest) ↔
      (∀ target, c.overrides = some target → target ∈ seen) ∧ c.name ∉ seen ∧
        Following (seen ++ [c.name]) rest := by
  constructor
  · intro h
    obtain ⟨hnew, hnodup⟩ := List.nodup_cons.1 h.nodup
    refine ⟨fun target htarget => ?_, h.fresh c List.mem_cons_self, hnodup, fun c' hc' hmem => ?_,
      fun before c' later hrest target htarget => ?_⟩
    · simpa using h.earlier [] c rest rfl target htarget
    · rcases List.mem_append.1 hmem with hseen | heq
      · exact h.fresh c' (List.mem_cons_of_mem _ hc') hseen
      · exact hnew (List.mem_singleton.1 heq ▸ List.mem_map_of_mem hc')
    · simpa using h.earlier (c :: before) c' later (congrArg _ hrest) target htarget
  · rintro ⟨htarget, hnew, h⟩
    refine ⟨List.nodup_cons.2 ⟨fun hmem => ?_, h.nodup⟩, fun c' hc' hseen => ?_,
      fun before c' later hconfigs target htarget' => ?_⟩
    · obtain ⟨c', hc', hname⟩ := List.mem_map.1 hmem
      exact h.fresh c' hc' (by simp [hname])
    · rcases List.mem_cons.1 hc' with rfl | hc'
      · exact hnew hseen
      · exact h.fresh c' hc' (List.mem_append_left _ hseen)
    · -- the first one overrides what is given, another one what comes before it in the rest
      rcases List.cons_eq_append_iff.1 hconfigs with ⟨rfl, hcons⟩ | ⟨before, rfl, hrest⟩
      · obtain ⟨rfl, -⟩ := List.cons.inj hcons
        simpa using htarget target htarget'
      · simpa using h.earlier before c' later hrest target htarget'

theorem checkFrom_eq_ok_iff (configs : List GeneratorConfig) : ∀ {seen : List String},
    checkFrom seen configs = .ok () ↔ Following seen configs := by
  induction configs with
  | nil => exact fun {seen} => ⟨fun _ => ⟨List.nodup_nil, by simp, by simp⟩, fun _ => rfl⟩
  | cons c rest ih =>
      intro seen
      rw [following_cons_iff, checkFrom]
      cases hmissing : c.overrides.filter fun target => !seen.contains target with
      | some target =>
          obtain ⟨htarget, hnot⟩ := Option.filter_eq_some_iff.1 hmissing
          simp only [Bool.not_eq_true', ← Bool.not_eq_true, List.contains_iff_mem] at hnot
          exact ⟨fun h => (nomatch h), fun h => absurd (h.1 target htarget) hnot⟩
      | none =>
          have htarget : ∀ target, c.overrides = some target → target ∈ seen := by
            simpa [Option.filter_eq_none_iff] using hmissing
          by_cases hname : c.name ∈ seen
          · simp [hname]
          · simp only [List.contains_iff_mem, if_neg hname, ih]
            exact ⟨fun h => ⟨htarget, hname, h⟩, fun h => h.2.2⟩

/-- The names of the generators differ, and what a generator overrides comes strictly before it. -/
structure Ordered (d : Definition) : Prop where
  nodup : (d.generators.map GeneratorConfig.name).Nodup
  earlier : ∀ before c later, d.generators = before ++ c :: later →
    ∀ target, c.overrides = some target → target ∈ before.map GeneratorConfig.name

theorem check_eq_ok_iff {d : Definition} : d.check = .ok () ↔ d.Ordered := by
  rw [check, checkFrom_eq_ok_iff]
  exact ⟨fun h => ⟨h.nodup, h.earlier⟩, fun h => ⟨h.nodup, by simp, h.earlier⟩⟩

end Definition

/-! ## Runs in a row -/

/-- A workshop in which nothing is published but what some generators have made of the same nodes. -/
structure Follows {E σ : Type} (ctx : RunContext E σ) (done : List Generator) (w : Workshop σ) :
    Prop where
  names : w.registry.names = done.map Generator.name
  schemas : ∀ p ∈ w.registry.stores, p.2.entities.map Entity.schema =
    (Generator.nodesOf ctx.graph ctx.scope).map Prod.snd

namespace Follows

variable {E σ : Type} {ctx : RunContext E σ} {g : Generator} {done : List Generator}
  {w w' : Workshop σ}

theorem nil (ctx : RunContext E σ) (output : σ) : Follows ctx [] ⟨.empty, output⟩ where
  names := rfl
  schemas := by simp [Registry.empty]

/-- The store of a generator that has run is there. -/
theorem exists_store {target : String} (h : Follows ctx done w)
    (htarget : target ∈ done.map Generator.name) : ∃ s, w.registry.store target = .ok s := by
  rcases w.registry.store_eq target with ⟨_, hs⟩ | ⟨hnot, _⟩
  · exact hs
  · rw [← h.names] at htarget
    exact absurd (Keyed.has_iff_mem_keys.2 htarget) (Bool.eq_false_iff.1 hnot)

/-- In each store that is there every node is found. -/
theorem exists_lookup {target : String} {s : Store} (h : Follows ctx done w)
    (hs : w.registry.store target = .ok s) {n : Nat × NamedType}
    (hn : n ∈ Generator.nodesOf ctx.graph ctx.scope) :
    ∃ id e, w.registry.lookup target n.2.fullname = .ok (s, id) ∧ s.get? id = some e ∧
      e.schema.fullname = n.2.fullname := by
  have hget := Registry.store_eq_ok_iff.1 hs
  have hmem : n.2 ∈ s.entities.map Entity.schema := by
    rw [h.schemas (target, s) (Keyed.mem_of_get? hget)]
    exact List.mem_map_of_mem hn
  obtain ⟨e, he, hschema⟩ := List.mem_map.1 hmem
  obtain ⟨i, hi⟩ := List.mem_iff_getElem?.1 he
  obtain ⟨id, e', hfind, he', hname⟩ := Store.exists_find? hi
  rw [hschema] at hfind hname
  exact ⟨id, e', Registry.lookup_eq_ok_iff.2 ⟨hget, hfind⟩, he', hname⟩

variable [TemplateEngine E]

/-- A run that succeeds adds one store. -/
theorem run {report : RunReport} (h : Follows ctx done w)
    (hrun : outcome (g.run ctx) w = (.ok report, w')) : Follows ctx (done ++ [g]) w' := by
  obtain ⟨p, hprepare, _, hstores⟩ := Generator.exists_published hrun
  constructor
  · rw [List.map_append, ← h.names, Registry.names, hstores]
    exact List.map_append
  · rw [hstores]
    refine List.forall_mem_append.2 ⟨h.schemas, ?_⟩
    simpa using (Generator.schemas_of_prepare hprepare).2

theorem runGenerators (generators : List Generator) :
    ∀ {done : List Generator} {w : Workshop σ} {reports : List RunReport}, Follows ctx done w →
      outcome (Production.runGenerators ctx generators) w = (.ok reports, w') →
      Follows ctx (done ++ generators) w' := by
  induction generators with
  | nil =>
      intro done w reports h hruns
      obtain rfl := (Prod.mk.inj hruns).2
      rwa [List.append_nil]
  | cons g rest ih =>
      intro done w reports h hruns
      obtain ⟨report, w₁, hrun, hruns⟩ := of_outcome_bind_ok hruns
      obtain ⟨_, _, hrest, hreturn⟩ := of_outcome_bind_ok hruns
      obtain rfl := (Prod.mk.inj hreturn).2
      rw [List.append_cons]
      exact ih (h.run hrun) hrest

end Follows

/-! ## What a run can rely on -/

namespace Generator

variable {E σ : Type} {g : Generator} {ctx : RunContext E σ} {w w' : Workshop σ} {fault : Fault}

/-- The generator that is overridden, if there is one, has an entity to take the names of each node
    from. -/
def FindsNames (g : Generator) (ctx : RunContext E σ) (registry : Registry) : Prop :=
  ∀ target, g.config.overrides = some target → ∀ n ∈ nodesOf ctx.graph ctx.scope,
    ∃ s id e, registry.lookup target n.2.fullname = .ok (s, id) ∧ s.get? id = some e ∧
      e.schema.fullname = n.2.fullname

variable [TemplateEngine E]

/-- The templates of a generator do not name a node: those for a namespace and a name of its own, or
    the one for the fullname. -/
inductive Misnames (g : Generator) (ctx : RunContext E σ) (env : E) (registry : Registry)
    (n : Nat × NamedType) (fault : Fault) : Prop
  | own : g.config.overrides = none ∨ g.Renders ctx.graph n →
      g.ownNames env (namingContext ctx n.2) n.2 = .error fault → Misnames g ctx env registry n fault
  | fullname {names : String × String} : g.namesOf env registry (namingContext ctx n.2) n.2
      (g.eligibility ctx.graph n.1 n.2).toOption.isSome = .ok names →
      inline env g.config.naming.fullname "@naming/fullname" (extend (namingContext ctx n.2)
        [("namespace", .text names.1), ("name", .text names.2)]) (pointed names.1 names.2) =
        .error fault → Misnames g ctx env registry n fault

/-- What can fail in a run besides looking for the generator that is overridden, taking over its names
    and publishing: the templates of the generator, names of its own, the relations of the entities, a
    file after those written, or the command. -/
inductive FailsElsewhere (g : Generator) (ctx : RunContext E σ) (w : Workshop σ) (fault : Fault) : Prop
  | templates : (g.environment w.registry : Outcome E) = .error fault → FailsElsewhere g ctx w fault
  | naming {env : E} {n : Nat × NamedType} : g.environment w.registry = .ok env →
      n ∈ nodesOf ctx.graph ctx.scope → g.Misnames ctx env w.registry n fault →
      FailsElsewhere g ctx w fault
  | store {env : E} {planned : List Planned} : g.environment w.registry = .ok env →
      g.plan ctx env w.registry = .ok planned →
      Store.build g.name ctx.graph ctx.catalog (planned.map fun p => (p.node, p.naming)) =
        .error fault → FailsElsewhere g ctx w fault
  | file {p : Prepared E} {done rest : List (NamedType × Role)} {t : NamedType} {role : Role}
      {files : List Path} {o o' : σ} : g.prepare ctx w.registry = .ok p →
      chosenIn p.planned = done ++ (t, role) :: rest →
      Writes g ctx p.env p.store done files w.output o →
      Breaks g ctx p.env p.store t role fault o o' → FailsElsewhere g ctx w fault
  | command {p : Prepared E} {files : List Path} {o : σ} {w' : Workshop σ} :
      g.prepare ctx w.registry = .ok p →
      Writes g ctx p.env p.store (chosenIn p.planned) files w.output o →
      Calls g ctx p.env files (g.published p.store { w with output := o }) (.error fault) w' →
      FailsElsewhere g ctx w fault

/-- A run finds in a workshop what it relies on. -/
structure Provided (g : Generator) (ctx : RunContext E σ) (w : Workshop σ) : Prop where
  /-- The generator that is overridden is published. -/
  target : ∀ target, g.config.overrides = some target → ∃ s, w.registry.store target = .ok s
  names : g.FindsNames ctx w.registry
  /-- When all files are written, the name of the generator is free. -/
  publishes : ∀ p files w', g.prepare ctx w.registry = .ok p →
    outcome (g.renderTypes ctx p.env p.store (chosenIn p.planned)) w = (.ok files, w') →
    outcome (g.publish p.store) w' = (.ok (), g.published p.store w')
  /-- If the run fails, something else fails in it. -/
  fails : ∀ fault w', outcome (g.run ctx) w = (.error fault, w') → g.FailsElsewhere ctx w fault

/-- Where a generator finds the names that it takes over, only its templates can fail to name. -/
theorem misnames_of_plan {env : E} {registry : Registry}
    (hnames : g.FindsNames ctx registry) (h : g.plan ctx env registry = .error fault) :
    ∃ n ∈ nodesOf ctx.graph ctx.scope, g.Misnames ctx env registry n fault := by
  obtain ⟨n, hn, h⟩ := Answer.exists_of_mapM_error h
  refine ⟨n, hn, ?_⟩
  rcases Answer.of_bind_error h with h | ⟨_, _, h⟩
  · rcases Answer.of_bind_error h with h | ⟨names, hdecided, h⟩
    · unfold namesOf at h
      cases htarget : g.config.overrides with
      | none =>
          rw [htarget] at h
          exact .own (Or.inl htarget) h
      | some target =>
          rw [htarget] at h
          dsimp only at h
          split at h
          · next hrendered => exact .own (Or.inr (isSome_eligibility_iff.1 hrendered)) h
          · obtain ⟨s, id, e, hlookup, he, _⟩ := hnames target htarget n hn
            rw [Answer.bind_of_ok hlookup] at h
            simp only [he] at h
            cases h
    · rcases Answer.of_bind_error h with h | ⟨_, _, h⟩
      · exact .fullname hdecided h
      · cases h
  · cases h

theorem outcome_publish_of_free {p : Prepared E} {files : List Path}
    (hfree : w.registry.has g.name = false)
    (h : outcome (g.renderTypes ctx p.env p.store (chosenIn p.planned)) w = (.ok files, w')) :
    outcome (g.publish p.store) w' = (.ok (), g.published p.store w') := by
  -- the files are written in the same registry
  rcases outcome_renderTypes g ctx p.env p.store (chosenIn p.planned) w with
    ⟨files', o, _, hwritten⟩ | ⟨_, _, _, _, _, _, _, _, _, _, _, hbroken⟩
  · obtain rfl := (Prod.mk.inj (h.symm.trans hwritten)).2
    rw [outcome_publish, if_neg (Bool.eq_false_iff.1 hfree)]
  · cases (Prod.mk.inj (h.symm.trans hbroken)).1

theorem failsElsewhere_of_run (htarget : g.FindsTarget w.registry)
    (hnames : g.FindsNames ctx w.registry) (hfree : w.registry.has g.name = false)
    (h : outcome (g.run ctx) w = (.error fault, w')) : g.FailsElsewhere ctx w fault := by
  have hends := run_ends g ctx w
  rw [h] at hends
  generalize hanswer : Except.error fault = answer at hends
  dsimp only at hends
  cases hends with
  | unprepared hprepare =>
      obtain rfl := Except.error.inj hanswer
      cases prepare_eq_error_iff.1 hprepare with
      | target hoverrides hnot => exact absurd (htarget _ hoverrides) (Bool.eq_false_iff.1 hnot)
      | templates _ henv => exact .templates henv
      | naming _ henv hplan =>
          obtain ⟨n, hn, hmisnames⟩ := misnames_of_plan hnames hplan
          exact .naming henv hn hmisnames
      | store _ henv hplan hbuild => exact .store henv hplan hbuild
  | broken hprepare hchosen hwrites hbreaks =>
      obtain rfl := Except.error.inj hanswer
      exact .file hprepare hchosen hwrites hbreaks
  | taken _ _ htaken => exact absurd htaken (Bool.eq_false_iff.1 hfree)
  | @published p files o call _ hprepare hwrites _ hcalls =>
      cases call with
      | error fault' =>
          obtain rfl := Except.error.inj hanswer
          exact .command hprepare hwrites hcalls
      | ok command => cases hanswer

/-- A generator with a new name that overrides none but those that have run is provided for. -/
theorem provided_of_follows {done : List Generator} (h : Follows ctx done w)
    (hfresh : g.name ∉ done.map Generator.name)
    (htarget : ∀ target, g.config.overrides = some target → target ∈ done.map Generator.name) :
    g.Provided ctx w := by
  have hhas : g.FindsTarget w.registry := by
    intro target hoverrides
    have hmem := htarget target hoverrides
    rw [← h.names] at hmem
    exact Keyed.has_iff_mem_keys.2 hmem
  have hnames : g.FindsNames ctx w.registry := by
    intro target hoverrides n hn
    obtain ⟨s, hs⟩ := h.exists_store (htarget target hoverrides)
    exact ⟨s, h.exists_lookup hs hn⟩
  have hfree : w.registry.has g.name = false := by
    rw [← h.names] at hfresh
    exact Bool.eq_false_iff.2 fun hhas => hfresh (Keyed.has_iff_mem_keys.1 hhas)
  exact ⟨fun target hoverrides => h.exists_store (htarget target hoverrides), hnames,
    fun _ _ _ _ hrender => outcome_publish_of_free hfree hrender,
    fun _ _ hrun => failsElsewhere_of_run hhas hnames hfree hrun⟩

end Generator

namespace Definition

/-- **What the check of a definition provides.** It passes just when the names of the generators differ
    and what each of them overrides comes strictly before it. Then, of generators with these
    configurations that run in order over the same nodes, each that is reached finds what it relies on,
    whatever the others have made of the nodes. -/
theorem check_provides {E σ : Type} [TemplateEngine E] (d : Definition) :
    (d.check = .ok () ↔ d.Ordered) ∧
    (d.check = .ok () → ∀ (ctx : RunContext E σ) (generators : List Generator),
      generators.map Generator.config = d.generators → ∀ output before g later reports w,
        generators = before ++ g :: later →
        outcome (Production.runGenerators ctx before) ⟨.empty, output⟩ = (.ok reports, w) →
        g.Provided ctx w) := by
  refine ⟨check_eq_ok_iff, fun hcheck ctx generators hgenerators output before g later reports w hsplit
    hruns => ?_⟩
  have hordered := check_eq_ok_iff.1 hcheck
  have hconfigs : d.generators =
      before.map Generator.config ++ g.config :: later.map Generator.config := by
    rw [← hgenerators, hsplit, List.map_append, List.map_cons]
  have hdone : (before.map Generator.config).map GeneratorConfig.name = before.map Generator.name :=
    List.map_map
  have hfollows : Follows ctx before w := (Follows.nil ctx output).runGenerators before hruns
  refine Generator.provided_of_follows hfollows ?_ ?_
  · have hnodup := hordered.nodup
    rw [hconfigs, List.map_append, List.map_cons, hdone, List.nodup_middle, List.nodup_cons] at hnodup
    exact fun hmem => hnodup.1 (List.mem_append_left _ hmem)
  · intro target htarget
    rw [← hdone]
    exact hordered.earlier _ _ _ hconfigs target htarget

/-! ## A generator after the one that it overrides -/

open Workshop

/-- A definition of two generators, of which the second overrides the first. -/
def treeDefinition : Definition :=
  ⟨[], [], [baseRun.generator.config, rootsRun.generator.config]⟩

theorem check_provides_tree : treeDefinition.check = .ok () ∧ ∃ reports w,
    outcome (Production.runGenerators Generator.treeContext [baseRun.generator])
      ⟨.empty, .start .empty⟩ = (.ok reports, w) ∧
    w.registry.names = ["base"] ∧ rootsRun.generator.config.overrides = some "base" ∧
    rootsRun.generator.Provided Generator.treeContext w := by
  have hcheck : treeDefinition.check = .ok () := Answer.eq_ok_getD () (by decide +kernel)
  have hruns : outcome (Production.runGenerators Generator.treeContext [baseRun.generator])
      ⟨.empty, .start .empty⟩ = (.ok _, _) :=
    Prod.ext (Answer.eq_ok_getD [] (by decide +kernel)) rfl
  exact ⟨hcheck, _, _, hruns, by decide +kernel, rfl, (check_provides treeDefinition).2 hcheck
    Generator.treeContext [baseRun.generator, rootsRun.generator] rfl (.start .empty)
    [baseRun.generator] rootsRun.generator [] _ _ rfl hruns⟩

end Definition

end AvroCodegen
