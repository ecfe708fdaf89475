import AvroCodegen.Proofs.RunCoverage
import Mathlib.Logic.Relation

set_option autoImplicit false

/-! # What runs leave behind

Runs follow each other in one workshop, whether they succeed or not. `Run.Effects` says what a single
run leaves, by the stage at which it fails: nothing before it renders, then the files it has written,
then also its store, and last its call. Over a sequence of runs the stores only grow, and what a run
finds among them is what the runs before it have published (`Workshop.after_effects`). -/

namespace AvroCodegen

open Acting

namespace Taking

theorem run_bind_of_ok {α β : Type} {m : Taking α} {f : α → Taking β} {args rest : List Arg} {a : α}
    (h : m.run args = .ok (a, rest)) : (m >>= f).run args = (f a).run rest := by
  rw [StateT.run_bind, h]
  rfl

end Taking

/-! ## Looking into the registry -/

namespace Registry

theorem store_eq_ok_iff {r : Registry} {name : String} {s : Store} :
    r.store name = .ok s ↔ Keyed.get? name r.stores = some s := by
  unfold store
  cases Keyed.get? name r.stores <;> simp

theorem lookup_eq_ok_iff {r : Registry} {generator fullname : String} {found : Store × Nat} :
    r.lookup generator fullname = .ok found ↔
      Keyed.get? generator r.stores = some found.1 ∧ found.1.find? fullname = some found.2 := by
  constructor
  · intro h
    obtain ⟨s, hs, h⟩ := Answer.of_bind_ok h
    cases hfind : s.find? fullname with
    | none =>
        rw [hfind] at h
        cases h
    | some id =>
        rw [hfind] at h
        rw [← Except.ok.inj h]
        exact ⟨store_eq_ok_iff.1 hs, hfind⟩
  · rintro ⟨hs, hfind⟩
    unfold lookup
    rw [Answer.bind_of_ok (store_eq_ok_iff.2 hs), hfind]
    rfl

end Registry

namespace Filter

theorem call_counterpart (registry : Registry) (store : Store) (id : Nat) (generator : String) :
    (counterpart registry).call [.value (.view (.entity store id)), .value (.text generator)] =
      (registry.lookup generator (store.schemaName id)).map
        fun found => .view (.entity found.1 found.2) := by
  have hview : Taking.anything.run [.value (.view (.entity store id)), .value (.text generator)] =
      .ok (.view (.entity store id), [.value (.text generator)]) := rfl
  have htext : Taking.text.run [.value (.text generator)] = .ok (generator, []) := rfl
  have hfinish : Taking.finish.run [] = .ok ((), []) := rfl
  unfold counterpart Taking.call
  rw [Taking.run_bind_of_ok hview, Taking.run_bind_of_ok htext, Taking.run_bind_of_ok hfinish]
  dsimp only
  rw [StateT.run_bind]
  unfold lift
  cases registry.lookup generator (store.schemaName id) <;> rfl

end Filter

/-- A filter finds in the stores of a registry what they have for the schema of an entity, and nothing
    else. -/
def Filter.Sees (filter : Taking Value) (registry : Registry) : Prop :=
  ∀ (store : Store) (id : Nat) (generator : String) (v : Value),
    filter.call [.value (.view (.entity store id)), .value (.text generator)] = .ok v ↔
      ∃ other id', (generator, other) ∈ registry.stores ∧
        other.find? (store.schemaName id) = some id' ∧ v = .view (.entity other id')

theorem Filter.sees_counterpart {registry : Registry} (h : registry.names.Nodup) :
    Sees (counterpart registry) registry := by
  intro store id generator v
  rw [call_counterpart]
  constructor
  · intro hv
    cases hlookup : registry.lookup generator (store.schemaName id) with
    | error fault =>
        rw [hlookup] at hv
        cases hv
    | ok found =>
        rw [hlookup] at hv
        obtain ⟨hget, hfind⟩ := Registry.lookup_eq_ok_iff.1 hlookup
        exact ⟨found.1, found.2, Keyed.mem_of_get? hget, hfind, (Except.ok.inj hv).symm⟩
  · rintro ⟨other, id', hmem, hfind, rfl⟩
    have hlookup : registry.lookup generator (store.schemaName id) = .ok (other, id') :=
      Registry.lookup_eq_ok_iff.2 ⟨(Keyed.get?_eq_some_iff_of_nodup h).2 hmem, hfind⟩
    rw [hlookup]
    rfl

/-! ## The engine of a run -/

/-- An engine that was started with some filters and has compiled some templates, in order. -/
def TemplateEngine.Holds {E : Type} [TemplateEngine E] (env : E) (filters : FilterTable)
    (templates : List (String × String)) : Prop :=
  templates.foldlM (fun env t => add env t.1 t.2) (start filters) = (.ok env : Outcome E)

namespace Generator

variable {E : Type} [TemplateEngine E]

/-- The templates of a generator: those of its set, and those of its names, files and command. -/
def sources (g : Generator) : List (String × String) :=
  g.templates.templates ++ inlineTemplates g.config

/-- Where no template is refused it does not matter how a refusal would be worded. -/
theorem holds_environment {g : Generator} {registry : Registry} {env : E}
    (h : g.environment registry = .ok env) :
    TemplateEngine.Holds env (Filter.ofModel registry) g.sources := by
  obtain ⟨env₁, hset, hinline⟩ := Answer.of_bind_ok h
  unfold TemplateEngine.Holds sources
  rw [List.foldlM_append, Answer.bind_of_ok (Answer.foldlM_of_mapError _ hset)]
  exact hinline

end Generator

/-! ## One run -/

/-- Files that are written, in full or not, lead from one output to another. -/
def Sink.Leads {σ : Type} (s : Sink σ) : σ → σ → Prop :=
  Relation.ReflTransGen fun o o' => ∃ path content, o' = (outcome (s.write path content) o).2

theorem Sink.leads_of_write {σ : Type} {s : Sink σ} {path : Path} {content : String}
    {answer : Except Fault Unit} {o o' : σ} (h : outcome (s.write path content) o = (answer, o')) :
    s.Leads o o' :=
  .single ⟨path, content, (congrArg Prod.snd h).symm⟩

/-- A generator with what it is run on. -/
structure Run (E : Type := Environment) (σ : Type := Output) where
  generator : Generator
  context : RunContext E σ

namespace Run

variable {E σ : Type} [TemplateEngine E]

/-- The name under which a run publishes. -/
def name (r : Run E σ) : String :=
  r.generator.name

/-- The answer of a run in a workshop. -/
def answer (r : Run E σ) (w : Workshop σ) : Except Fault RunReport :=
  (outcome (r.generator.run r.context) w).1

/-- What a run makes of a workshop. -/
def after (r : Run E σ) (w : Workshop σ) : Workshop σ :=
  (outcome (r.generator.run r.context) w).2

/-- What a run decides on before it does anything. -/
def prepare (r : Run E σ) (w : Workshop σ) : Outcome (Prepared E) :=
  r.generator.prepare r.context w.registry

/-- The types that a run is to render, in scope order, with their roles. -/
def eligible (r : Run E σ) : List (NamedType × Role) :=
  (Generator.nodesOf r.context.graph r.context.scope).filterMap fun n =>
    (r.generator.eligibility r.context.graph n.1 n.2).toOption.map fun role => (n.2, role)

/-- From one output to another, a run renders and writes the files of some types in order. -/
abbrev Writes (r : Run E σ) (p : Prepared E) :
    List (NamedType × Role) → List Path → σ → σ → Prop :=
  Generator.Writes r.generator r.context p.env p.store

/-- A workshop in which a run has written, and has published its store. -/
def published (r : Run E σ) (p : Prepared E) (w : Workshop σ) (o : σ) : Workshop σ :=
  r.generator.published p.store { w with output := o }

/-- What a run does to a workshop: all of what the stages do that it completes, and nothing else. -/
structure Effects (r : Run E σ) (w : Workshop σ) : Prop where
  /-- It ends at one of its stages. -/
  ends : Generator.Ends r.generator r.context w (r.answer w) (r.after w)
  /-- Without its target, its templates, its names or its store a run does nothing. -/
  unprepared : ∀ fault, r.generator.Unprepared r.context w.registry fault →
    r.answer w = .error fault ∧ r.after w = w
  /-- Where a file cannot be rendered, those before it are written. -/
  unrendered : ∀ p done t role rest files o fault, r.prepare w = .ok p →
    r.eligible = done ++ (t, role) :: rest → r.Writes p done files w.output o →
    r.generator.fileOf r.context p.env p.store t role = .error fault →
    r.answer w = .error fault ∧ r.after w = { w with output := o }
  /-- Where the name is taken, all files are written. -/
  taken : ∀ p files o, r.prepare w = .ok p → r.Writes p r.eligible files w.output o →
    w.registry.has r.name = true →
    r.answer w = .error (.setup (.publishedTwice r.name)) ∧ r.after w = { w with output := o }
  /-- Nothing is published, or the store of the run, once all files are written. -/
  registry : (r.after w).registry = w.registry ∨ ∃ p files o, r.prepare w = .ok p ∧
    r.Writes p r.eligible files w.output o ∧ w.registry.has r.name = false ∧
    (r.after w).registry.stores = w.registry.stores ++ [(r.name, p.store)]
  /-- No command is called, so that all that is left comes of the sink; or the command of the run is,
      unless it is to be skipped: once, and last, after the store is published. -/
  calls : r.context.sink.Leads w.output (r.after w).output ∨ ∃ p files o command,
    r.prepare w = .ok p ∧ r.Writes p r.eligible files w.output o ∧ w.registry.has r.name = false ∧
    r.generator.config.postCall.isSome ∧ r.context.skipPostCalls = false ∧
    r.generator.commandOf r.context p.env files = .ok command ∧
    r.after w = Generator.called r.context command (r.published p w o)
  /-- The engine has the templates of the generator and the filters of the model, of which `from` sees
      what was published before the run. -/
  sees : ∀ env : E, r.generator.environment w.registry = .ok env →
    TemplateEngine.Holds env (Filter.ofModel w.registry) r.generator.sources ∧
    ∃ filter, Keyed.get? "from" (Filter.ofModel w.registry) = some filter ∧
      Filter.Sees filter w.registry

variable {r : Run E σ} {w : Workshop σ} {p : Prepared E}

theorem chosenIn_of_prepare (h : r.prepare w = .ok p) : Generator.chosenIn p.planned = r.eligible := by
  obtain ⟨hplanned, -⟩ := Generator.schemas_of_prepare h
  unfold eligible Generator.chosenIn
  generalize Generator.nodesOf r.context.graph r.context.scope = nodes at hplanned ⊢
  generalize p.planned = planned at hplanned
  induction hplanned with
  | nil => rfl
  | @cons n _ _ _ hfirst _ ih =>
      rw [List.filterMap_cons, List.filterMap_cons, hfirst.role, hfirst.type, ih]
      cases r.generator.eligibility r.context.graph n.1 n.2 <;> rfl

theorem outcome_of_prepare (h : r.prepare w = .ok p) :
    outcome (r.generator.run r.context) w = outcome (do
      let files ← r.generator.renderTypes r.context p.env p.store r.eligible
      r.generator.publish p.store
      let command ← r.generator.callAfter r.context p.env files
      return ⟨r.name, p.store.size, files, Generator.skippedIn p.planned, command⟩) w := by
  unfold prepare at h
  rw [Generator.outcome_run, outcome_liftM_bind, h]
  dsimp only [Generator.complete]
  rw [chosenIn_of_prepare h]
  rfl

theorem leads_of_writes {types : List (NamedType × Role)} {files : List Path} {o o' : σ}
    (h : r.Writes p types files o o') : r.context.sink.Leads o o' := by
  induction h with
  | none => exact .refl
  | file _ hwrite _ ih => exact (Sink.leads_of_write hwrite).trans ih

theorem answer_and_after {answer : Except Fault RunReport} {w' : Workshop σ}
    (h : outcome (r.generator.run r.context) w = (answer, w')) : r.answer w = answer ∧ r.after w = w' :=
  ⟨congrArg Prod.fst h, congrArg Prod.snd h⟩

theorem effects_unprepared {fault : Fault} (h : r.generator.Unprepared r.context w.registry fault) :
    r.answer w = .error fault ∧ r.after w = w := by
  refine answer_and_after ?_
  rw [Generator.outcome_run, outcome_liftM_bind, Generator.prepare_eq_error_iff.2 h]

theorem effects_unrendered {done rest : List (NamedType × Role)} {t : NamedType} {role : Role}
    {files : List Path} {o : σ} {fault : Fault} (hprepare : r.prepare w = .ok p)
    (heligible : r.eligible = done ++ (t, role) :: rest) (hwrites : r.Writes p done files w.output o)
    (hfile : r.generator.fileOf r.context p.env p.store t role = .error fault) :
    r.answer w = .error fault ∧ r.after w = { w with output := o } := by
  have hrender : outcome (r.generator.renderTypes r.context p.env p.store r.eligible) w =
      (.error fault, { w with output := o }) := by
    rw [heligible, hwrites.outcome_append _ w rfl]
    refine outcome_bind_of_error ?_
    rw [Generator.renderTypes]
    exact outcome_bind_of_error (Generator.outcome_renderType_of_error hfile _)
  exact answer_and_after ((outcome_of_prepare hprepare).trans (outcome_bind_of_error hrender))

/-- Once all files are written, what is left is to publish and to call. -/
theorem outcome_of_writes {files : List Path} {o : σ} (hprepare : r.prepare w = .ok p)
    (hwrites : r.Writes p r.eligible files w.output o) :
    outcome (r.generator.run r.context) w = outcome (do
      r.generator.publish p.store
      let command ← r.generator.callAfter r.context p.env files
      return ⟨r.name, p.store.size, files, Generator.skippedIn p.planned, command⟩)
      { w with output := o } := by
  have hrender := hwrites.outcome_append [] w rfl
  rw [List.append_nil] at hrender
  have hfiles : outcome (r.generator.renderTypes r.context p.env p.store r.eligible) w =
      (.ok (files ++ []), { w with output := o }) := hrender
  rw [List.append_nil] at hfiles
  rw [outcome_of_prepare hprepare, outcome_bind_of_ok hfiles]

theorem effects_taken {files : List Path} {o : σ} (hprepare : r.prepare w = .ok p)
    (hwrites : r.Writes p r.eligible files w.output o) (htaken : w.registry.has r.name = true) :
    r.answer w = .error (.setup (.publishedTwice r.name)) ∧ r.after w = { w with output := o } := by
  have hpublish := Generator.outcome_publish r.generator p.store { w with output := o }
  rw [if_pos (show w.registry.has r.generator.name = true from htaken)] at hpublish
  exact answer_and_after ((outcome_of_writes hprepare hwrites).trans (outcome_bind_of_error hpublish))

/-- Where the name is free and there is no command, nothing can fail any more. -/
theorem effects_published {files : List Path} {o : σ} (hprepare : r.prepare w = .ok p)
    (hwrites : r.Writes p r.eligible files w.output o) (hfree : w.registry.has r.name = false)
    (hpost : r.generator.config.postCall = none) :
    r.answer w = .ok ⟨r.name, p.store.size, files, Generator.skippedIn p.planned, none⟩ ∧
      r.after w = r.published p w o := by
  have hpublish := Generator.outcome_publish r.generator p.store { w with output := o }
  rw [if_neg (show ¬ w.registry.has r.generator.name = true from Bool.eq_false_iff.1 hfree)] at hpublish
  have hcall := Generator.outcome_callAfter_none hpost r.context p.env files
    (r.generator.published p.store { w with output := o })
  refine answer_and_after ((outcome_of_writes hprepare hwrites).trans ?_)
  rw [outcome_bind_of_ok hpublish, outcome_bind_of_ok hcall]
  rfl

/-- A run leaves the stores alone and all it does is to write; or it publishes its store when all its
    files are written, and calls its command after that or none. -/
theorem registry_and_calls (r : Run E σ) (w : Workshop σ) :
    ((r.after w).registry = w.registry ∧ r.context.sink.Leads w.output (r.after w).output) ∨
    ∃ p files o, r.prepare w = .ok p ∧ r.Writes p r.eligible files w.output o ∧
      w.registry.has r.name = false ∧
      (r.after w = r.published p w o ∨ r.generator.config.postCall.isSome ∧
        r.context.skipPostCalls = false ∧ ∃ command,
          r.generator.commandOf r.context p.env files = .ok command ∧
          r.after w = Generator.called r.context command (r.published p w o)) := by
  have hends : Generator.Ends r.generator r.context w (r.answer w) (r.after w) :=
    Generator.run_ends r.generator r.context w
  generalize r.answer w = answer at hends
  generalize hafter : r.after w = w' at hends
  cases hends with
  | unprepared _ => exact Or.inl ⟨rfl, .refl⟩
  | broken _ _ hwrites hbreaks =>
      refine Or.inl ⟨rfl, ?_⟩
      have hdone := leads_of_writes (r := r) hwrites
      cases hbreaks with
      | unrendered _ => exact hdone
      | unwritten _ hwrite => exact hdone.trans (Sink.leads_of_write hwrite)
  | taken _ hwrites _ => exact Or.inl ⟨rfl, leads_of_writes (r := r) hwrites⟩
  | @published p files o _ _ hprepare hwrites hfree hcalls =>
      rw [chosenIn_of_prepare hprepare] at hwrites
      -- whether the run succeeds from here on does not matter: the store stays
      exact Or.inr ⟨p, files, o, hprepare, hwrites, hfree, hcalls.leaves.2⟩

/-- A run publishes nothing, or its store once all its files are written. -/
theorem registry_of_run (r : Run E σ) (w : Workshop σ) : (r.after w).registry = w.registry ∨
    ∃ p files o, r.prepare w = .ok p ∧ r.Writes p r.eligible files w.output o ∧
      w.registry.has r.name = false ∧
      (r.after w).registry.stores = w.registry.stores ++ [(r.name, p.store)] := by
  rcases r.registry_and_calls w with ⟨hregistry, _⟩ | ⟨p, files, o, hprepare, hwrites, hfree, hafter⟩
  · exact Or.inl hregistry
  · refine Or.inr ⟨p, files, o, hprepare, hwrites, hfree, ?_⟩
    rcases hafter with hafter | ⟨_, _, command, _, hafter⟩
    · rw [hafter]
      rfl
    · rw [hafter]
      rfl

/-- The effects of a run in a workshop where published names are distinct. -/
theorem effects (r : Run E σ) {w : Workshop σ} (hnames : w.registry.names.Nodup) : r.Effects w where
  ends := Generator.run_ends r.generator r.context w
  unprepared := fun _ h => effects_unprepared h
  unrendered := fun _ _ _ _ _ _ _ _ hprepare heligible hwrites hfile =>
    effects_unrendered hprepare heligible hwrites hfile
  taken := fun _ _ _ hprepare hwrites htaken => effects_taken hprepare hwrites htaken
  registry := r.registry_of_run w
  calls := by
    rcases r.registry_and_calls w with ⟨_, hleads⟩ | ⟨p, files, o, hprepare, hwrites, hfree, hafter⟩
    · exact Or.inl hleads
    · rcases hafter with hafter | ⟨hpost, hskip, command, hcommand, hafter⟩
      · rw [hafter]
        exact Or.inl (leads_of_writes hwrites)
      · exact Or.inr ⟨p, files, o, command, hprepare, hwrites, hfree, hpost, hskip, hcommand, hafter⟩
  sees := fun _ henv =>
    ⟨Generator.holds_environment henv, _, rfl, Filter.sees_counterpart hnames⟩

end Run

/-! ## A sequence of runs -/

namespace Workshop

variable {E σ : Type}

/-- A workshop has gained stores by some runs, under names of theirs and in their order, each name a
    new one. -/
structure Gains (w : Workshop σ) (runs : List (Run E σ)) (stores : List (String × Store))
    (w' : Workshop σ) : Prop where
  registry : w'.registry.stores = w.registry.stores ++ stores
  names : (stores.map Prod.fst).Sublist (runs.map Run.name)
  nodup : w.registry.names.Nodup → w'.registry.names.Nodup

namespace Gains

variable {w w₁ w₂ : Workshop σ} {runs runs' : List (Run E σ)}
  {stores stores' : List (String × Store)}

theorem refl (w : Workshop σ) : Gains w ([] : List (Run E σ)) [] w where
  registry := (List.append_nil _).symm
  names := .slnil
  nodup := id

theorem trans (h : Gains w runs stores w₁) (h' : Gains w₁ runs' stores' w₂) :
    Gains w (runs ++ runs') (stores ++ stores') w₂ where
  registry := by rw [h'.registry, h.registry, List.append_assoc]
  names := by
    rw [List.map_append, List.map_append]
    exact h.names.append h'.names
  nodup := h'.nodup ∘ h.nodup

/-- What is published stays under its name. -/
theorem store_eq_ok (h : Gains w runs stores w₁) {name : String} {s : Store}
    (hs : w.registry.store name = .ok s) : w₁.registry.store name = .ok s := by
  rw [Registry.store_eq_ok_iff] at hs ⊢
  rw [h.registry]
  exact Keyed.get?_append_of_get? stores hs

end Gains

/-- A run that publishes under a new name. -/
theorem gains_published {r : Run E σ} {w w' : Workshop σ} {s : Store}
    (hfree : w.registry.has r.name = false)
    (hstores : w'.registry.stores = w.registry.stores ++ [(r.name, s)]) :
    Gains w [r] [(r.name, s)] w' where
  registry := hstores
  names := .refl _
  nodup := by
    intro h
    have hnames : w'.registry.names = w.registry.names ++ [r.name] := by
      simp [Registry.names, hstores, Keyed.keys]
    rw [hnames, List.nodup_append_comm, List.singleton_append, List.nodup_cons]
    refine ⟨fun hmem => ?_, h⟩
    have hhas : w.registry.has r.name = true := Keyed.has_iff_mem_keys.2 hmem
    rw [hfree] at hhas
    cases hhas

variable [TemplateEngine E]

/-- A run gains its store or nothing. -/
theorem exists_gains_run (r : Run E σ) (w : Workshop σ) :
    ∃ stores, Gains w [r] stores (r.after w) := by
  rcases r.registry_of_run w with hregistry | ⟨p, files, o, _, _, hfree, hstores⟩
  · exact ⟨[], by rw [hregistry, List.append_nil], List.nil_sublist _, by rw [hregistry]; exact id⟩
  · exact ⟨_, gains_published hfree hstores⟩

/-- What a sequence of runs makes of a workshop, each beginning with what the one before has left. -/
def after (w : Workshop σ) (runs : List (Run E σ)) : Workshop σ :=
  runs.foldl (fun w r => r.after w) w

theorem exists_gains (runs : List (Run E σ)) : ∀ w : Workshop σ,
    ∃ stores, Gains w runs stores (w.after runs) := by
  induction runs with
  | nil => exact fun w => ⟨[], .refl w⟩
  | cons r rest ih =>
      intro w
      obtain ⟨stores, hfirst⟩ := exists_gains_run r w
      obtain ⟨stores', hrest⟩ := ih (r.after w)
      exact ⟨stores ++ stores', hfirst.trans hrest⟩

/-- **What runs leave behind.** Each run of a sequence, whether the others succeed or not, has the
    effects of its stages and looks into what the runs before it have published; the runs after it
    change nothing of that and add stores of their names, which stay distinct. This holds whatever the
    template engine, the sink and the runner do, and wherever they fail. -/
theorem after_effects {w : Workshop σ} (hnames : w.registry.names.Nodup) (before : List (Run E σ))
    (r : Run E σ) (later : List (Run E σ)) :
    r.Effects (w.after before) ∧ (w.after (before ++ r :: later)).registry.names.Nodup ∧
      (∃ stores, Gains w before stores (w.after before)) ∧
      (∃ stores, Gains (w.after before) (r :: later) stores (w.after (before ++ r :: later))) ∧
      ∀ name s, (w.after before).registry.store name = .ok s →
        (w.after (before ++ r :: later)).registry.store name = .ok s := by
  obtain ⟨stores, hbefore⟩ := exists_gains before w
  obtain ⟨stores', hlater⟩ := exists_gains (r :: later) (w.after before)
  have happend : w.after (before ++ r :: later) = (w.after before).after (r :: later) :=
    List.foldl_append
  rw [happend]
  exact ⟨r.effects (hbefore.nodup hnames), hlater.nodup (hbefore.nodup hnames), ⟨stores, hbefore⟩,
    ⟨stores', hlater⟩, fun _ _ hs => hlater.store_eq_ok hs⟩

/-! ## Four runs over the tree

The second run shows the names that the first has given, and its store stays although its call fails.
The third has written an enum when its record turns out to need a value that is not there. The fourth
is the first again: it writes its file anew, but its name is taken. -/

/-- The run whose generator names what it renders for the others. -/
def javaRun : Run :=
  ⟨Generator.treeGenerator, Generator.treeContext⟩

/-- A run whose template looks into what the others have published. -/
def docsRun : Run :=
  ⟨⟨⟨"docs", none, .none, none, none, some "make"⟩,
    .ofSources "here" [("record", "\x7b\x7b (entity|from('java')).fullname \x7d\x7d")]⟩,
    Generator.treeContext⟩

/-- A run that renders enums, and no record. -/
def brokenRun : Run :=
  ⟨⟨⟨"broken", none, .none, none, none, none⟩,
    .ofSources "here" [("enum", "kept"), ("record", "\x7b\x7b absent \x7d\x7d")]⟩,
    Generator.treeContext⟩

open Generator in
theorem after_effects_tree :
    emptyWorkshop.registry.names.Nodup ∧
      ((emptyWorkshop.after [javaRun]).registry.names = ["java"] ∧
        (emptyWorkshop.after [javaRun, docsRun, brokenRun, javaRun]).registry.names = ["java", "docs"] ∧
        (emptyWorkshop.after [javaRun, docsRun, brokenRun, javaRun]).output.memory =
          [("/out/x/Left", "kept"), ("/out/x/Tree", "held")] ∧
        (emptyWorkshop.after [javaRun, docsRun, brokenRun, javaRun]).output.calls =
          [("make", "/out")]) ∧
      docsRun.Effects (emptyWorkshop.after [javaRun]) ∧
      (emptyWorkshop.after [javaRun, docsRun, brokenRun, javaRun]).registry.names.Nodup ∧
      (∃ stores, Gains emptyWorkshop [javaRun] stores (emptyWorkshop.after [javaRun])) ∧
      (∃ stores, Gains (emptyWorkshop.after [javaRun]) [docsRun, brokenRun, javaRun] stores
        (emptyWorkshop.after [javaRun, docsRun, brokenRun, javaRun])) ∧
      ∀ name s, (emptyWorkshop.after [javaRun]).registry.store name = .ok s →
        (emptyWorkshop.after [javaRun, docsRun, brokenRun, javaRun]).registry.store name = .ok s := by
  have hnames : emptyWorkshop.registry.names.Nodup := by decide
  exact ⟨hnames, by decide +kernel, after_effects hnames [javaRun] docsRun [brokenRun, javaRun]⟩

end Workshop

end AvroCodegen
