import AvroCodegen.Generator.Run
import AvroCodegen.Proofs.Answer

set_option autoImplicit false

/-! # The stages of a run

A run first makes all its decisions, which changes nothing (`Generator.prepare`); then it writes its
files one by one, publishes its store, and calls its command. `Generator.Ends` lists the ways in which
that can end, each with what the stages before have left behind, and `Generator.run_ends` says that
there are no others. -/

namespace AvroCodegen

namespace Acting

variable {σ α β : Type}

/-- The answer of a step and what it leaves. -/
def outcome (m : Acting σ α) (w : σ) : Except Fault α × σ := m.run w

theorem outcome_bind (m : Acting σ α) (f : α → Acting σ β) (w : σ) :
    outcome (m >>= f) w = match outcome m w with
      | (.ok a, w') => outcome (f a) w'
      | (.error fault, w') => (.error fault, w') := by
  show (ExceptT.bindCont f (m.run w).1) (m.run w).2 = _
  unfold outcome
  rcases h : m.run w with ⟨answer, w'⟩
  cases answer <;> rfl

theorem outcome_bind_of_ok {m : Acting σ α} {f : α → Acting σ β} {w w' : σ} {a : α}
    (h : outcome m w = (.ok a, w')) : outcome (m >>= f) w = outcome (f a) w' := by
  rw [outcome_bind, h]

theorem outcome_bind_of_error {m : Acting σ α} {f : α → Acting σ β} {w w' : σ} {fault : Fault}
    (h : outcome m w = (.error fault, w')) : outcome (m >>= f) w = (.error fault, w') := by
  rw [outcome_bind, h]

theorem of_outcome_bind_ok {m : Acting σ α} {f : α → Acting σ β} {w w' : σ} {b : β}
    (h : outcome (m >>= f) w = (.ok b, w')) :
    ∃ a w₁, outcome m w = (.ok a, w₁) ∧ outcome (f a) w₁ = (.ok b, w') := by
  rcases hm : outcome m w with ⟨fault | a, w₁⟩
  · rw [outcome_bind_of_error hm] at h
    cases (Prod.mk.inj h).1
  · rw [outcome_bind_of_ok hm] at h
    exact ⟨a, w₁, rfl, h⟩

/-- A step on the output changes nothing else. -/
theorem outcome_onOutput (m : Acting σ α) (w : Workshop σ) : outcome (Running.onOutput m) w =
    ((outcome m w.output).1, { w with output := (outcome m w.output).2 }) :=
  rfl

theorem outcome_get_bind (f : σ → Acting σ β) (w : σ) : outcome (get >>= f) w = outcome (f w) w := by
  rw [outcome_bind]
  rfl

/-- Deciding changes nothing. -/
theorem outcome_liftM (o : Outcome α) (w : σ) : outcome (liftM o : Acting σ α) w = (o, w) :=
  rfl

theorem outcome_liftM_bind (o : Outcome α) (f : α → Acting σ β) (w : σ) :
    outcome (liftM o >>= f) w = match o with
      | .ok a => outcome (f a) w
      | .error fault => (.error fault, w) := by
  rw [outcome_bind, outcome_liftM]
  cases o <;> rfl

theorem outcome_liftM_bind_bind {γ : Type} (o : Outcome α) (k : α → Outcome β)
    (f : β → Acting σ γ) (w : σ) :
    outcome (liftM (o >>= k) >>= f) w = outcome (liftM o >>= fun a => liftM (k a) >>= f) w := by
  rw [outcome_liftM_bind, outcome_liftM_bind]
  cases o with
  | error fault => rfl
  | ok a => exact (outcome_liftM_bind (k a) f w).symm

theorem outcome_liftM_congr {o : Outcome α} {f f' : α → Acting σ β} {w : σ}
    (h : ∀ a, outcome (f a) w = outcome (f' a) w) :
    outcome (liftM o >>= f) w = outcome (liftM o >>= f') w := by
  rw [outcome_liftM_bind, outcome_liftM_bind]
  cases o with
  | error fault => rfl
  | ok a => exact h a

end Acting

theorem Registry.store_eq (r : Registry) (name : String) :
    (r.has name = true ∧ ∃ s, r.store name = .ok s) ∨
      r.has name = false ∧ r.store name = .error (.unknownGenerator name r.names) := by
  unfold Registry.has Registry.store Keyed.has
  cases Keyed.get? name r.stores with
  | none => exact Or.inr ⟨rfl, rfl⟩
  | some s => exact Or.inl ⟨rfl, s, rfl⟩

open Acting

/-- What a run has decided on before it does anything. -/
structure Prepared (E : Type) where
  env : E
  planned : List Planned
  store : Store

namespace Generator

variable {E σ : Type} [TemplateEngine E] {g : Generator} {ctx : RunContext E σ} {w w' : Workshop σ}

/-! ## Preparing -/

/-- All that a run decides: its templates, the roles and names of the nodes, and the store. -/
def prepare (g : Generator) (ctx : RunContext E σ) (registry : Registry) : Outcome (Prepared E) := do
  if let some target := g.config.overrides then
    let _ ← registry.store target
  let env ← g.environment registry
  let planned ← g.plan ctx env registry
  let store ← Store.build g.name ctx.graph ctx.catalog (planned.map fun p => (p.node, p.naming))
  return ⟨env, planned, store⟩

/-- The generator that is overridden, if there is one, is published. -/
def FindsTarget (g : Generator) (registry : Registry) : Prop :=
  ∀ target, g.config.overrides = some target → registry.has target = true

/-- Why a run cannot be prepared. -/
inductive Unprepared (g : Generator) (ctx : RunContext E σ) (registry : Registry) : Fault → Prop
  | target {target : String} : g.config.overrides = some target → registry.has target = false →
      Unprepared g ctx registry (.unknownGenerator target registry.names)
  | templates {fault : Fault} : g.FindsTarget registry →
      (g.environment registry : Outcome E) = .error fault → Unprepared g ctx registry fault
  | naming {env : E} {fault : Fault} : g.FindsTarget registry →
      g.environment registry = .ok env → g.plan ctx env registry = .error fault →
      Unprepared g ctx registry fault
  | store {env : E} {planned : List Planned} {fault : Fault} : g.FindsTarget registry →
      g.environment registry = .ok env → g.plan ctx env registry = .ok planned →
      Store.build g.name ctx.graph ctx.catalog (planned.map fun p => (p.node, p.naming)) =
        .error fault → Unprepared g ctx registry fault

/-- With its target found, or without one, a run is prepared in three steps. -/
theorem prepare_eq {registry : Registry} (h : g.FindsTarget registry) :
    g.prepare ctx registry = (do
      let env ← g.environment registry
      let planned ← g.plan ctx env registry
      let store ← Store.build g.name ctx.graph ctx.catalog
        (planned.map fun p => (p.node, p.naming))
      return ⟨env, planned, store⟩) := by
  unfold prepare
  cases htarget : g.config.overrides with
  | none => rfl
  | some target =>
      rcases registry.store_eq target with ⟨_, s, hs⟩ | ⟨hnot, _⟩
      · dsimp only
        rw [hs]
        rfl
      · rw [h target htarget] at hnot
        cases hnot

theorem prepare_eq_error {registry : Registry} {target : String}
    (htarget : g.config.overrides = some target) (h : registry.has target = false) :
    g.prepare ctx registry = .error (.unknownGenerator target registry.names) := by
  rcases registry.store_eq target with ⟨hhas, _⟩ | ⟨_, hs⟩
  · rw [h] at hhas
    cases hhas
  · unfold prepare
    rw [htarget]
    dsimp only
    rw [hs]
    rfl

theorem findsTarget_or (g : Generator) (registry : Registry) : g.FindsTarget registry ∨
    ∃ target, g.config.overrides = some target ∧ registry.has target = false := by
  by_cases h : g.FindsTarget registry
  · exact Or.inl h
  · unfold FindsTarget at h
    push Not at h
    simpa using Or.inr h

theorem prepare_eq_ok_iff {registry : Registry} {p : Prepared E} :
    g.prepare ctx registry = .ok p ↔ g.FindsTarget registry ∧ g.environment registry = .ok p.env ∧
      g.plan ctx p.env registry = .ok p.planned ∧
      Store.build g.name ctx.graph ctx.catalog (p.planned.map fun p => (p.node, p.naming)) =
        .ok p.store := by
  constructor
  · intro h
    rcases g.findsTarget_or registry with hfinds | ⟨target, htarget, hnot⟩
    · rw [prepare_eq hfinds] at h
      obtain ⟨env, henv, h⟩ := Answer.of_bind_ok h
      obtain ⟨planned, hplan, h⟩ := Answer.of_bind_ok h
      obtain ⟨store, hbuild, h⟩ := Answer.of_bind_ok h
      rw [← Except.ok.inj h]
      exact ⟨hfinds, henv, hplan, hbuild⟩
    · rw [prepare_eq_error htarget hnot] at h
      cases h
  · rintro ⟨hfinds, henv, hplan, hbuild⟩
    rw [prepare_eq hfinds, Answer.bind_of_ok henv, Answer.bind_of_ok hplan, Answer.bind_of_ok hbuild]
    rfl

theorem prepare_eq_error_iff {registry : Registry} {fault : Fault} :
    g.prepare ctx registry = .error fault ↔ Unprepared g ctx registry fault := by
  constructor
  · intro h
    rcases g.findsTarget_or registry with hfinds | ⟨target, htarget, hnot⟩
    · rw [prepare_eq hfinds] at h
      rcases Answer.of_bind_error h with henv | ⟨env, henv, h⟩
      · exact .templates hfinds henv
      rcases Answer.of_bind_error h with hplan | ⟨planned, hplan, h⟩
      · exact .naming hfinds henv hplan
      rcases Answer.of_bind_error h with hbuild | ⟨_, _, h⟩
      · exact .store hfinds henv hplan hbuild
      · cases h
    · rw [prepare_eq_error htarget hnot] at h
      rw [← Except.error.inj h]
      exact .target htarget hnot
  · intro h
    cases h with
    | target htarget hnot => exact prepare_eq_error htarget hnot
    | templates hfinds henv => rw [prepare_eq hfinds, Answer.bind_of_error henv]
    | naming hfinds henv hplan =>
        rw [prepare_eq hfinds, Answer.bind_of_ok henv, Answer.bind_of_error hplan]
    | store hfinds henv hplan hbuild =>
        rw [prepare_eq hfinds, Answer.bind_of_ok henv, Answer.bind_of_ok hplan,
          Answer.bind_of_error hbuild]

/-- A run that is prepared. -/
def complete (g : Generator) (ctx : RunContext E σ) (p : Prepared E) : Running σ RunReport := do
  let files ← g.renderTypes ctx p.env p.store (chosenIn p.planned)
  g.publish p.store
  let command ← g.callAfter ctx p.env files
  return ⟨g.name, p.store.size, files, skippedIn p.planned, command⟩

theorem outcome_run (g : Generator) (ctx : RunContext E σ) (w : Workshop σ) :
    outcome (g.run ctx) w = outcome (liftM (g.prepare ctx w.registry) >>= g.complete ctx) w := by
  have hrest : outcome (do
      let env ← liftM (g.environment w.registry)
      let planned ← liftM (g.plan ctx env w.registry)
      let store ← liftM (Store.build g.name ctx.graph ctx.catalog
        (planned.map fun p => (p.node, p.naming)))
      g.complete ctx ⟨env, planned, store⟩) w = outcome (liftM (do
        let env ← g.environment w.registry
        let planned ← g.plan ctx env w.registry
        let store ← Store.build g.name ctx.graph ctx.catalog
          (planned.map fun p => (p.node, p.naming))
        return ⟨env, planned, store⟩ : Outcome (Prepared E)) >>= g.complete ctx) w := by
    rw [outcome_liftM_bind_bind]
    refine outcome_liftM_congr fun env => ?_
    rw [outcome_liftM_bind_bind]
    refine outcome_liftM_congr fun planned => ?_
    rw [outcome_liftM_bind_bind]
    exact outcome_liftM_congr fun store => rfl
  unfold run prepare
  rw [outcome_get_bind]
  cases g.config.overrides with
  | none => exact hrest
  | some target =>
      dsimp only
      rw [outcome_liftM_bind_bind]
      exact outcome_liftM_congr fun _ => hrest

/-! ## Writing -/

section Writing

variable (g : Generator) (ctx : RunContext E σ) (env : E) (store : Store)

/-- From one output to another, the files of some types were rendered and written in order. -/
inductive Writes : List (NamedType × Role) → List Path → σ → σ → Prop
  | none (o : σ) : Writes [] [] o o
  | file {t : NamedType} {role : Role} {types : List (NamedType × Role)} {path : Path}
      {content : String} {files : List Path} {o o₁ o₂ : σ} :
      g.fileOf ctx env store t role = .ok (path, content) →
      outcome (ctx.sink.write path content) o = (.ok (), o₁) → Writes types files o₁ o₂ →
      Writes ((t, role) :: types) (path :: files) o o₂

/-- The file of a type is not rendered, which changes nothing, or it is not written. -/
inductive Breaks (t : NamedType) (role : Role) (fault : Fault) (o : σ) : σ → Prop
  | unrendered : g.fileOf ctx env store t role = .error fault → Breaks t role fault o o
  | unwritten {path : Path} {content : String} {o' : σ} :
      g.fileOf ctx env store t role = .ok (path, content) →
      outcome (ctx.sink.write path content) o = (.error fault, o') → Breaks t role fault o o'

variable {g ctx env store}

theorem outcome_renderType_of_ok {t : NamedType} {role : Role} {path : Path} {content : String}
    (h : g.fileOf ctx env store t role = .ok (path, content)) (w : Workshop σ) :
    outcome (g.renderType ctx env store t role) w =
      ((outcome (ctx.sink.write path content) w.output).1.map fun _ => path,
        { w with output := (outcome (ctx.sink.write path content) w.output).2 }) := by
  unfold renderType
  rw [outcome_liftM_bind, h]
  dsimp only
  rw [outcome_bind, outcome_onOutput]
  rcases outcome (ctx.sink.write path content) w.output with ⟨_ | _, o⟩ <;> rfl

theorem outcome_renderType_of_error {t : NamedType} {role : Role} {fault : Fault}
    (h : g.fileOf ctx env store t role = .error fault) (w : Workshop σ) :
    outcome (g.renderType ctx env store t role) w = (.error fault, w) := by
  unfold renderType
  rw [outcome_liftM_bind, h]

variable (g ctx env store) in
/-- A type is rendered and written, or it breaks the run. -/
theorem outcome_renderType (t : NamedType) (role : Role) (w : Workshop σ) :
    (∃ path content o, g.fileOf ctx env store t role = .ok (path, content) ∧
      outcome (ctx.sink.write path content) w.output = (.ok (), o) ∧
      outcome (g.renderType ctx env store t role) w = (.ok path, { w with output := o })) ∨
    ∃ fault o, Breaks g ctx env store t role fault w.output o ∧
      outcome (g.renderType ctx env store t role) w = (.error fault, { w with output := o }) := by
  cases hfile : g.fileOf ctx env store t role with
  | error fault =>
      exact Or.inr ⟨fault, w.output, .unrendered hfile, outcome_renderType_of_error hfile w⟩
  | ok file =>
      obtain ⟨path, content⟩ := file
      have houtcome := outcome_renderType_of_ok hfile w
      rcases hwrite : outcome (ctx.sink.write path content) w.output with ⟨_ | _, o⟩
      · rw [hwrite] at houtcome
        exact Or.inr ⟨_, o, .unwritten hfile hwrite, houtcome⟩
      · rw [hwrite] at houtcome
        exact Or.inl ⟨path, content, o, rfl, hwrite, houtcome⟩

variable (g ctx env store) in
/-- Either all types are written, or one of them breaks the run and those before it are written. -/
theorem outcome_renderTypes (types : List (NamedType × Role)) : ∀ w : Workshop σ,
    (∃ files o, Writes g ctx env store types files w.output o ∧
      outcome (g.renderTypes ctx env store types) w = (.ok files, { w with output := o })) ∨
    ∃ done t role rest files o o' fault, types = done ++ (t, role) :: rest ∧
      Writes g ctx env store done files w.output o ∧ Breaks g ctx env store t role fault o o' ∧
      outcome (g.renderTypes ctx env store types) w = (.error fault, { w with output := o' }) := by
  induction types with
  | nil => exact fun w => Or.inl ⟨[], w.output, .none _, rfl⟩
  | cons type rest ih =>
      intro w
      obtain ⟨t, role⟩ := type
      rw [renderTypes]
      rcases outcome_renderType g ctx env store t role w with
        ⟨path, content, o, hfile, hwrite, hfirst⟩ | ⟨fault, o, hbreaks, hfirst⟩
      · rw [outcome_bind_of_ok hfirst]
        -- the others are rendered in the workshop that the first has written in
        rcases ih { w with output := o } with ⟨files, o₂, hwrites, hrest⟩ |
          ⟨done, t', role', rest', files, o₂, o', fault, rfl, hwrites, hbreaks, hrest⟩
        · refine Or.inl ⟨path :: files, o₂, .file hfile hwrite hwrites, ?_⟩
          rw [outcome_bind_of_ok hrest]
          rfl
        · refine Or.inr ⟨(t, role) :: done, t', role', rest', path :: files, o₂, o', fault, rfl,
            .file hfile hwrite hwrites, hbreaks, ?_⟩
          rw [outcome_bind_of_error hrest]
      · refine Or.inr ⟨[], t, role, rest, [], w.output, o, fault, rfl, .none _, hbreaks, ?_⟩
        rw [outcome_bind_of_error hfirst]

/-- After some types are written, the others are. -/
theorem Writes.outcome_append {done : List (NamedType × Role)} {files : List Path} {o o' : σ}
    (h : Writes g ctx env store done files o o') (rest : List (NamedType × Role)) :
    ∀ w : Workshop σ, w.output = o →
      outcome (g.renderTypes ctx env store (done ++ rest)) w =
        outcome (do return files ++ (← g.renderTypes ctx env store rest)) { w with output := o' } := by
  induction h with
  | none o =>
      rintro w rfl
      rw [List.nil_append, outcome_bind]
      rcases outcome (g.renderTypes ctx env store rest) w with ⟨_ | _, w'⟩ <;> rfl
  | @file t role types path content files o o₁ o₂ hfile hwrite _ ih =>
      rintro w rfl
      have hfirst := outcome_renderType_of_ok hfile w
      rw [hwrite] at hfirst
      rw [List.cons_append, renderTypes, outcome_bind_of_ok hfirst, outcome_bind,
        ih { w with output := o₁ } rfl, outcome_bind, outcome_bind]
      rcases outcome (g.renderTypes ctx env store rest) { w with output := o₂ } with ⟨_ | _, w'⟩ <;>
        rfl

end Writing

/-! ## Publishing and calling -/

/-- What a workshop is once the store of a run is published. -/
def published (g : Generator) (store : Store) (w : Workshop σ) : Workshop σ :=
  { w with registry := ⟨w.registry.stores ++ [(g.name, store)]⟩ }

theorem outcome_publish (g : Generator) (store : Store) (w : Workshop σ) :
    outcome (g.publish store) w =
      if w.registry.has g.name then (.error (.setup (.publishedTwice g.name)), w)
      else (.ok (), g.published store w) := by
  unfold publish Registry.publish
  rw [outcome_get_bind, outcome_liftM_bind]
  cases w.registry.has g.name <;> rfl

/-- The answer of a run that calls its command. -/
def callAnswer (ctx : RunContext E σ) (command : String) (o : σ) : Outcome (Option String) := do
  let result ← (outcome (ctx.runner.run command ctx.base) o).1
  match Command.problem? result with
  | some problem => throw (.postCall command problem)
  | none => return some command

/-- What a workshop is once a command is called: the output is what the command makes of it. -/
def called (ctx : RunContext E σ) (command : String) (w : Workshop σ) : Workshop σ :=
  { w with output := (outcome (ctx.runner.run command ctx.base) w.output).2 }

/-- How the stage after the files ends: without a command, without calling it, or with a call, whatever
    comes of that. -/
inductive Calls (g : Generator) (ctx : RunContext E σ) (env : E) (files : List Path)
    (w : Workshop σ) : Except Fault (Option String) → Workshop σ → Prop
  | none : g.config.postCall = none → Calls g ctx env files w (.ok none) w
  | unresolved {fault : Fault} :
      g.commandOf ctx env files = .error fault → Calls g ctx env files w (.error fault) w
  | skipped {command : String} : g.commandOf ctx env files = .ok command →
      ctx.skipPostCalls = true → Calls g ctx env files w (.ok (some command)) w
  | called {command : String} : g.config.postCall.isSome → g.commandOf ctx env files = .ok command →
      ctx.skipPostCalls = false →
      Calls g ctx env files w (callAnswer ctx command w.output) (called ctx command w)

theorem outcome_callAfter {g : Generator} (hpost : g.config.postCall.isSome) (ctx : RunContext E σ)
    (env : E) (files : List Path) (w : Workshop σ) :
    outcome (g.callAfter ctx env files) w = match g.commandOf ctx env files with
      | .error fault => (.error fault, w)
      | .ok command => if ctx.skipPostCalls then (.ok (some command), w)
        else (callAnswer ctx command w.output, called ctx command w) := by
  have hsome : ¬ g.config.postCall.isNone = true := by
    rw [← Option.not_isSome, hpost]
    decide
  unfold callAfter
  rw [if_neg hsome, outcome_liftM_bind]
  cases g.commandOf ctx env files with
  | error fault => rfl
  | ok command =>
      dsimp only
      cases ctx.skipPostCalls with
      | true => rfl
      | false =>
          rw [if_neg Bool.false_ne_true, if_neg Bool.false_ne_true, outcome_bind, outcome_onOutput]
          unfold callAnswer called
          rcases outcome (ctx.runner.run command ctx.base) w.output with ⟨fault | result, o⟩
          · rfl
          · simp only [bind, Except.bind]
            cases Command.problem? result <;> rfl

theorem outcome_callAfter_none {g : Generator} (hpost : g.config.postCall = none)
    (ctx : RunContext E σ) (env : E) (files : List Path) (w : Workshop σ) :
    outcome (g.callAfter ctx env files) w = (.ok none, w) := by
  unfold callAfter
  rw [hpost]
  rfl

theorem callAfter_calls (g : Generator) (ctx : RunContext E σ) (env : E) (files : List Path)
    (w : Workshop σ) : Calls g ctx env files w (outcome (g.callAfter ctx env files) w).1
      (outcome (g.callAfter ctx env files) w).2 := by
  cases hpost : g.config.postCall.isSome with
  | false =>
      have hnone := Option.not_isSome_iff_eq_none.1 (by rw [hpost]; decide)
      rw [outcome_callAfter_none hnone]
      exact .none hnone
  | true =>
      rw [outcome_callAfter hpost]
      cases hcommand : g.commandOf ctx env files with
      | error fault => exact .unresolved hcommand
      | ok command =>
          cases hskip : ctx.skipPostCalls with
          | true => exact .skipped hcommand hskip
          | false => exact .called hpost hcommand hskip

/-- The last stage leaves the stores alone, and the output too unless it calls the command. -/
theorem Calls.leaves {g : Generator} {ctx : RunContext E σ} {env : E} {files : List Path}
    {w w' : Workshop σ} {answer : Except Fault (Option String)}
    (h : Calls g ctx env files w answer w') : w'.registry = w.registry ∧ (w' = w ∨
      g.config.postCall.isSome ∧ ctx.skipPostCalls = false ∧
        ∃ command, g.commandOf ctx env files = .ok command ∧
          w' = Generator.called ctx command w) := by
  cases h with
  | none _ => exact ⟨rfl, Or.inl rfl⟩
  | unresolved _ => exact ⟨rfl, Or.inl rfl⟩
  | skipped _ _ => exact ⟨rfl, Or.inl rfl⟩
  | called hpost hcommand hskip => exact ⟨rfl, Or.inr ⟨hpost, hskip, _, hcommand, rfl⟩⟩

/-! ## How a run ends -/

/-- How a run ends, and what it leaves. -/
inductive Ends (g : Generator) (ctx : RunContext E σ) (w : Workshop σ) :
    Except Fault RunReport → Workshop σ → Prop
  /-- It cannot be prepared, and nothing is done. -/
  | unprepared {fault : Fault} : g.prepare ctx w.registry = .error fault → Ends g ctx w (.error fault) w
  /-- One of the types chosen breaks the run, and those before it are written. -/
  | broken {p : Prepared E} {done rest : List (NamedType × Role)} {t : NamedType} {role : Role}
      {files : List Path} {o o' : σ} {fault : Fault} : g.prepare ctx w.registry = .ok p →
      chosenIn p.planned = done ++ (t, role) :: rest →
      Writes g ctx p.env p.store done files w.output o →
      Breaks g ctx p.env p.store t role fault o o' →
      Ends g ctx w (.error fault) { w with output := o' }
  /-- All files are written, but the name of the generator is taken. -/
  | taken {p : Prepared E} {files : List Path} {o : σ} : g.prepare ctx w.registry = .ok p →
      Writes g ctx p.env p.store (chosenIn p.planned) files w.output o →
      w.registry.has g.name = true →
      Ends g ctx w (.error (.setup (.publishedTwice g.name))) { w with output := o }
  /-- The store is published, and the answer is that of the last stage. -/
  | published {p : Prepared E} {files : List Path} {o : σ}
      {answer : Except Fault (Option String)} {w' : Workshop σ} : g.prepare ctx w.registry = .ok p →
      Writes g ctx p.env p.store (chosenIn p.planned) files w.output o →
      w.registry.has g.name = false →
      Calls g ctx p.env files (g.published p.store { w with output := o }) answer w' →
      Ends g ctx w (answer.map fun command =>
        ⟨g.name, p.store.size, files, skippedIn p.planned, command⟩) w'

/-- Every run ends in one of these ways. -/
theorem run_ends (g : Generator) (ctx : RunContext E σ) (w : Workshop σ) :
    Ends g ctx w (outcome (g.run ctx) w).1 (outcome (g.run ctx) w).2 := by
  rw [outcome_run, outcome_liftM_bind]
  cases hprepare : g.prepare ctx w.registry with
  | error fault => exact .unprepared hprepare
  | ok p =>
      dsimp only [complete]
      rcases outcome_renderTypes g ctx p.env p.store (chosenIn p.planned) w with
        ⟨files, o, hwrites, hrender⟩ |
        ⟨done, t, role, rest, files, o, o', fault, hchosen, hwrites, hbreaks, hrender⟩
      · rw [outcome_bind_of_ok hrender]
        have hpublish := outcome_publish g p.store { w with output := o }
        cases hhas : w.registry.has g.name with
        | true =>
            rw [if_pos hhas] at hpublish
            rw [outcome_bind_of_error hpublish]
            exact .taken hprepare hwrites hhas
        | false =>
            rw [if_neg (by simp [hhas])] at hpublish
            rw [outcome_bind_of_ok hpublish, outcome_bind]
            have hends := Ends.published hprepare hwrites hhas (callAfter_calls g ctx p.env files _)
            generalize outcome (g.callAfter ctx p.env files)
              (g.published p.store { w with output := o }) = call at hends
            obtain ⟨_ | _, w'⟩ := call <;> exact hends
      · rw [outcome_bind_of_error hrender]
        exact .broken hprepare hchosen hwrites hbreaks

/-- A run that succeeds has gone through all stages. -/
theorem stages_of_run {report : RunReport} (h : outcome (g.run ctx) w = (.ok report, w')) :
    ∃ p files o command, g.prepare ctx w.registry = .ok p ∧
      Writes g ctx p.env p.store (chosenIn p.planned) files w.output o ∧
      w.registry.has g.name = false ∧
      Calls g ctx p.env files (g.published p.store { w with output := o }) (.ok command) w' ∧
      report = ⟨g.name, p.store.size, files, skippedIn p.planned, command⟩ := by
  have hends := run_ends g ctx w
  rw [h] at hends
  generalize hanswer : Except.ok report = answer at hends
  dsimp only at hends
  cases hends with
  | unprepared _ => cases hanswer
  | broken _ _ _ _ => cases hanswer
  | taken _ _ _ => cases hanswer
  | @published p files o call _ hprepare hwrites hfree hcalls =>
      cases call with
      | error fault => cases hanswer
      | ok command =>
          exact ⟨p, files, o, command, hprepare, hwrites, hfree, hcalls, Except.ok.inj hanswer⟩

end Generator

end AvroCodegen
