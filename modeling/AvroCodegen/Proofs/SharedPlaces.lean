import AvroCodegen.Proofs.FilePlaces
import AvroCodegen.Proofs.RunEffects

set_option autoImplicit false

/-! # Files that share a place

The templates of a generator may lead two entities to the same place. Nothing looks for that: the file
that is written later is put in the stead of the one before, and the run goes on. `Run.last_stays` says
what a sink that keeps what is written holds then, when all files are written and before anything is
called: at each place the text of the last file that was led there, and what was there before at all
others. So all texts are kept just when files that share a place have the same text. -/

namespace AvroCodegen

open Acting

namespace Shelf

variable {κ σ : Type} [DecidableEq κ] {shelf : Shelf κ σ} {o o₁ o' : σ} {files : List (Path × String)}

/-- The text of the last file for a place. -/
def lastAt (shelf : Shelf κ σ) (o : σ) (files : List (Path × String)) (k : κ) : Option String :=
  (files.reverse.find? fun f => shelf.place? f.1 o = some k).map Prod.snd

theorem lastAt_cons (shelf : Shelf κ σ) (o : σ) (f : Path × String) (files : List (Path × String))
    (k : κ) : shelf.lastAt o (f :: files) k =
      (shelf.lastAt o files k).or (if shelf.place? f.1 o = some k then some f.2 else none) := by
  unfold lastAt
  rw [List.reverse_cons, List.find?_append, Option.map_or]
  by_cases hk : shelf.place? f.1 o = some k <;> simp [hk]

theorem exists_of_lastAt {k : κ} {text : String} (h : shelf.lastAt o files k = some text) :
    ∃ f ∈ files, shelf.place? f.1 o = some k ∧ f.2 = text := by
  obtain ⟨f, hf, htext⟩ := Option.map_eq_some_iff.1 h
  exact ⟨f, List.mem_reverse.1 (List.mem_of_find?_eq_some hf), by simpa using List.find?_some hf, htext⟩

theorem isSome_lastAt {k : κ} {f : Path × String} (hf : f ∈ files)
    (hk : shelf.place? f.1 o = some k) : (shelf.lastAt o files k).isSome = true := by
  rw [lastAt, Option.isSome_map, List.find?_isSome]
  exact ⟨f, List.mem_reverse.2 hf, by simpa using hk⟩

/-- What files that are written in order change: at each place the text of the last one is left. -/
structure Gathers (shelf : Shelf κ σ) (files : List (Path × String)) (o o' : σ) : Prop where
  placed : ∀ f ∈ files, (shelf.place? f.1 o').isSome
  places : ∀ q k, shelf.place? q o = some k → shelf.place? q o' = some k
  held : ∀ k, shelf.held? k o' = (shelf.lastAt o' files k).or (shelf.held? k o)

theorem Gathers.nil (shelf : Shelf κ σ) (o : σ) : Gathers shelf [] o o where
  placed := by simp
  places := fun _ _ h => h
  held := fun _ => rfl

theorem Gathers.cons {p : Path} {content : String} (hfirst : shelf.Puts p content o o₁)
    (hrest : Gathers shelf files o₁ o') : Gathers shelf ((p, content) :: files) o o' := by
  obtain ⟨k, hplace⟩ := Option.isSome_iff_exists.1 hfirst.place
  have hplace' := hrest.places p k hplace
  refine ⟨List.forall_mem_cons.2 ⟨by rw [hplace']; rfl, hrest.placed⟩,
    fun q k hq => hrest.places q k (hfirst.places q k hq), fun k' => ?_⟩
  -- the first file is where it was when it was written
  rw [hrest.held, hfirst.held, lastAt_cons, hplace', hplace, Option.or_assoc]
  split <;> rfl

/-- All texts are kept just when files that share a place have the same text. -/
theorem Gathers.read?_iff (h : Gathers shelf files o o') :
    (∀ f ∈ files, shelf.read? f.1 o' = some f.2) ↔ ∀ f ∈ files, ∀ f' ∈ files,
      shelf.place? f.1 o' = shelf.place? f'.1 o' → f.2 = f'.2 := by
  constructor
  · intro hkept f hf f' hf' hsame
    have hread := hkept f hf
    rw [read?, hsame] at hread
    exact Option.some.inj (hread.symm.trans (hkept f' hf'))
  · intro hsame f hf
    obtain ⟨k, hk⟩ := Option.isSome_iff_exists.1 (h.placed f hf)
    obtain ⟨text, htext⟩ := Option.isSome_iff_exists.1 (isSome_lastAt hf hk)
    obtain ⟨f', hf', hk', htext'⟩ := exists_of_lastAt htext
    rw [read?, hk, Option.bind_some, h.held, htext, ← htext', hsame f hf f' hf' (hk.trans hk'.symm)]
    rfl

end Shelf

/-! ## The files of a run -/

namespace Generator

variable {E κ σ : Type} [TemplateEngine E] {g : Generator} {ctx : RunContext E σ} {env : E}
  {store : Store} {types : List (NamedType × Role)}

/-- Some types are rendered, each into a file with its path and its text. -/
def Yields (g : Generator) (ctx : RunContext E σ) (env : E) (store : Store)
    (types : List (NamedType × Role)) (files : List (Path × String)) : Prop :=
  List.Forall₂ (fun c f => g.fileOf ctx env store c.1 c.2 = .ok f) types files

theorem gathers_of_writes [DecidableEq κ] {shelf : Shelf κ σ} (hkeeps : ctx.sink.Keeps shelf)
    {paths : List Path} {o o' : σ} (h : Writes g ctx env store types paths o o') :
    ∃ files : List (Path × String), Yields g ctx env store types files ∧
      paths = files.map Prod.fst ∧ shelf.Gathers files o o' := by
  induction h with
  | none o => exact ⟨[], .nil, rfl, .nil _ o⟩
  | @file t role types path content paths o o₁ o₂ hfile hwrite _ ih =>
      obtain ⟨files, hfiles, rfl, hgathers⟩ := ih
      exact ⟨(path, content) :: files, .cons hfile hfiles, rfl,
        .cons (hkeeps path content o o₁ hwrite) hgathers⟩

/-- A sink that accepts every file makes no run fail for a file that is rendered. -/
theorem exists_writes (haccepts : ctx.sink.Accepts) {files : List (Path × String)}
    (h : Yields g ctx env store types files) :
    ∀ o, ∃ o', Writes g ctx env store types (files.map Prod.fst) o o' := by
  induction h with
  | nil => exact fun o => ⟨o, .none o⟩
  | @cons c f types files hfile _ ih =>
      intro o
      obtain ⟨o₁, hwrite⟩ := haccepts f.1 f.2 o
      obtain ⟨o₂, hrest⟩ := ih o₁
      exact ⟨o₂, .file hfile hwrite hrest⟩

end Generator

namespace Run

variable {E κ σ : Type} [TemplateEngine E] [DecidableEq κ]

/-- What a run that succeeds leaves of the files of the types that it renders, each with its path and
    its text, in the output as it is when all of them are written. -/
structure Leaves (r : Run E σ) (shelf : Shelf κ σ) (w : Workshop σ) (report : RunReport)
    (p : Prepared E) (files : List (Path × String)) (o : σ) : Prop where
  prepared : r.prepare w = .ok p
  rendered : Generator.Yields r.generator r.context p.env p.store r.eligible files
  reported : report.files = files.map Prod.fst
  written : r.Writes p r.eligible report.files w.output o
  /-- Each path that is reported leads to a place. -/
  placed : ∀ f ∈ files, (shelf.place? f.1 o).isSome
  /-- At each place is the text of the last file for it, or what was there before the run. -/
  held : ∀ k, shelf.held? k o = (shelf.lastAt o files k).or (shelf.held? k w.output)
  /-- All texts are kept just when files that share a place have the same text. -/
  kept_iff : (∀ f ∈ files, shelf.read? f.1 o = some f.2) ↔
    ∀ f ∈ files, ∀ f' ∈ files, shelf.place? f.1 o = shelf.place? f'.1 o → f.2 = f'.2
  /-- The run ends with this output, unless it calls its command, which may change it. -/
  after : r.after w = r.published p w o ∨ r.generator.config.postCall.isSome ∧
    r.context.skipPostCalls = false ∧ ∃ command,
      r.generator.commandOf r.context p.env report.files = .ok command ∧
      r.after w = Generator.called r.context command (r.published p w o)

/-- **The last file stays.** When a run that succeeds has written its files, a sink that keeps what is
    written holds at each place the text of the last file, in scope order, whose path leads there, and
    nothing else that was not there before. And files that share a place make no run fail by that: with a
    sink that accepts every file, all that is rendered is written, and without a command the run
    succeeds. -/
theorem last_stays (r : Run E σ) {shelf : Shelf κ σ} (hkeeps : r.context.sink.Keeps shelf)
    (w : Workshop σ) :
    (∀ report, r.answer w = .ok report → ∃ p files o, r.Leaves shelf w report p files o) ∧
    (r.context.sink.Accepts → ∀ p files, r.prepare w = .ok p →
      Generator.Yields r.generator r.context p.env p.store r.eligible files →
      ∃ o, r.Writes p r.eligible (files.map Prod.fst) w.output o ∧
        (w.registry.has r.name = false → r.generator.config.postCall = none →
          ∃ report, r.answer w = .ok report ∧ r.after w = r.published p w o)) := by
  refine ⟨fun report h => ?_, fun haccepts p files hprepare hfiles => ?_⟩
  · have houtcome : outcome (r.generator.run r.context) w = (.ok report, r.after w) := Prod.ext h rfl
    obtain ⟨p, paths, o, command, hprepare, hwrites, _, hcalls, rfl⟩ :=
      Generator.stages_of_run houtcome
    rw [chosenIn_of_prepare hprepare] at hwrites
    obtain ⟨files, hfiles, hpaths, hgathers⟩ := Generator.gathers_of_writes hkeeps hwrites
    exact ⟨p, files, o, hprepare, hfiles, hpaths, hwrites, hgathers.placed, hgathers.held,
      hgathers.read?_iff, hcalls.leaves.2⟩
  · obtain ⟨o, hwrites⟩ := Generator.exists_writes haccepts hfiles w.output
    refine ⟨o, hwrites, fun hfree hnone => ?_⟩
    exact ⟨_, effects_published hprepare hwrites hfree hnone⟩

/-! ## Two entities in one file

The record is led where the enum is, and its text is all that is left. -/

open Generator

/-- A run that leads an enum and a record to the same place. -/
def sharedRun (sink : Sink Output) : Run :=
  ⟨⟨⟨"shared", none, ⟨none, none, none, none, some "all"⟩, none, some ⟨none, some ["x.Colour"]⟩, none⟩,
    .ofSources "here" [("enum", "kind"), ("record", "plain")]⟩, { treeContext with sink := sink }⟩

/-- The run succeeds with both sinks of the program. -/
theorem report_shared : ∀ sink ∈ [Sink.disk, Sink.memory],
    ((sharedRun sink).answer emptyWorkshop).toOption.map RunReport.files =
      some ["/out/x/all", "/out/x/all"] := by
  decide +kernel

theorem last_stays_shared :
    (Sink.disk.Keeps Shelf.disk ∧ ∃ report p files o,
      (sharedRun .disk).answer emptyWorkshop = .ok report ∧
      report.files = ["/out/x/all", "/out/x/all"] ∧
      (sharedRun .disk).Leaves Shelf.disk emptyWorkshop report p files o ∧
      (((sharedRun .disk).after emptyWorkshop).output.disk.readText "/out/x/all").toOption =
        some "plain") ∧
    Sink.memory.Keeps Shelf.memory ∧ Sink.memory.Accepts ∧
    ∃ (p : Prepared Environment) (files : List (Path × String)) (o : Output) (report : RunReport),
      (sharedRun .memory).prepare emptyWorkshop = .ok p ∧
      files.map Prod.fst = ["/out/x/all", "/out/x/all"] ∧
      (sharedRun .memory).Writes p (sharedRun .memory).eligible (files.map Prod.fst)
        emptyWorkshop.output o ∧
      (sharedRun .memory).answer emptyWorkshop = .ok report ∧
      (sharedRun .memory).after emptyWorkshop = (sharedRun .memory).published p emptyWorkshop o := by
  have hdisk := last_stays (sharedRun .disk) Sink.keeps_disk emptyWorkshop
  have hmemory := last_stays (sharedRun .memory) Sink.keeps_memory emptyWorkshop
  obtain ⟨report, hreport, hpaths⟩ := Option.map_eq_some_iff.1 (report_shared .disk (by simp))
  obtain ⟨report', hreport', hpaths'⟩ := Option.map_eq_some_iff.1 (report_shared .memory (by simp))
  obtain ⟨p, files, o, hleaves⟩ := hdisk.1 report (Answer.eq_ok_of_toOption hreport)
  obtain ⟨p', files', o', hleaves'⟩ := hmemory.1 report' (Answer.eq_ok_of_toOption hreport')
  obtain ⟨o'', hwrites, hends⟩ :=
    hmemory.2 Sink.accepts_memory p' files' hleaves'.prepared hleaves'.rendered
  obtain ⟨report'', hanswer, hafter⟩ := hends rfl rfl
  have htext : Shelf.disk.read? "/out/x/all" ((sharedRun .disk).after emptyWorkshop).output =
      some "plain" := by decide +kernel
  rw [Shelf.read?_disk] at htext
  exact ⟨⟨Sink.keeps_disk, report, p, files, o, Answer.eq_ok_of_toOption hreport, hpaths, hleaves,
    htext⟩, Sink.keeps_memory, Sink.accepts_memory, p', files', o'', report'',
    hleaves'.prepared, hleaves'.reported.symm.trans hpaths', hwrites, hanswer, hafter⟩

theorem loses_text : treeContext.scope.Nodup ∧ emptyWorkshop.output.memory = [] ∧ ∃ report p,
    (sharedRun .memory).answer emptyWorkshop = .ok report ∧
    (sharedRun .memory).prepare emptyWorkshop = .ok p ∧
    ((sharedRun .memory).eligible.map fun c => ((sharedRun .memory).generator.fileOf
      (sharedRun .memory).context p.env p.store c.1 c.2).toOption) =
        [some ("/out/x/all", "kind"), some ("/out/x/all", "plain")] ∧
    report.files = ["/out/x/all", "/out/x/all"] ∧
    ((sharedRun .memory).after emptyWorkshop).output.memory = [("/out/x/all", "plain")] := by
  have hfiles : ((sharedRun .memory).prepare emptyWorkshop).toOption.map (fun p =>
      (sharedRun .memory).eligible.map fun c => ((sharedRun .memory).generator.fileOf
        (sharedRun .memory).context p.env p.store c.1 c.2).toOption) =
      some [some ("/out/x/all", "kind"), some ("/out/x/all", "plain")] := by decide +kernel
  obtain ⟨report, hreport, hpaths⟩ := Option.map_eq_some_iff.1 (report_shared .memory (by simp))
  obtain ⟨p, hprepare, hfiles⟩ := Option.map_eq_some_iff.1 hfiles
  exact ⟨by decide, rfl, report, p, Answer.eq_ok_of_toOption hreport,
    Answer.eq_ok_of_toOption hprepare, hfiles, hpaths, by decide +kernel⟩

end Run

end AvroCodegen
