import AvroCodegen.Proofs.RunStages

set_option autoImplicit false

/-! # Where files are

Files are written by paths, but two paths can lead to one place. What a sink keeps is looked up by way of
its places: a `Shelf` says to which place a path leads, and which text is there. A sink keeps what is
written if a file that it has written without failing changes one place only (`Shelf.Puts`). Both sinks
of an `Output` do: in memory paths with the same steps lead to one place, on the disk paths that go
through its directories to the same names, and the directories that a file needs come with it. -/

namespace AvroCodegen

open Acting

/-! ## Shelves -/

/-- How files are found again: the place that a path leads to, and the text of the file at a place. -/
structure Shelf (κ σ : Type) where
  place? : Path → σ → Option κ
  held? : κ → σ → Option String

namespace Shelf

variable {κ σ : Type} [DecidableEq κ]

/-- The text of the file that a path leads to. -/
def read? (shelf : Shelf κ σ) (p : Path) (o : σ) : Option String :=
  (shelf.place? p o).bind fun k => shelf.held? k o

/-- What a file that is written changes: there is its text at its place, and elsewhere nothing else. -/
structure Puts (shelf : Shelf κ σ) (p : Path) (content : String) (o o' : σ) : Prop where
  place : (shelf.place? p o').isSome
  places : ∀ q k, shelf.place? q o = some k → shelf.place? q o' = some k
  held : ∀ k, shelf.held? k o' =
    if shelf.place? p o' = some k then some content else shelf.held? k o

end Shelf

namespace Sink

variable {κ σ : Type} [DecidableEq κ]

/-- Every file that a sink writes without failing is put on the shelf. -/
def Keeps (s : Sink σ) (shelf : Shelf κ σ) : Prop :=
  ∀ p content o o', outcome (s.write p content) o = (.ok (), o') → shelf.Puts p content o o'

/-- A sink writes every file without failing. -/
def Accepts (s : Sink σ) : Prop :=
  ∀ p content o, ∃ o', outcome (s.write p content) o = (.ok (), o')

end Sink

/-! ## Trees -/

namespace FileTree

variable {tree tree' tree₁ tree₂ : FileTree} {place next last : List String} {step : Path.Step}
  {p : Path}

theorem entry?_nil (tree : FileTree) : tree.entry? [] = some .directory :=
  rfl

theorem entry?_set (tree : FileTree) {place : List String} (hplace : place ≠ []) (entry : FileEntry)
    (other : List String) :
    entry? (tree.set place entry) other = if other = place then some entry else tree.entry? other := by
  unfold entry? set
  by_cases hnil : other = []
  · rw [if_pos hnil, if_pos hnil, if_neg (hnil ▸ hplace.symm)]
  rw [if_neg hnil, if_neg hnil, List.find?_append]
  by_cases hother : other = place
  · subst hother
    rw [if_pos rfl, List.find?_eq_none.2 (by simp)]
    simp
  · have hsame : (fun e : List String × FileEntry => decide
        (decide (e.1 ≠ place) = true ∧ decide (e.1 = other) = true)) =
          fun e => decide (e.1 = other) := by
      funext e
      by_cases he : e.1 = other
      · simp [he, hother]
      · simp [he]
    rw [if_neg hother, List.find?_filter, hsame]
    simp [Ne.symm hother]

/-! ### Going through a tree -/

/-- Directories stay what they are. -/
def Keeps (tree tree' : FileTree) : Prop :=
  ∀ place, tree.entry? place = some .directory → tree'.entry? place = some .directory

theorem Keeps.trans (h : Keeps tree tree₁) (h' : Keeps tree₁ tree₂) : Keeps tree tree₂ :=
  fun place hplace => h' place (h place hplace)

theorem keeps_set {entry : FileEntry} (hplace : tree.entry? place ≠ some .directory) :
    Keeps tree (tree.set place entry) := by
  intro other hother
  have hne : place ≠ [] := fun hnil => hplace (hnil ▸ entry?_nil tree)
  have hother' : other ≠ place := by
    rintro rfl
    exact hplace hother
  rw [entry?_set tree hne, if_neg hother']
  exact hother

/-- A step other than to the root is from a directory. -/
theorem entry?_of_move (hstep : step ≠ .root) (h : tree.move place step = .ok next) :
    tree.entry? place = some .directory := by
  unfold move at h
  split at h
  · exact absurd rfl hstep
  · split at h
    · cases h
    · cases h
    · next hentry => exact hentry

/-- A step from a directory leads to the same place in every tree that has the directory. -/
theorem move_congr (h : tree.entry? place = some .directory)
    (h' : tree'.entry? place = some .directory) (step : Path.Step) :
    tree'.move place step = tree.move place step := by
  cases step <;> simp only [move, h, h']

theorem move_of_keeps (hkeeps : Keeps tree tree') (h : tree.move place step = .ok next) :
    tree'.move place step = .ok next := by
  by_cases hstep : step = .root
  · subst hstep
    exact h
  · have hplace := entry?_of_move hstep h
    rw [move_congr hplace (hkeeps place hplace)]
    exact h

theorem foldlM_move_of_keeps (hkeeps : Keeps tree tree') (steps : List Path.Step) :
    ∀ {place}, steps.foldlM tree.move place = .ok last → steps.foldlM tree'.move place = .ok last := by
  induction steps with
  | nil => exact fun h => h
  | cons step rest ih =>
      intro place h
      rw [List.foldlM_cons] at h ⊢
      obtain ⟨next, hmove, h⟩ := Answer.of_bind_ok h
      rw [Answer.bind_of_ok (move_of_keeps hkeeps hmove)]
      exact ih h

theorem locate_of_keeps (hkeeps : Keeps tree tree') (h : tree.locate p = .ok place) :
    tree'.locate p = .ok place :=
  foldlM_move_of_keeps hkeeps (Path.steps p) h

/-! ### Making directories -/

/-- Directories are added, and nothing else changes. -/
structure Makes (tree tree' : FileTree) : Prop where
  keeps : Keeps tree tree'
  files : ∀ place content,
    tree'.entry? place = some (.file content) ↔ tree.entry? place = some (.file content)

theorem Makes.refl (tree : FileTree) : Makes tree tree :=
  ⟨fun _ h => h, fun _ _ => Iff.rfl⟩

theorem Makes.trans (h : Makes tree tree₁) (h' : Makes tree₁ tree₂) : Makes tree tree₂ :=
  ⟨h.keeps.trans h'.keeps, fun place content => (h'.files place content).trans (h.files place content)⟩

theorem makes_set (h : tree.entry? place = none) : Makes tree (tree.set place .directory) := by
  have hne : place ≠ [] := by
    rintro rfl
    cases h
  refine ⟨keeps_set (by simp [h]), fun other content => ?_⟩
  rw [entry?_set tree hne]
  split
  · next heq =>
      rw [heq, h]
      exact ⟨fun h => (nomatch h), fun h => (nomatch h)⟩
  · exact Iff.rfl

theorem makes_of_makeFrom (steps : List Path.Step) : ∀ {tree made place},
    tree.makeFrom made place steps = .ok tree' → Makes tree tree' := by
  induction steps with
  | nil =>
      intro tree made place h
      rw [← Except.ok.inj h]
      exact .refl tree
  | cons step rest ih =>
      intro tree made place h
      obtain ⟨next, _, h⟩ := Answer.of_bind_ok h
      split at h
      · exact ih h
      · cases h
      · next hnone => exact (makes_set hnone).trans (ih h)

/-! ### Writing a file -/

/-- A file can be put at a place. -/
structure Open (tree : FileTree) (place : List String) : Prop where
  entry : tree.entry? place ≠ some .directory
  parent : tree.entry? place.dropLast = some .directory

theorem writeFile_eq_ok_iff {content : ByteArray} : tree.writeFile p content = .ok tree' ↔
    ∃ place, tree.locate p = .ok place ∧ Path.wantsDirectory p = false ∧ tree.Open place ∧
      tree' = tree.set place (.file content) := by
  unfold writeFile
  constructor
  · intro h
    obtain ⟨place, hlocate, h⟩ := Answer.of_bind_ok h
    split at h
    · cases h
    · next hwants =>
        split at h
        · cases h
        · next hentry =>
            split at h
            · next hparent =>
                exact ⟨place, hlocate, Bool.eq_false_iff.2 hwants, ⟨hentry, hparent⟩,
                  (Except.ok.inj h).symm⟩
            · cases h
            · cases h
  · rintro ⟨place, hlocate, hwants, hopen, rfl⟩
    rw [Answer.bind_of_ok hlocate, if_neg (by simp [hwants])]
    split
    · next hentry => exact absurd hentry hopen.entry
    · rw [hopen.parent]

/-! ### Reading -/

/-- The text of the file at a place. -/
def text? (tree : FileTree) (place : List String) : Option String :=
  match tree.entry? place with
  | some (.file content) => String.fromUTF8? content
  | _ => none

theorem readText_eq (tree : FileTree) (p : Path) : (tree.readText p).toOption =
    if Path.wantsDirectory p then none else (tree.locate p).toOption.bind tree.text? := by
  unfold readText text?
  cases hlocate : tree.locate p with
  | error problem =>
      have hfind : tree.find p = .error problem := Answer.bind_of_error hlocate _
      rw [Answer.bind_of_error hfind]
      split <;> rfl
  | ok place =>
      unfold find
      rw [Answer.bind_of_ok hlocate]
      simp only [Except.toOption, Option.bind_some]
      cases tree.entry? place with
      | none => cases Path.wantsDirectory p <;> rfl
      | some entry =>
          cases entry with
          | directory => cases Path.wantsDirectory p <;> rfl
          | file content =>
              cases Path.wantsDirectory p with
              | true => rfl
              | false =>
                  simp only [Bool.false_eq_true, if_false, bind, Except.bind]
                  cases String.fromUTF8? content <;> rfl

theorem text?_set (tree : FileTree) (hplace : place ≠ []) (content : String) (other : List String) :
    (tree.set place (.file content.toUTF8)).text? other =
      if other = place then some content else tree.text? other := by
  unfold text?
  rw [entry?_set tree hplace]
  by_cases hother : other = place
  · rw [if_pos hother, if_pos hother]
    exact dif_pos content.isValidUTF8
  · rw [if_neg hother, if_neg hother]

theorem text?_eq_none (h : ∀ content, tree.entry? place ≠ some (.file content)) :
    tree.text? place = none := by
  unfold text?
  split
  · next content hentry => exact absurd hentry (h content)
  · rfl

theorem text?_of_makes (h : Makes tree tree') (place : List String) :
    tree'.text? place = tree.text? place := by
  by_cases hfile : ∃ content, tree.entry? place = some (.file content)
  · obtain ⟨content, hentry⟩ := hfile
    rw [text?, text?, hentry, (h.files place content).2 hentry]
  · have hnone : ∀ content, tree.entry? place ≠ some (.file content) :=
      fun content hentry => hfile ⟨content, hentry⟩
    rw [text?_eq_none hnone, text?_eq_none fun content hentry =>
      hnone content ((h.files place content).1 hentry)]

end FileTree

/-! ## Memory -/

/-- In memory a place is told by the steps of a path. -/
def Shelf.memory : Shelf (List Path.Step) Output where
  place? p _ := some (Path.steps p)
  held? k o := (o.memory.find? fun f => Path.steps f.1 = k).map Prod.snd

theorem Output.find?_place (p : Path) (content : String) (k : List Path.Step)
    (files : List (Path × String)) :
    ((place p content files).find? fun f => Path.steps f.1 = k).map Prod.snd =
      if Path.steps p = k then some content
      else (files.find? fun f => Path.steps f.1 = k).map Prod.snd := by
  induction files with
  | nil => by_cases hk : Path.steps p = k <;> simp [place, hk]
  | cons f rest ih =>
      obtain ⟨q, c⟩ := f
      unfold place
      by_cases hsame : Path.same q p
      · have hq : Path.steps q = Path.steps p := by simpa [Path.same] using hsame
        by_cases hk : Path.steps p = k <;> simp [hsame, hq, hk]
      · have hq : Path.steps q ≠ Path.steps p := by simpa [Path.same] using hsame
        rw [if_neg hsame]
        split
        · by_cases hk : Path.steps p = k <;> simp [hk]
        · by_cases hk : Path.steps q = k
          · have hp : Path.steps p ≠ k := fun h => hq (hk.trans h.symm)
            simp [hk, hp]
          · simpa [hk] using ih

namespace Sink

theorem outcome_memory (p : Path) (content : String) (o : Output) :
    outcome (memory.write p content) o =
      (.ok (), { o with memory := Output.place p content o.memory }) := by
  unfold write
  cases Path.parent? p <;> rfl

theorem accepts_memory : memory.Accepts :=
  fun p content o => ⟨_, outcome_memory p content o⟩

theorem keeps_memory : memory.Keeps Shelf.memory := by
  intro p content o o' h
  rw [outcome_memory] at h
  obtain rfl := (Prod.mk.inj h).2
  refine ⟨rfl, fun _ _ hq => hq, fun k => ?_⟩
  simp only [Shelf.memory, Option.some.injEq]
  exact Output.find?_place p content k o.memory

end Sink

/-! ## The disk -/

/-- On the disk a place is told by the names that lead to it from the root. -/
def Shelf.disk : Shelf (List String) Output where
  place? p o := if Path.wantsDirectory p then none else (o.disk.locate p).toOption
  held? k o := o.disk.text? k

namespace Shelf

/-- What is read is what the tree gives for the path. -/
theorem read?_disk (p : Path) (o : Output) : disk.read? p o = (o.disk.readText p).toOption := by
  rw [FileTree.readText_eq]
  simp only [read?, disk]
  cases Path.wantsDirectory p <;> rfl

theorem place?_disk_eq_some_iff {p : Path} {o : Output} {k : List String} :
    disk.place? p o = some k ↔ Path.wantsDirectory p = false ∧ o.disk.locate p = .ok k := by
  simp only [disk]
  cases Path.wantsDirectory p with
  | true => simp
  | false =>
      cases o.disk.locate p with
      | error problem => simp [Except.toOption]
      | ok place =>
          exact ⟨fun h => ⟨rfl, congrArg Except.ok (Option.some.inj h)⟩,
            fun h => congrArg some (Except.ok.inj h.2)⟩

end Shelf

theorem Output.of_changing_ok {path : Path} {change : FileTree → Except FileProblem FileTree}
    {o o' : Output} (h : outcome (changing path change) o = (.ok (), o')) :
    ∃ disk, change o.disk = .ok disk ∧ o' = { o with disk := disk } := by
  unfold outcome changing at h
  simp only [ExceptT.run_mk] at h
  cases hchange : change o.disk with
  | error problem =>
      rw [hchange] at h
      cases (Prod.mk.inj h).1
  | ok disk =>
      rw [hchange] at h
      exact ⟨disk, rfl, (Prod.mk.inj h).2.symm⟩

namespace Sink

variable {p : Path} {content : String} {o o' : Output}

theorem disk_makeDirectory (directory : Path) : disk.makeDirectory directory =
    Output.changing directory fun tree => tree.makeDirectories directory :=
  rfl

theorem disk_writeFile (p : Path) (content : String) : disk.writeFile p content =
    Output.changing p fun tree => tree.writeFile p content.toUTF8 :=
  rfl

theorem outcome_disk (h : outcome (disk.write p content) o = (.ok (), o')) : ∃ tree k,
    FileTree.Makes o.disk tree ∧ tree.locate p = .ok k ∧ Path.wantsDirectory p = false ∧
      tree.Open k ∧ o' = { o with disk := tree.set k (.file content.toUTF8) } := by
  have hmade : ∃ tree, FileTree.Makes o.disk tree ∧
      outcome (disk.writeFile p content) { o with disk := tree } = (.ok (), o') := by
    unfold write at h
    cases hparent : Path.parent? p with
    | none =>
        rw [hparent] at h
        exact ⟨o.disk, .refl _, h⟩
    | some directory =>
        rw [hparent] at h
        obtain ⟨_, o₁, hmake, hwrite⟩ := of_outcome_bind_ok h
        rw [disk_makeDirectory] at hmake
        obtain ⟨tree, htree, rfl⟩ := Output.of_changing_ok hmake
        exact ⟨tree, FileTree.makes_of_makeFrom _ htree, hwrite⟩
  obtain ⟨tree, hmakes, hwrite⟩ := hmade
  rw [disk_writeFile] at hwrite
  obtain ⟨tree', htree', rfl⟩ := Output.of_changing_ok hwrite
  obtain ⟨k, hlocate, hwants, hopen, rfl⟩ := FileTree.writeFile_eq_ok_iff.1 htree'
  exact ⟨tree, k, hmakes, hlocate, hwants, hopen, rfl⟩

theorem keeps_disk : disk.Keeps Shelf.disk := by
  intro p content o o' h
  obtain ⟨tree, k, hmakes, hlocate, hwants, hopen, rfl⟩ := outcome_disk h
  have hk : k ≠ [] := by
    rintro rfl
    exact hopen.entry rfl
  have hset : FileTree.Keeps tree (tree.set k (.file content.toUTF8)) := FileTree.keeps_set hopen.entry
  have hplace : Shelf.disk.place? p { o with disk := tree.set k (.file content.toUTF8) } = some k :=
    Shelf.place?_disk_eq_some_iff.2 ⟨hwants, FileTree.locate_of_keeps hset hlocate⟩
  refine ⟨by rw [hplace]; rfl, fun q k' hq => ?_, fun k' => ?_⟩
  · obtain ⟨hq, hlocate'⟩ := Shelf.place?_disk_eq_some_iff.1 hq
    exact Shelf.place?_disk_eq_some_iff.2
      ⟨hq, FileTree.locate_of_keeps (hmakes.keeps.trans hset) hlocate'⟩
  · have htext := FileTree.text?_set tree hk content k'
    have hsame := FileTree.text?_of_makes hmakes k'
    rw [hplace]
    by_cases heq : k' = k
    · exact (htext.trans (if_pos heq)).trans (if_pos (congrArg some heq.symm)).symm
    · refine (htext.trans ((if_neg heq).trans hsame)).trans (if_neg fun hother => heq ?_).symm
      exact (Option.some.inj hother).symm

end Sink

end AvroCodegen
