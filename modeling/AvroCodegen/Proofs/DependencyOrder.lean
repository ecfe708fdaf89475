import AvroCodegen.Dependency
import Mathlib.Data.List.Nodup
import Mathlib.Logic.Relation

set_option autoImplicit false

/-! # Dependencies come first

`DependencyGraph.flatten` on a graph that is closed under dependencies and has one key per node. The
depth that bounds its recursion is never met: `Flattens` says what the walk does without a bound, and
`flattens_flatten` that this is what is computed. All other results are read off `Flattens`.

The order law needs an invariant on the nodes whose walk has begun but not ended, the `stack`:
everything entered that is off the stack has all its dependencies settled, and each node of the stack
reaches the node being walked. A node off all cycles cannot reach the stack from which it is
recorded, so by then all that it reaches is recorded. Cycles elsewhere do not matter. -/

namespace AvroCodegen

/-- Where everything that is counted still counts, and one thing counts now that did not, the count
    is greater. -/
theorem countP_lt_countP {α : Type} {p q : α → Bool} {l : List α} {a : α} (ha : a ∈ l)
    (hpq : ∀ x ∈ l, p x = true → q x = true) (hq : q a = true) (hp : p a = false) :
    l.countP p < l.countP q := by
  obtain ⟨l₁, l₂, rfl⟩ := List.append_of_mem ha
  have h₁ : l₁.countP p ≤ l₁.countP q :=
    List.countP_mono_left fun x hx => hpq x (List.mem_append_left _ hx)
  have h₂ : l₂.countP p ≤ l₂.countP q :=
    List.countP_mono_left fun x hx => hpq x (by simp [hx])
  simp only [List.countP_append, List.countP_cons, hq, hp]
  simp only [Bool.false_eq_true, if_false, if_true]
  omega

namespace DependencyGraph

variable {ι : Type} (g : DependencyGraph ι)

/-- One node depends directly on another. -/
def Needs (i j : ι) : Prop := j ∈ g.dependencies i

/-- One node depends on another, over one or more steps. -/
def Reaches : ι → ι → Prop := Relation.TransGen g.Needs

/-- The nodes are closed under dependencies, and no two of them have the same key. -/
structure WellKeyed : Prop where
  closed : ∀ i ∈ g.nodes, ∀ j ∈ g.dependencies i, j ∈ g.nodes
  key_inj : ∀ i ∈ g.nodes, ∀ j ∈ g.nodes, g.key i = g.key j → i = j

/-! ## Walking without a bound -/

/-- A walk over some dependencies, whatever its depth: each is recorded, and one that has
    dependencies and was not entered before is walked first. -/
inductive Along : List ι → Walk ι → Walk ι → Prop
  | done (w : Walk ι) : Along [] w w
  | skip {j : ι} {js : List ι} {w w' : Walk ι} :
      g.dependencies j = [] ∨ g.isEntered j w = true →
      Along js (g.record j w) w' → Along (j :: js) w w'
  | enter {j : ι} {js : List ι} {w w₁ w' : Walk ι} :
      g.dependencies j ≠ [] → g.isEntered j w = false →
      Along (g.dependencies j) (g.enter j w) w₁ →
      Along js (g.record j w₁) w' → Along (j :: js) w w'

/-- The walks from some starts, one after the other; a start is not recorded. -/
inductive Flattens : List ι → Walk ι → Walk ι → Prop
  | done (w : Walk ι) : Flattens [] w w
  | skip {i : ι} {is : List ι} {w w' : Walk ι} :
      g.isEntered i w = true → Flattens is w w' → Flattens (i :: is) w w'
  | enter {i : ι} {is : List ι} {w w₁ w' : Walk ι} :
      g.isEntered i w = false → Along g (g.dependencies i) (g.enter i w) w₁ →
      Flattens is w₁ w' → Flattens (i :: is) w w'

variable {g}

/-! ## What was entered and recorded -/

@[simp] theorem entered_record (i : ι) (w : Walk ι) : (g.record i w).entered = w.entered := by
  unfold record
  split <;> rfl

theorem isEntered_iff {i : ι} {w : Walk ι} : g.isEntered i w = true ↔ g.key i ∈ w.entered := by
  simp [isEntered]

@[simp] theorem isEntered_record (i j : ι) (w : Walk ι) :
    g.isEntered i (g.record j w) = g.isEntered i w := by
  simp [isEntered]

theorem isEntered_enter_iff (hg : g.WellKeyed) {i j : ι} (hi : i ∈ g.nodes) (hj : j ∈ g.nodes)
    {w : Walk ι} : g.isEntered i (g.enter j w) = true ↔ i = j ∨ g.isEntered i w = true := by
  simp only [isEntered_iff, enter, List.mem_cons]
  exact or_congr_left ⟨hg.key_inj i hi j hj, fun h => h ▸ rfl⟩

theorem isRecorded_iff (hg : g.WellKeyed) {i : ι} {w : Walk ι} (hi : i ∈ g.nodes)
    (hw : ∀ r ∈ w.recorded, r ∈ g.nodes) : g.isRecorded i w = true ↔ i ∈ w.recorded := by
  simp only [isRecorded, List.any_eq_true, decide_eq_true_eq]
  constructor
  · rintro ⟨j, hj, hkey⟩
    rw [← hg.key_inj j (hw j hj) i hi hkey]
    exact hj
  · intro h
    exact ⟨i, h, rfl⟩

theorem recorded_record (hg : g.WellKeyed) {i : ι} {w : Walk ι} (hi : i ∈ g.nodes)
    (hw : ∀ r ∈ w.recorded, r ∈ g.nodes) :
    (i ∈ w.recorded ∧ (g.record i w).recorded = w.recorded) ∨
      (i ∉ w.recorded ∧ (g.record i w).recorded = w.recorded ++ [i]) := by
  unfold record
  split
  · next h => exact Or.inl ⟨(isRecorded_iff hg hi hw).1 h, rfl⟩
  · next h => exact Or.inr ⟨fun hi' => h ((isRecorded_iff hg hi hw).2 hi'), rfl⟩

theorem recorded_subset_record (i : ι) (w : Walk ι) : w.recorded ⊆ (g.record i w).recorded := by
  unfold record
  split
  · exact List.Subset.refl _
  · exact List.subset_append_left _ _

theorem eq_or_mem_of_mem_record {i r : ι} {w : Walk ι} (h : r ∈ (g.record i w).recorded) :
    r ∈ w.recorded ∨ r = i := by
  unfold record at h
  split at h
  · exact Or.inl h
  · simpa using h

theorem Along.entered_subset {js : List ι} {w w' : Walk ι} (h : g.Along js w w') :
    w.entered ⊆ w'.entered := by
  induction h with
  | done w => exact List.Subset.refl _
  | skip _ _ ih => simpa using ih
  | enter _ _ _ _ ih₁ ih =>
      refine List.Subset.trans ?_ (List.Subset.trans ih₁ (by simpa using ih))
      exact List.subset_cons_self _ _

theorem Along.recorded_subset {js : List ι} {w w' : Walk ι} (h : g.Along js w w') :
    w.recorded ⊆ w'.recorded := by
  induction h with
  | done w => exact List.Subset.refl _
  | skip _ _ ih => exact List.Subset.trans (recorded_subset_record _ _) ih
  | enter _ _ _ _ ih₁ ih =>
      exact List.Subset.trans ih₁ (List.Subset.trans (recorded_subset_record _ _) ih)

theorem Flattens.entered_subset {is : List ι} {w w' : Walk ι} (h : g.Flattens is w w') :
    w.entered ⊆ w'.entered := by
  induction h with
  | done w => exact List.Subset.refl _
  | skip _ _ ih => exact ih
  | enter _ h₁ _ ih =>
      exact List.Subset.trans (List.subset_cons_self _ _) (List.Subset.trans h₁.entered_subset ih)

/-! ## The bound on the depth is never met -/

/-- How many nodes were not entered yet. -/
def unentered (g : DependencyGraph ι) (w : Walk ι) : Nat :=
  g.nodes.countP (fun i => !g.isEntered i w)

theorem unentered_anti {w w' : Walk ι} (h : w.entered ⊆ w'.entered) :
    g.unentered w' ≤ g.unentered w := by
  refine List.countP_mono_left fun i _ hi => ?_
  simp only [Bool.not_eq_true', ← Bool.not_eq_true, isEntered_iff] at hi ⊢
  exact fun hw => hi (h hw)

@[simp] theorem unentered_record (i : ι) (w : Walk ι) :
    g.unentered (g.record i w) = g.unentered w := by
  simp [unentered]

theorem unentered_enter_lt {i : ι} {w : Walk ι} (hi : i ∈ g.nodes)
    (hw : g.isEntered i w = false) : g.unentered (g.enter i w) < g.unentered w := by
  refine countP_lt_countP hi (fun j _ hj => ?_) (by simp [hw]) (by simp [isEntered_enter])
  simp only [Bool.not_eq_true', ← Bool.not_eq_true, isEntered_iff] at hj ⊢
  exact fun hjw => hj (List.mem_cons_of_mem _ hjw)

/-- One dependency of a walk of bounded depth. -/
def visit (g : DependencyGraph ι) (depth : Nat) (w : Walk ι) (j : ι) : Walk ι :=
  g.record j (if (g.dependencies j).isEmpty then w else g.descend depth j w)

theorem descend_of_isEntered {i : ι} {w : Walk ι} (depth : Nat) (h : g.isEntered i w = true) :
    g.descend depth i w = w := by
  cases depth with
  | zero => rfl
  | succ depth => simp [descend, h]

theorem descend_of_not_isEntered {i : ι} {w : Walk ι} (depth : Nat)
    (h : g.isEntered i w = false) :
    g.descend (depth + 1) i w = (g.dependencies i).foldl (g.visit depth) (g.enter i w) := by
  simp only [descend, h]
  rfl

/-- A bound not below the number of nodes still to enter does not show: the walk is the unbounded
    one. -/
theorem along_visit (hg : g.WellKeyed) (depth : Nat) :
    ∀ (js : List ι) (w : Walk ι), (∀ j ∈ js, j ∈ g.nodes) → g.unentered w ≤ depth →
      g.Along js w (js.foldl (g.visit depth) w) := by
  induction depth using Nat.strongRecOn with
  | _ depth ihd =>
    intro js
    induction js with
    | nil => intro w _ _; exact Along.done w
    | cons j js ih =>
        intro w hjs hw
        have hj : j ∈ g.nodes := hjs j (by simp)
        have hrest : ∀ k ∈ js, k ∈ g.nodes := fun k hk => hjs k (by simp [hk])
        rw [List.foldl_cons]
        by_cases hleaf : g.dependencies j = []
        · have hvisit : g.visit depth w j = g.record j w := by simp [visit, hleaf]
          rw [hvisit]
          exact Along.skip (Or.inl hleaf) (ih _ hrest (by rwa [unentered_record]))
        have hne : (g.dependencies j).isEmpty = false := by simp [hleaf]
        cases hent : g.isEntered j w with
        | true =>
            have hvisit : g.visit depth w j = g.record j w := by
              simp [visit, descend_of_isEntered depth hent]
            rw [hvisit]
            exact Along.skip (Or.inr hent) (ih _ hrest (by rwa [unentered_record]))
        | false =>
            -- entering `j` leaves one node less to enter, so the bound may go down by one
            have hlt := unentered_enter_lt hj hent
            obtain ⟨d, rfl⟩ : ∃ d, depth = d + 1 := ⟨depth - 1, by omega⟩
            have hvisit : g.visit (d + 1) w j
                = g.record j ((g.dependencies j).foldl (g.visit d) (g.enter j w)) := by
              simp only [visit, hne, descend_of_not_isEntered d hent]
              rfl
            have hinner := ihd d (by omega) (g.dependencies j) (g.enter j w) (hg.closed j hj)
              (by omega)
            rw [hvisit]
            refine Along.enter hleaf hent hinner (ih _ hrest ?_)
            have hle := unentered_anti (g := g) hinner.entered_subset
            rw [unentered_record]
            omega

/-- `flatten` answers with the record of the unbounded walks from its starts. -/
theorem flattens_flatten (hg : g.WellKeyed) (starts : List ι) (hs : ∀ i ∈ starts, i ∈ g.nodes) :
    ∃ w, g.Flattens starts start w ∧ g.flatten starts = w.recorded := by
  refine ⟨_, ?_, rfl⟩
  generalize start = w
  induction starts generalizing w with
  | nil => exact Flattens.done w
  | cons i is ih =>
      have hi : i ∈ g.nodes := hs i (by simp)
      have hrest : ∀ k ∈ is, k ∈ g.nodes := fun k hk => hs k (by simp [hk])
      rw [List.foldl_cons]
      cases hent : g.isEntered i w with
      | true =>
          rw [descend_of_isEntered _ hent]
          exact Flattens.skip hent (ih hrest w)
      | false =>
          rw [descend_of_not_isEntered _ hent]
          have hle : g.unentered (g.enter i w) ≤ g.nodes.length := List.countP_le_length
          exact Flattens.enter hent (along_visit hg _ _ _ (hg.closed i hi) hle) (ih hrest _)

/-! ## What a walk records -/

theorem reaches_of_needs {i j r : ι} (h : g.Needs i j) (hr : r = j ∨ g.Reaches j r) :
    g.Reaches i r := by
  rcases hr with rfl | hr
  · exact Relation.TransGen.single h
  · exact Relation.TransGen.head h hr

theorem reaches_below {p i r : ι} (h : g.Needs p i) (hr : p = r ∨ g.Reaches r p) :
    g.Reaches r i := by
  rcases hr with rfl | hr
  · exact Relation.TransGen.single h
  · exact Relation.TransGen.tail hr h

/-- A walk records what it walks over and what that reaches, and nothing else. -/
theorem Along.reached_of_recorded {js : List ι} {w w' : Walk ι} (h : g.Along js w w') {r : ι}
    (hr : r ∈ w'.recorded) : r ∈ w.recorded ∨ ∃ j ∈ js, r = j ∨ g.Reaches j r := by
  induction h with
  | done w => exact Or.inl hr
  | @skip j js w w' _ _ ih =>
      rcases ih hr with hr | ⟨k, hk, hkr⟩
      · rcases eq_or_mem_of_mem_record hr with hr | rfl
        · exact Or.inl hr
        · exact Or.inr ⟨r, by simp, Or.inl rfl⟩
      · exact Or.inr ⟨k, by simp [hk], hkr⟩
  | @enter j js w w₁ w' _ _ _ _ ih₁ ih =>
      rcases ih hr with hr | ⟨k, hk, hkr⟩
      · rcases eq_or_mem_of_mem_record hr with hr | rfl
        · rcases ih₁ hr with hr | ⟨k, hk, hkr⟩
          · exact Or.inl hr
          · exact Or.inr ⟨j, by simp, Or.inr (reaches_of_needs hk hkr)⟩
        · exact Or.inr ⟨r, by simp, Or.inl rfl⟩
      · exact Or.inr ⟨k, by simp [hk], hkr⟩

theorem Flattens.reached_of_recorded {is : List ι} {w w' : Walk ι} (h : g.Flattens is w w')
    {r : ι} (hr : r ∈ w'.recorded) : r ∈ w.recorded ∨ ∃ i ∈ is, g.Reaches i r := by
  induction h with
  | done w => exact Or.inl hr
  | @skip i is w w' _ _ ih =>
      rcases ih hr with hr | ⟨k, hk, hkr⟩
      · exact Or.inl hr
      · exact Or.inr ⟨k, by simp [hk], hkr⟩
  | @enter i is w w₁ w' _ h₁ _ ih =>
      rcases ih hr with hr | ⟨k, hk, hkr⟩
      · rcases h₁.reached_of_recorded hr with hr | ⟨k, hk, hkr⟩
        · exact Or.inl hr
        · exact Or.inr ⟨i, by simp, reaches_of_needs hk hkr⟩
      · exact Or.inr ⟨k, by simp [hk], hkr⟩

/-! ## The order of the record -/

/-- What a node off all cycles reaches stands before it. -/
def Ordered (g : DependencyGraph ι) (l : List ι) : Prop :=
  ∀ before u after, l = before ++ u :: after → ¬ g.Reaches u u → ∀ v, g.Reaches u v → v ∈ before

theorem ordered_concat {l : List ι} {i : ι} (hl : g.Ordered l)
    (hi : ¬ g.Reaches i i → ∀ v, g.Reaches i v → v ∈ l) : g.Ordered (l ++ [i]) := by
  intro before u after h
  -- `u` is the node at the end, or it stands in `l`
  rcases List.eq_nil_or_concat after with rfl | ⟨after, z, rfl⟩
  · obtain ⟨rfl, hiu⟩ := List.append_inj' h rfl
    obtain rfl : i = u := by simpa using hiu
    exact hi
  · have h' : l ++ [i] = (before ++ u :: after) ++ [z] := by simpa using h
    exact hl before u after (List.append_inj' h' rfl).1

/-- A dependency is settled once it is recorded and nothing more will be walked below it. -/
def Settled (g : DependencyGraph ι) (w : Walk ι) (j : ι) : Prop :=
  j ∈ w.recorded ∧ (g.dependencies j = [] ∨ g.isEntered j w = true)

theorem Settled.mono {w w' : Walk ι} {j : ι} (h : g.Settled w j) (he : w.entered ⊆ w'.entered)
    (hr : w.recorded ⊆ w'.recorded) : g.Settled w' j :=
  ⟨hr h.1, h.2.imp_right fun hj => isEntered_iff.2 (he (isEntered_iff.1 hj))⟩

/-- The state of a walk in the middle of the nodes of the stack. -/
structure Underway (g : DependencyGraph ι) (stack : List ι) (w : Walk ι) : Prop where
  known : ∀ r ∈ w.recorded, r ∈ g.nodes
  entered : ∀ s ∈ stack, g.isEntered s w = true
  finished : ∀ i ∈ g.nodes, g.isEntered i w = true → i ∉ stack →
    ∀ j ∈ g.dependencies i, g.Settled w j
  nodup : w.recorded.Nodup
  ordered : g.Ordered w.recorded

theorem underway_start : g.Underway [] start where
  known := by simp [start]
  entered := by simp
  finished := by simp [start, isEntered]
  nodup := by simp [start]
  ordered := by intro before u after h; simp [start] at h

namespace Underway

variable {stack : List ι} {w : Walk ι}

/-- Off the stack and out of its reach, a walked node has all recorded that it reaches. -/
theorem settled_of_reaches (hw : g.Underway stack w) (hg : g.WellKeyed) {u v : ι}
    (hu : u ∈ g.nodes) (hent : g.isEntered u w = true) (hoff : u ∉ stack)
    (hreach : ∀ s ∈ stack, ¬ g.Reaches u s) (h : g.Reaches u v) :
    v ∈ g.nodes ∧ g.Settled w v := by
  induction h with
  | single h => exact ⟨hg.closed u hu _ h, hw.finished u hu hent hoff _ h⟩
  | @tail b c hub hbc ih =>
      obtain ⟨hb, _, hleaf | hentb⟩ := ih
      · rw [Needs, hleaf] at hbc
        exact absurd hbc List.not_mem_nil
      · have hbs : b ∉ stack := fun hs => hreach b hs hub
        exact ⟨hg.closed b hb c hbc, hw.finished b hb hentb hbs c hbc⟩

/-- What reaches the node on top reaches what that node needs. -/
theorem reaches_needed {p j : ι} (hstack : ∀ s ∈ stack, s = p ∨ g.Reaches s p)
    (hpj : g.Needs p j) : ∀ s ∈ stack, g.Reaches s j := by
  intro s hs
  rcases hstack s hs with rfl | hsp
  · exact Relation.TransGen.single hpj
  · exact hsp.tail hpj

/-- What the node on top needs may come on top of it. -/
theorem eq_or_reaches_top {p j : ι} (hstack : ∀ s ∈ stack, s = p ∨ g.Reaches s p)
    (hpj : g.Needs p j) : ∀ s ∈ j :: stack, s = j ∨ g.Reaches s j := by
  intro s hs
  rcases List.mem_cons.1 hs with rfl | hs
  · exact Or.inl rfl
  · exact Or.inr (reaches_needed hstack hpj s hs)

/-- Entering a fresh node puts it on the stack. -/
theorem enter (hw : g.Underway stack w) (hg : g.WellKeyed) {j : ι} (hj : j ∈ g.nodes) :
    g.Underway (j :: stack) (g.enter j w) where
  known := hw.known
  entered := by
    intro s hs
    rw [isEntered_iff]
    rcases List.mem_cons.1 hs with rfl | hs
    · exact List.mem_cons_self
    · exact List.mem_cons_of_mem _ (isEntered_iff.1 (hw.entered s hs))
  finished := by
    intro i hi hent hstack k hk
    rw [List.mem_cons, not_or] at hstack
    rcases (isEntered_enter_iff hg hi hj).1 hent with rfl | hent
    · exact absurd rfl hstack.1
    · exact (hw.finished i hi hent hstack.2 k hk).mono (List.subset_cons_self _ _)
        (List.Subset.refl _)
  nodup := hw.nodup
  ordered := hw.ordered

/-- A node with all its dependencies settled leaves the stack. -/
theorem leave {j : ι} (hw : g.Underway (j :: stack) w)
    (hj : ∀ k ∈ g.dependencies j, g.Settled w k) : g.Underway stack w where
  known := hw.known
  entered := fun s hs => hw.entered s (List.mem_cons_of_mem _ hs)
  finished := by
    intro i hi hent hstack k hk
    rcases Classical.em (i = j) with rfl | hij
    · exact hj k hk
    · exact hw.finished i hi hent (by simp [hij, hstack]) k hk
  nodup := hw.nodup
  ordered := hw.ordered

/-- Recording a dependency of the node on top, once it has been walked itself. -/
theorem record (hw : g.Underway stack w) (hg : g.WellKeyed) {p j : ι} (hj : j ∈ g.nodes)
    (hstack : ∀ s ∈ stack, s = p ∨ g.Reaches s p) (hpj : g.Needs p j)
    (hwalked : g.dependencies j = [] ∨ g.isEntered j w = true) :
    g.Underway stack (g.record j w) ∧ g.Settled (g.record j w) j := by
  have hsub := recorded_subset_record (g := g) j w
  have hent : w.entered ⊆ (g.record j w).entered := by
    rw [entered_record]
    exact List.Subset.refl _
  -- a node of the stack reaches `j`, so `j` reaches it only on a cycle
  have hback := reaches_needed hstack hpj
  have hbefore : ¬ g.Reaches j j → ∀ v, g.Reaches j v → v ∈ w.recorded := by
    intro hcycle v hv
    rcases hwalked with hleaf | hentj
    · obtain ⟨k, hk, _⟩ := Relation.TransGen.head'_iff.1 hv
      rw [Needs, hleaf] at hk
      exact absurd hk List.not_mem_nil
    · have hoff : j ∉ stack := fun hs => hcycle (hback j hs)
      have hreach : ∀ s ∈ stack, ¬ g.Reaches j s := fun s hs hjs => hcycle (hjs.trans (hback s hs))
      exact (hw.settled_of_reaches hg hj hentj hoff hreach hv).2.1
  have hentered : ∀ s ∈ stack, g.isEntered s (g.record j w) = true := by
    intro s hs
    rw [isEntered_record]
    exact hw.entered s hs
  have hfinished : ∀ i ∈ g.nodes, g.isEntered i (g.record j w) = true → i ∉ stack →
      ∀ k ∈ g.dependencies i, g.Settled (g.record j w) k := by
    intro i hi henti his k hk
    rw [isEntered_record] at henti
    exact (hw.finished i hi henti his k hk).mono hent hsub
  rcases recorded_record hg hj hw.known with ⟨hmem, heq⟩ | ⟨hmem, heq⟩
  · refine ⟨⟨?_, hentered, hfinished, ?_, ?_⟩, hsub hmem, by rwa [isEntered_record]⟩
    · rw [heq]; exact hw.known
    · rw [heq]; exact hw.nodup
    · rw [heq]; exact hw.ordered
  · refine ⟨⟨?_, hentered, hfinished, ?_, ?_⟩, ?_, by rwa [isEntered_record]⟩
    · rw [heq]
      intro r hr
      rcases List.mem_append.1 hr with hr | hr
      · exact hw.known r hr
      · rw [List.mem_singleton.1 hr]; exact hj
    · rw [heq]
      exact hw.nodup.append (List.nodup_singleton j) (List.disjoint_singleton.2 hmem)
    · rw [heq]
      exact ordered_concat hw.ordered hbefore
    · rw [heq]; simp

/-- Leaving a node of which all dependencies are settled, and recording it below the node on top. -/
theorem leave_record {p j : ι} (hw : g.Underway (j :: stack) w)
    (hdeps : ∀ k ∈ g.dependencies j, g.Settled w k) (hg : g.WellKeyed) (hj : j ∈ g.nodes)
    (hstack : ∀ s ∈ stack, s = p ∨ g.Reaches s p) (hpj : g.Needs p j) :
    g.Underway stack (g.record j w) ∧ g.Settled (g.record j w) j :=
  (hw.leave hdeps).record hg hj hstack hpj (Or.inr (hw.entered j (by simp)))

end Underway

/-- What a walk over dependencies of the node on top of the stack preserves and brings about. -/
theorem Along.underway {js : List ι} {w w' : Walk ι} (h : g.Along js w w') (hg : g.WellKeyed) :
    ∀ {stack : List ι} {p : ι}, p ∈ g.nodes → (∀ j ∈ js, g.Needs p j) →
      (∀ s ∈ stack, s = p ∨ g.Reaches s p) → g.Underway stack w →
      g.Underway stack w' ∧ ∀ j ∈ js, g.Settled w' j := by
  induction h with
  | done w => intro stack p _ _ _ hw; exact ⟨hw, by simp⟩
  | @skip j js w w' hwalked hrest ih =>
      intro stack p hp hjs hstack hw
      have hpj : g.Needs p j := hjs j (by simp)
      obtain ⟨hw₁, hj⟩ := hw.record hg (hg.closed p hp j hpj) hstack hpj hwalked
      obtain ⟨hw', hsettled⟩ := ih hp (fun k hk => hjs k (by simp [hk])) hstack hw₁
      refine ⟨hw', fun k hk => ?_⟩
      rcases List.mem_cons.1 hk with rfl | hk
      · exact hj.mono hrest.entered_subset hrest.recorded_subset
      · exact hsettled k hk
  | @enter j js w w₁ w' _ hent hinner hrest ih₁ ih =>
      intro stack p hp hjs hstack hw
      have hpj : g.Needs p j := hjs j (by simp)
      have hj : j ∈ g.nodes := hg.closed p hp j hpj
      have hstack₁ := Underway.eq_or_reaches_top hstack hpj
      -- `j` is on top while its own dependencies are walked, and leaves before it is recorded
      obtain ⟨hw₁, hdeps⟩ := ih₁ hj (fun k hk => hk) hstack₁ (hw.enter hg hj)
      obtain ⟨hw₂, hjset⟩ := hw₁.leave_record hdeps hg hj hstack hpj
      obtain ⟨hw', hsettled⟩ := ih hp (fun k hk => hjs k (by simp [hk])) hstack hw₂
      refine ⟨hw', fun k hk => ?_⟩
      rcases List.mem_cons.1 hk with rfl | hk
      · exact hjset.mono hrest.entered_subset hrest.recorded_subset
      · exact hsettled k hk

theorem Flattens.underway {is : List ι} {w w' : Walk ι} (h : g.Flattens is w w')
    (hg : g.WellKeyed) (his : ∀ i ∈ is, i ∈ g.nodes) (hw : g.Underway [] w) :
    g.Underway [] w' ∧ ∀ i ∈ is, g.isEntered i w' = true := by
  induction h with
  | done w => exact ⟨hw, by simp⟩
  | @skip i is w w' hent hrest ih =>
      obtain ⟨hw', hall⟩ := ih (fun k hk => his k (by simp [hk])) hw
      refine ⟨hw', fun k hk => ?_⟩
      rcases List.mem_cons.1 hk with rfl | hk
      · exact isEntered_iff.2 (hrest.entered_subset (isEntered_iff.1 hent))
      · exact hall k hk
  | @enter i is w w₁ w' _ hinner hrest ih =>
      have hi : i ∈ g.nodes := his i (by simp)
      have hstack : ∀ s ∈ [i], s = i ∨ g.Reaches s i := fun s hs => Or.inl (List.mem_singleton.1 hs)
      obtain ⟨hw₁, hdeps⟩ := hinner.underway hg hi (fun k hk => hk) hstack (hw.enter hg hi)
      obtain ⟨hw', hall⟩ := ih (fun k hk => his k (by simp [hk])) (hw₁.leave hdeps)
      refine ⟨hw', fun k hk => ?_⟩
      rcases List.mem_cons.1 hk with rfl | hk
      · exact isEntered_iff.2 (hrest.entered_subset (isEntered_iff.1 (hw₁.entered k (by simp))))
      · exact hall k hk

/-! ## Graphs without cycles -/

/-- No node depends on itself, over any number of steps. -/
def Acyclic (g : DependencyGraph ι) : Prop := ∀ i ∈ g.nodes, ¬ g.Reaches i i

theorem acyclic_of_lt (rank : ι → Nat) (h : ∀ i j, g.Needs i j → rank i < rank j) : g.Acyclic := by
  intro i _ hi
  have hlt : ∀ j, g.Reaches i j → rank i < rank j := by
    intro j hj
    induction hj with
    | single hneeds => exact h _ _ hneeds
    | tail _ hneeds ih => exact Nat.lt_trans ih (h _ _ hneeds)
  exact Nat.lt_irrefl _ (hlt i hi)

open Classical in
/-- How many nodes a node reaches. -/
noncomputable def below (g : DependencyGraph ι) (i : ι) : Nat :=
  g.nodes.countP (fun j => g.Reaches i j)

/-- A node reaches itself only on a cycle, so it reaches less than what depends on it. -/
theorem Acyclic.below_lt_below (h : g.Acyclic) (hg : g.WellKeyed) {i j : ι} (hi : i ∈ g.nodes)
    (hij : g.Needs i j) : g.below j < g.below i := by
  have hj : j ∈ g.nodes := hg.closed i hi j hij
  refine countP_lt_countP hj (fun v _ hv => ?_) ?_ ?_
  · simp only [decide_eq_true_eq] at hv ⊢
    exact Relation.TransGen.head hij hv
  · simp only [decide_eq_true_eq]
    exact Relation.TransGen.single hij
  · simpa using h j hj

theorem Acyclic.below_lt_length (h : g.Acyclic) {i : ι} (hi : i ∈ g.nodes) :
    g.below i < g.nodes.length := by
  rw [← List.countP_true]
  exact countP_lt_countP hi (fun _ _ _ => rfl) rfl (by simpa using h i hi)

open Classical in
/-- How many nodes reach a node. -/
noncomputable def above (g : DependencyGraph ι) (i : ι) : Nat :=
  g.nodes.countP (fun j => g.Reaches j i)

theorem above_lt_above {i p : ι} (hp : p ∈ g.nodes) (hpi : g.Needs p i) (hcycle : ¬ g.Reaches p p) :
    g.above p < g.above i := by
  refine countP_lt_countP hp (fun v _ hv => ?_) ?_ ?_
  · simp only [decide_eq_true_eq] at hv ⊢
    exact Relation.TransGen.tail hv hpi
  · simp only [decide_eq_true_eq]
    exact Relation.TransGen.single hpi
  · simpa using hcycle

/-- The way up from a node, along what needs it, ends at a node that nothing needs or meets a
    cycle. -/
theorem exists_unneeded_or_cycle {i : ι} (hi : i ∈ g.nodes) :
    (∃ r ∈ g.nodes, (∀ j ∈ g.nodes, ¬ g.Needs j r) ∧ (i = r ∨ g.Reaches r i)) ∨
      ∃ k ∈ g.nodes, g.Reaches k k ∧ (i = k ∨ g.Reaches k i) := by
  induction hn : g.above i using Nat.strongRecOn generalizing i with
  | _ n ih =>
      by_cases hfree : ∀ j ∈ g.nodes, ¬ g.Needs j i
      · exact Or.inl ⟨i, hi, hfree, Or.inl rfl⟩
      · obtain ⟨p, hp, hpi⟩ : ∃ p ∈ g.nodes, g.Needs p i := by simpa using hfree
        by_cases hcycle : g.Reaches p p
        · exact Or.inr ⟨p, hp, hcycle, Or.inr (.single hpi)⟩
        -- fewer nodes reach `p`, since it does not reach itself
        · have hlt : g.above p < n := hn ▸ above_lt_above hp hpi hcycle
          refine (ih _ hlt hp rfl).imp ?_ ?_
          · rintro ⟨r, hr, hrfree, hrp⟩
            exact ⟨r, hr, hrfree, Or.inr (reaches_below hpi hrp)⟩
          · rintro ⟨k, hk, hkk, hkp⟩
            exact ⟨k, hk, hkk, Or.inr (reaches_below hpi hkp)⟩

/-! ## Results -/

theorem nodup_flatten (hg : g.WellKeyed) (starts : List ι) (hs : ∀ i ∈ starts, i ∈ g.nodes) :
    (g.flatten starts).Nodup := by
  obtain ⟨w, hw, heq⟩ := flattens_flatten hg starts hs
  rw [heq]
  exact (hw.underway hg hs underway_start).1.nodup

theorem mem_flatten_iff (hg : g.WellKeyed) (starts : List ι) (hs : ∀ i ∈ starts, i ∈ g.nodes)
    {i : ι} : i ∈ g.flatten starts ↔ ∃ s ∈ starts, g.Reaches s i := by
  obtain ⟨w, hw, heq⟩ := flattens_flatten hg starts hs
  rw [heq]
  constructor
  · intro hi
    rcases hw.reached_of_recorded hi with hi | hi
    · simp [start] at hi
    · exact hi
  · rintro ⟨s, hs', hsi⟩
    obtain ⟨hunder, hall⟩ := hw.underway hg hs underway_start
    exact (hunder.settled_of_reaches hg (hs s hs') (hall s hs') (by simp) (by simp) hsi).2.1

theorem ordered_flatten (hg : g.WellKeyed) (starts : List ι) (hs : ∀ i ∈ starts, i ∈ g.nodes) :
    g.Ordered (g.flatten starts) := by
  obtain ⟨w, hw, heq⟩ := flattens_flatten hg starts hs
  rw [heq]
  exact (hw.underway hg hs underway_start).1.ordered

/-- **Dependencies come first.** From any starts, with or without cycles, the unbounded walks come to
    an end; `flatten` lists each node they record once, which are the nodes that some start reaches;
    and a node off all cycles stands behind everything that it reaches. -/
theorem flatten_dependencies_first (hg : g.WellKeyed) (starts : List ι)
    (hs : ∀ i ∈ starts, i ∈ g.nodes) :
    (∃ w, g.Flattens starts start w ∧ g.flatten starts = w.recorded) ∧
    (g.flatten starts).Nodup ∧
    (∀ i, i ∈ g.flatten starts ↔ ∃ s ∈ starts, g.Reaches s i) ∧
    (∀ before u after, g.flatten starts = before ++ u :: after → ¬ g.Reaches u u →
      ∀ v, g.Reaches u v → v ∈ before) :=
  ⟨flattens_flatten hg starts hs, nodup_flatten hg starts hs,
    fun _ => mem_flatten_iff hg starts hs, ordered_flatten hg starts hs⟩

/-- A cycle of two nodes beside a chain of two, both below one node. -/
def cycleAndChain : DependencyGraph Nat where
  nodes := [0, 1, 2, 3, 4]
  key i := ["top", "left", "right", "inner", "leaf"].getD i ""
  dependencies
    | 0 => [1, 3]
    | 1 => [2]
    | 2 => [1]
    | 3 => [4]
    | _ => []

theorem flatten_cycleAndChain :
    cycleAndChain.WellKeyed ∧ (∀ i ∈ [0, 3], i ∈ cycleAndChain.nodes) ∧
    cycleAndChain.flatten [0, 3] = [1, 2, 4, 3] ∧
    (∀ i, i ∈ [1, 2, 4, 3] ↔ ∃ s ∈ [0, 3], cycleAndChain.Reaches s i) ∧
    (∀ before u after, [1, 2, 4, 3] = before ++ u :: after → ¬ cycleAndChain.Reaches u u →
      ∀ v, cycleAndChain.Reaches u v → v ∈ before) := by
  have hg : cycleAndChain.WellKeyed := ⟨by decide, by decide⟩
  have hs : ∀ i ∈ [0, 3], i ∈ cycleAndChain.nodes := by decide
  have heq : cycleAndChain.flatten [0, 3] = [1, 2, 4, 3] := by decide
  obtain ⟨_, _, hmem, hord⟩ := flatten_dependencies_first hg [0, 3] hs
  rw [heq] at hmem hord
  exact ⟨hg, hs, heq, hmem, hord⟩

end DependencyGraph

end AvroCodegen
