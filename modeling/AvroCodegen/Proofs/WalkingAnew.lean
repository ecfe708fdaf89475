import AvroCodegen.Keyed
import AvroCodegen.Proofs.DependencyOrder

set_option autoImplicit false

/-! # Walking anew below every dependency

The plain way to flatten a graph knows nothing of where it has been. It walks below a dependency each
time it meets it, unless nothing is below, and then writes the dependency into a map that keeps its
keys in the order in which they first came. `flattenAnew` is that walk; it has no answer where its
depth does not suffice, as on a cycle, where no depth does.

`DependencyGraph.flatten` skips what it has entered. Where no node depends on itself the difference
does not show: a node that is met again is off the stack, since else it would reach itself, so all
that it reaches is recorded, and walking over recorded nodes changes nothing. So the two walks hold
the same record after each dependency, which is an induction on `Along`. -/

namespace AvroCodegen

namespace DependencyGraph

variable {ι : Type}

/-- Writes what a node depends on, each dependency once all below it is written. -/
def walkAnew (g : DependencyGraph ι) : Nat → ι → Keyed ι → Option (Keyed ι)
  | 0, _, _ => none
  | depth + 1, i, m =>
    (g.dependencies i).foldlM
      (fun m j =>
        (if (g.dependencies j).isEmpty then some m else walkAnew g depth j m).map
          (Keyed.put (g.key j) j))
      m

/-- The nodes reached from the starts, as walks that never look back write them. -/
def flattenAnew (g : DependencyGraph ι) (depth : Nat) (starts : List ι) : Option (List ι) :=
  (starts.foldlM (fun m i => g.walkAnew depth i m) []).map Keyed.values

variable {g : DependencyGraph ι}

/-! ## One dependency -/

/-- One dependency of a walk, written once all below it is. -/
def meet (g : DependencyGraph ι) (depth : Nat) (m : Keyed ι) (j : ι) : Option (Keyed ι) :=
  (if (g.dependencies j).isEmpty then some m else g.walkAnew depth j m).map (Keyed.put (g.key j) j)

theorem meet_of_leaf {j : ι} (h : g.dependencies j = []) (depth : Nat) (m : Keyed ι) :
    g.meet depth m j = some (Keyed.put (g.key j) j m) := by
  simp [meet, h]

theorem meet_of_walkAnew {j : ι} {depth : Nat} {m m' : Keyed ι} (hne : g.dependencies j ≠ [])
    (h : g.walkAnew depth j m = some m') :
    g.meet depth m j = some (Keyed.put (g.key j) j m') := by
  simp [meet, hne, h]

theorem foldlM_of_fixed {α β : Type} {f : β → α → Option β} {b : β} {l : List α}
    (h : ∀ a ∈ l, f b a = some b) : l.foldlM f b = some b := by
  induction l with
  | nil => rfl
  | cons a l ih =>
      rw [List.foldlM_cons, h a (by simp)]
      exact ih fun a' ha' => h a' (by simp [ha'])

/-! ## The record as a map -/

/-- Nodes under their keys. -/
def table (g : DependencyGraph ι) (l : List ι) : Keyed ι := l.map fun i => (g.key i, i)

@[simp] theorem values_table (l : List ι) : Keyed.values (g.table l) = l := by
  simp [table, Keyed.values, Function.comp_def]

@[simp] theorem keys_table (l : List ι) : Keyed.keys (g.table l) = l.map g.key := by
  simp [table, Keyed.keys, Function.comp_def]

theorem get?_table (hg : g.WellKeyed) {l : List ι} {i : ι} (hl : ∀ r ∈ l, r ∈ g.nodes)
    (hnodup : l.Nodup) (hi : i ∈ l) : Keyed.get? (g.key i) (g.table l) = some i := by
  have hkeys : (Keyed.keys (g.table l)).Nodup := by
    rw [keys_table]
    exact hnodup.map_on fun a ha b hb hab => hg.key_inj a (hl a ha) b (hl b hb) hab
  rw [Keyed.get?_eq_some_iff_of_nodup hkeys]
  exact List.mem_map.2 ⟨i, hi, rfl⟩

/-- Writing a node under its key is recording it. -/
theorem put_table (hg : g.WellKeyed) {w : Walk ι} {i : ι} (hi : i ∈ g.nodes)
    (hw : ∀ r ∈ w.recorded, r ∈ g.nodes) (hnodup : w.recorded.Nodup) :
    Keyed.put (g.key i) i (g.table w.recorded) = g.table (g.record i w).recorded := by
  rcases recorded_record hg hi hw with ⟨hmem, heq⟩ | ⟨hmem, heq⟩
  · rw [heq, Keyed.put_of_get? (get?_table hg hw hnodup hmem)]
  · have hkey : g.key i ∉ Keyed.keys (g.table w.recorded) := by
      rw [keys_table, List.mem_map]
      rintro ⟨r, hr, hkey⟩
      exact hmem (hg.key_inj r (hw r hr) i hi hkey ▸ hr)
    rw [heq, Keyed.put_of_not_mem hkey]
    simp [table]

/-! ## Both walks hold the same record -/

/-- Where all is recorded that a node reaches, walking below it changes nothing. -/
theorem walkAnew_of_recorded (hg : g.WellKeyed) (hacyclic : g.Acyclic) {l : List ι}
    (hl : ∀ r ∈ l, r ∈ g.nodes) (hnodup : l.Nodup) {depth : Nat} :
    ∀ {i : ι}, i ∈ g.nodes → (∀ v, g.Reaches i v → v ∈ l) → g.below i < depth →
      g.walkAnew depth i (g.table l) = some (g.table l) := by
  induction depth with
  | zero => intro i _ _ hdepth; exact absurd hdepth (Nat.not_lt_zero _)
  | succ depth ih =>
      intro i hi hall hdepth
      refine foldlM_of_fixed (f := g.meet depth) fun j hij => ?_
      have hj : j ∈ g.nodes := hg.closed i hi j hij
      have hput : Keyed.put (g.key j) j (g.table l) = g.table l :=
        Keyed.put_of_get? (get?_table hg hl hnodup (hall j (Relation.TransGen.single hij)))
      by_cases hleaf : g.dependencies j = []
      · rw [meet_of_leaf hleaf, hput]
      · have hlt : g.below j < g.below i := hacyclic.below_lt_below hg hi hij
        have hwalk := ih hj (fun v hv => hall v (Relation.TransGen.head hij hv)) (by omega)
        rw [meet_of_walkAnew hleaf hwalk, hput]

/-- A node that was entered and is off the stack has nothing new below it. -/
theorem Underway.walkAnew {stack : List ι} {w : Walk ι} (hw : g.Underway stack w)
    (hg : g.WellKeyed) (hacyclic : g.Acyclic) {i : ι} (hi : i ∈ g.nodes)
    (hent : g.isEntered i w = true) (hstack : ∀ s ∈ stack, g.Reaches s i) {depth : Nat}
    (hdepth : g.below i < depth) :
    g.walkAnew depth i (g.table w.recorded) = some (g.table w.recorded) := by
  have hoff : i ∉ stack := fun hs => hacyclic i hi (hstack i hs)
  have hreach : ∀ s ∈ stack, ¬ g.Reaches i s := fun s hs his =>
    hacyclic i hi (his.trans (hstack s hs))
  exact walkAnew_of_recorded hg hacyclic hw.known hw.nodup hi
    (fun v hv => (hw.settled_of_reaches hg hi hent hoff hreach hv).2.1) hdepth

/-- Over dependencies of the node on top of the stack, both walks record the same. -/
theorem Along.walkAnew {js : List ι} {w w' : Walk ι} (h : g.Along js w w') (hg : g.WellKeyed)
    (hacyclic : g.Acyclic) :
    ∀ {stack : List ι} {p : ι} {depth : Nat}, p ∈ g.nodes → (∀ j ∈ js, g.Needs p j) →
      (∀ s ∈ stack, s = p ∨ g.Reaches s p) → g.Underway stack w → g.below p ≤ depth →
      js.foldlM (g.meet depth) (g.table w.recorded) = some (g.table w'.recorded) := by
  induction h with
  | done w => intros; rfl
  | @skip j js w w' hwalked hrest ih =>
      intro stack p depth hp hjs hstack hw hdepth
      have hpj : g.Needs p j := hjs j (by simp)
      have hj : j ∈ g.nodes := hg.closed p hp j hpj
      have hlt : g.below j < g.below p := hacyclic.below_lt_below hg hp hpj
      have hmeet : g.meet depth (g.table w.recorded) j
          = some (g.table (g.record j w).recorded) := by
        rw [← put_table hg hj hw.known hw.nodup]
        by_cases hleaf : g.dependencies j = []
        · exact meet_of_leaf hleaf depth _
        · refine meet_of_walkAnew hleaf ?_
          exact hw.walkAnew hg hacyclic hj (hwalked.resolve_left hleaf)
            (Underway.reaches_needed hstack hpj) (by omega)
      rw [List.foldlM_cons, hmeet]
      exact ih hp (fun k hk => hjs k (by simp [hk])) hstack (hw.record hg hj hstack hpj hwalked).1
        hdepth
  | @enter j js w w₁ w' hne _ hinner hrest ih₁ ih =>
      intro stack p depth hp hjs hstack hw hdepth
      have hpj : g.Needs p j := hjs j (by simp)
      have hj : j ∈ g.nodes := hg.closed p hp j hpj
      have hlt : g.below j < g.below p := hacyclic.below_lt_below hg hp hpj
      have hstack₁ := Underway.eq_or_reaches_top hstack hpj
      obtain ⟨hw₁, hdeps⟩ := hinner.underway hg hj (fun _ hk => hk) hstack₁ (hw.enter hg hj)
      -- one level of the depth goes into `j`, which reaches less than `p`
      obtain ⟨d, rfl⟩ : ∃ d, depth = d + 1 := ⟨depth - 1, by omega⟩
      have hwalk : g.walkAnew (d + 1) j (g.table w.recorded) = some (g.table w₁.recorded) :=
        ih₁ hj (fun _ hk => hk) hstack₁ (hw.enter hg hj) (by omega)
      have hmeet : g.meet (d + 1) (g.table w.recorded) j
          = some (g.table (g.record j w₁).recorded) := by
        rw [← put_table hg hj hw₁.known hw₁.nodup]
        exact meet_of_walkAnew hne hwalk
      rw [List.foldlM_cons, hmeet]
      exact ih hp (fun k hk => hjs k (by simp [hk])) hstack
        (hw₁.leave_record hdeps hg hj hstack hpj).1 hdepth

/-- From each start, both walks record the same. -/
theorem Flattens.walkAnew {is : List ι} {w w' : Walk ι} (h : g.Flattens is w w')
    (hg : g.WellKeyed) (hacyclic : g.Acyclic) {depth : Nat} (hdepth : g.nodes.length ≤ depth)
    (his : ∀ i ∈ is, i ∈ g.nodes) (hw : g.Underway [] w) :
    is.foldlM (fun m i => g.walkAnew depth i m) (g.table w.recorded)
      = some (g.table w'.recorded) := by
  induction h with
  | done w => rfl
  | @skip i is w w' hent hrest ih =>
      have hi : i ∈ g.nodes := his i (by simp)
      have hlt : g.below i < depth := Nat.lt_of_lt_of_le (hacyclic.below_lt_length hi) hdepth
      rw [List.foldlM_cons, hw.walkAnew hg hacyclic hi hent (by simp) hlt]
      exact ih (fun k hk => his k (by simp [hk])) hw
  | @enter i is w w₁ w' _ hinner hrest ih =>
      have hi : i ∈ g.nodes := his i (by simp)
      have hlt : g.below i < depth := Nat.lt_of_lt_of_le (hacyclic.below_lt_length hi) hdepth
      have hstack : ∀ s ∈ [i], s = i ∨ g.Reaches s i := fun s hs => Or.inl (List.mem_singleton.1 hs)
      obtain ⟨hw₁, hdeps⟩ := hinner.underway hg hi (fun _ hk => hk) hstack (hw.enter hg hi)
      obtain ⟨d, rfl⟩ : ∃ d, depth = d + 1 := ⟨depth - 1, by omega⟩
      have hwalk : g.walkAnew (d + 1) i (g.table w.recorded) = some (g.table w₁.recorded) :=
        hinner.walkAnew hg hacyclic hi (fun _ hk => hk) hstack (hw.enter hg hi) (by omega)
      rw [List.foldlM_cons, hwalk]
      exact ih (fun k hk => his k (by simp [hk])) (hw₁.leave hdeps)

/-! ## Results -/

/-- **Walking once is enough.** On a graph without cycles and with one key per node, from any starts,
    the walk that goes below a dependency each time it meets it comes to an end and leaves the
    sequence that the walk leaves that goes below each node once. A depth of as many steps as there
    are nodes suffices, and a greater one changes nothing. -/
theorem flattenAnew_eq_flatten (hg : g.WellKeyed) (hacyclic : g.Acyclic) (starts : List ι)
    (hs : ∀ i ∈ starts, i ∈ g.nodes) {depth : Nat} (hdepth : g.nodes.length ≤ depth) :
    g.flattenAnew depth starts = some (g.flatten starts) := by
  obtain ⟨w, hw, heq⟩ := flattens_flatten hg starts hs
  have hwalk : starts.foldlM (fun m i => g.walkAnew depth i m) [] = some (g.table w.recorded) :=
    hw.walkAnew hg hacyclic hdepth hs underway_start
  rw [flattenAnew, hwalk, heq, Option.map_some, values_table]

/-- Two diamonds, one below the other, and a node beside the upper one that needs parts of both. -/
def twoDiamonds : DependencyGraph Nat where
  nodes := [0, 1, 2, 3, 4, 5, 6, 7]
  key i := ["side", "top", "left", "right", "waist", "west", "east", "hem"].getD i ""
  dependencies
    | 0 => [3, 7]
    | 1 => [2, 3]
    | 2 => [4, 6]
    | 3 => [5, 4]
    | 4 => [5, 6]
    | 5 => [7]
    | 6 => [7]
    | _ => []

theorem flattenAnew_twoDiamonds :
    twoDiamonds.WellKeyed ∧ twoDiamonds.Acyclic ∧ (∀ i ∈ [4, 0, 1, 3], i ∈ twoDiamonds.nodes) ∧
    twoDiamonds.nodes.length ≤ 8 ∧
    twoDiamonds.flattenAnew 8 [4, 0, 1, 3] = some (twoDiamonds.flatten [4, 0, 1, 3]) ∧
    twoDiamonds.flatten [4, 0, 1, 3] = [7, 5, 6, 4, 3, 2] := by
  have hg : twoDiamonds.WellKeyed := ⟨by decide, by decide⟩
  have hdown : ∀ i ∈ List.range 7, ∀ j ∈ twoDiamonds.dependencies i, i < j := by decide
  have hacyclic : twoDiamonds.Acyclic := by
    refine acyclic_of_lt id fun i j hij => ?_
    by_cases hi : i < 7
    · exact hdown i (List.mem_range.2 hi) j hij
    · obtain ⟨k, rfl⟩ : ∃ k, i = k + 7 := ⟨i - 7, by omega⟩
      exact absurd hij List.not_mem_nil
  have hs : ∀ i ∈ [4, 0, 1, 3], i ∈ twoDiamonds.nodes := by decide
  exact ⟨hg, hacyclic, hs, by decide,
    flattenAnew_eq_flatten hg hacyclic [4, 0, 1, 3] hs (by decide), by decide⟩

/-- What is on a cycle or reaches one. -/
def Endless (g : DependencyGraph ι) (i : ι) : Prop :=
  ∃ c, (i = c ∨ g.Reaches i c) ∧ g.Reaches c c

theorem Endless.exists_needs {i : ι} (h : g.Endless i) : ∃ j, g.Needs i j ∧ g.Endless j := by
  obtain ⟨c, hic, hc⟩ := h
  have hreach : g.Reaches i c := by
    rcases hic with rfl | hic
    · exact hc
    · exact hic
  obtain ⟨j, hij, hjc⟩ := Relation.TransGen.head'_iff.1 hreach
  exact ⟨j, hij, c, Relation.reflTransGen_iff_eq_or_transGen.1 hjc |>.imp_left Eq.symm, hc⟩

theorem foldlM_of_none {α β : Type} {f : β → α → Option β} {l : List α} {a : α} (ha : a ∈ l)
    (h : ∀ b, f b a = none) (b : β) : l.foldlM f b = none := by
  induction l generalizing b with
  | nil => simp at ha
  | cons a' l ih =>
      rw [List.foldlM_cons]
      rcases List.mem_cons.1 ha with rfl | ha
      · rw [h]; rfl
      · cases f b a' with
        | none => rfl
        | some b' => exact ih ha b'

theorem Endless.walkAnew {i : ι} (h : g.Endless i) (depth : Nat) (m : Keyed ι) :
    g.walkAnew depth i m = none := by
  induction depth generalizing i m with
  | zero => rfl
  | succ depth ih =>
      obtain ⟨j, hij, hj⟩ := h.exists_needs
      obtain ⟨k, hjk, _⟩ := hj.exists_needs
      refine foldlM_of_none (f := g.meet depth) hij (fun m' => ?_) m
      have hne : g.dependencies j ≠ [] := List.ne_nil_of_mem hjk
      simp [meet, hne, ih hj]

/-- **A cycle has no end.** From starts of which one reaches a cycle, the walk that goes below each
    dependency anew has no answer, whatever its depth. -/
theorem flattenAnew_eq_none {starts : List ι} {i c : ι} (hi : i ∈ starts)
    (hic : i = c ∨ g.Reaches i c) (hc : g.Reaches c c) (depth : Nat) :
    g.flattenAnew depth starts = none := by
  have hend : g.Endless i := ⟨c, hic, hc⟩
  rw [flattenAnew, foldlM_of_none hi (fun m => hend.walkAnew depth m)]
  rfl

end DependencyGraph

end AvroCodegen
