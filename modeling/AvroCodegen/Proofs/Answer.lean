import Mathlib.Data.List.Forall2

set_option autoImplicit false

/-! # Answers that may fail

How an answer of steps in a row, or of a step for each element of a list, comes about: each success
from successes of all the steps, each failure from the failure of one. -/

namespace AvroCodegen

namespace Answer

variable {ε ε' α β : Type}

/-! ## Steps in a row -/

theorem bind_of_ok {m : Except ε α} {a : α} (h : m = .ok a) (f : α → Except ε β) :
    m >>= f = f a := by
  rw [h]
  rfl

theorem bind_of_error {m : Except ε α} {e : ε} (h : m = .error e) (f : α → Except ε β) :
    m >>= f = .error e := by
  rw [h]
  rfl

theorem of_bind_ok {m : Except ε α} {f : α → Except ε β} {b : β} (h : m >>= f = .ok b) :
    ∃ a, m = .ok a ∧ f a = .ok b := by
  cases m with
  | error e => cases h
  | ok a => exact ⟨a, rfl, h⟩

theorem of_bind_error {m : Except ε α} {f : α → Except ε β} {e : ε} (h : m >>= f = .error e) :
    m = .error e ∨ ∃ a, m = .ok a ∧ f a = .error e := by
  cases m with
  | error e' => exact Or.inl (congrArg Except.error (Except.error.inj h))
  | ok a => exact Or.inr ⟨a, rfl, h⟩

theorem of_mapError_ok {m : Except ε α} {f : ε → ε'} {a : α} (h : m.mapError f = .ok a) :
    m = .ok a := by
  cases m with
  | error e => cases h
  | ok a' => exact congrArg Except.ok (Except.ok.inj h)

theorem of_mapError_error {m : Except ε α} {f : ε → ε'} {e' : ε'} (h : m.mapError f = .error e') :
    ∃ e, m = .error e ∧ f e = e' := by
  cases m with
  | error e => exact ⟨e, rfl, Except.error.inj h⟩
  | ok a => cases h

/-- What a step that succeeds answers, given something for the case that it fails. -/
theorem eq_ok_getD {m : Except ε α} (a : α) (h : m.toOption.isSome = true) :
    m = .ok (m.toOption.getD a) := by
  cases m with
  | error e => cases h
  | ok a' => rfl

theorem eq_ok_of_toOption {m : Except ε α} {a : α} (h : m.toOption = some a) : m = .ok a := by
  cases m with
  | error e => cases h
  | ok a' => exact congrArg Except.ok (Option.some.inj h)

/-! ## A step for each element -/

theorem forall₂_of_mapM {f : α → Except ε β} {as : List α} :
    ∀ {bs : List β}, as.mapM f = .ok bs → List.Forall₂ (fun a b => f a = .ok b) as bs := by
  induction as with
  | nil =>
      intro bs h
      rw [← Except.ok.inj h]
      exact .nil
  | cons a as ih =>
      intro bs h
      rw [List.mapM_cons] at h
      obtain ⟨b, ha, h⟩ := of_bind_ok h
      obtain ⟨bs', has, h⟩ := of_bind_ok h
      rw [← Except.ok.inj h]
      exact .cons ha (ih has)

theorem getElem?_of_forall₂ {R : α → β → Prop} {as : List α} {bs : List β}
    (h : List.Forall₂ R as bs) {i : Nat} {a : α} (ha : as[i]? = some a) :
    ∃ b, bs[i]? = some b ∧ R a b := by
  induction h generalizing i with
  | nil => cases ha
  | @cons a' b as bs hab _ ih =>
      cases i with
      | zero =>
          rw [List.getElem?_cons_zero, Option.some.injEq] at ha
          exact ⟨b, rfl, ha ▸ hab⟩
      | succ i => exact ih ha

/-- Where two lists agree element by element, one has an element of a kind if the other has. -/
theorem exists_mem_iff_of_forall₂ {R : α → β → Prop} {P : α → Prop} {Q : β → Prop} {as : List α}
    {bs : List β} (h : List.Forall₂ R as bs) (hR : ∀ a b, R a b → (Q b ↔ P a)) :
    (∃ b ∈ bs, Q b) ↔ ∃ a ∈ as, P a := by
  induction h with
  | nil => simp
  | cons hab _ ih => simp only [List.exists_mem_cons_iff, hR _ _ hab, ih]

theorem exists_of_mapM_error {f : α → Except ε β} {as : List α} {e : ε}
    (h : as.mapM f = .error e) : ∃ a ∈ as, f a = .error e := by
  induction as with
  | nil => cases h
  | cons a as ih =>
      rw [List.mapM_cons] at h
      rcases of_bind_error h with ha | ⟨b, _, h⟩
      · exact ⟨a, by simp, ha⟩
      rcases of_bind_error h with has | ⟨bs, _, h⟩
      · obtain ⟨a', hmem, ha'⟩ := ih has
        exact ⟨a', by simp [hmem], ha'⟩
      · cases h

theorem mapM_eq_map {f : α → Except ε β} {g : α → β} {as : List α}
    (h : ∀ a ∈ as, f a = .ok (g a)) : as.mapM f = .ok (as.map g) := by
  induction as with
  | nil => rfl
  | cons a as ih =>
      rw [List.mapM_cons, h a (by simp), ih fun b hb => h b (by simp [hb])]
      rfl

theorem forM_cons (f : α → Except ε Unit) (a : α) (as : List α) :
    (a :: as).forM f = f a >>= fun _ => as.forM f := rfl

theorem forall_of_forM {f : α → Except ε Unit} {as : List α} (h : as.forM f = .ok ()) :
    ∀ a ∈ as, f a = .ok () := by
  induction as with
  | nil => simp
  | cons a as ih =>
      rw [forM_cons] at h
      obtain ⟨_, ha, has⟩ := of_bind_ok h
      exact List.forall_mem_cons.2 ⟨ha, ih has⟩

theorem forM_of_forall {f : α → Except ε Unit} {as : List α} (h : ∀ a ∈ as, f a = .ok ()) :
    as.forM f = .ok () := by
  induction as with
  | nil => rfl
  | cons a as ih =>
      rw [forM_cons, bind_of_ok (h a (by simp))]
      exact ih fun b hb => h b (by simp [hb])

theorem exists_of_forM_error {f : α → Except ε Unit} {as : List α} {e : ε}
    (h : as.forM f = .error e) : ∃ a ∈ as, f a = .error e := by
  induction as with
  | nil => cases h
  | cons a as ih =>
      rw [forM_cons] at h
      rcases of_bind_error h with ha | ⟨_, _, has⟩
      · exact ⟨a, by simp, ha⟩
      · obtain ⟨b, hb, hfail⟩ := ih has
        exact ⟨b, by simp [hb], hfail⟩

/-- Steps whose failures are worded otherwise succeed as the steps themselves. -/
theorem foldlM_of_mapError {f : β → α → Except ε β} {word : α → ε → ε'} (as : List α) :
    ∀ {b b' : β}, as.foldlM (fun b a => (f b a).mapError (word a)) b = .ok b' →
      as.foldlM f b = .ok b' := by
  induction as with
  | nil =>
      intro b b' h
      exact congrArg Except.ok (Except.ok.inj h)
  | cons a as ih =>
      intro b b' h
      rw [List.foldlM_cons] at h ⊢
      obtain ⟨b₁, hfirst, hrest⟩ := of_bind_ok h
      rw [bind_of_ok (of_mapError_ok hfirst)]
      exact ih hrest

/-- A fold over numbered elements that leads from each state to the next. -/
theorem foldlM_zipIdx (f : β → α × Nat → Except ε β) (state : Nat → β) (as : List α) :
    ∀ k : Nat, (∀ m a, as[m]? = some a → f (state (k + m)) (a, k + m) = .ok (state (k + m + 1))) →
      (as.zipIdx k).foldlM f (state k) = .ok (state (k + as.length)) := by
  induction as with
  | nil => intro k _; rfl
  | cons a as ih =>
      intro k hstep
      have hfirst : f (state k) (a, k) = .ok (state (k + 1)) := hstep 0 a rfl
      rw [List.zipIdx_cons, List.foldlM_cons, hfirst]
      have hrest := ih (k + 1) fun m b hb => by
        have := hstep (m + 1) b hb
        rwa [Nat.add_comm m 1, ← Nat.add_assoc] at this
      rw [List.length_cons, Nat.add_comm as.length 1, ← Nat.add_assoc]
      exact hrest

end Answer

end AvroCodegen
