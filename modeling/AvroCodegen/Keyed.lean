set_option autoImplicit false

/-! # Keyed lists

A finite map is a list of pairs of a key and a value, read from the front: `get?` answers with the
first pair of a key. Two ways of writing give two orders. `put` keeps the position of a key that
is already there and adds a new key at the end, so the list stays in the order in which keys first
came. `insert` puts a key before the first greater one, so a list that starts empty stays in key
order, which for text is the order of code points.

Both writes obey the same reading law, `get?_put` and `get?_insert`: the key written reads the new
value and every other key reads what it read before. -/

namespace AvroCodegen

/-- A finite map as a list of pairs; the first pair of a key counts. -/
abbrev Keyed (α : Type) : Type := List (String × α)

namespace Keyed

variable {α : Type}

/-- The value of the first pair with the given key. -/
def get? (key : String) : Keyed α → Option α
  | [] => none
  | (k, v) :: rest => if k = key then some v else get? key rest

/-- Whether some pair has the key. -/
def has (key : String) (m : Keyed α) : Bool :=
  (get? key m).isSome

/-- The keys, in list order. -/
def keys (m : Keyed α) : List String :=
  m.map Prod.fst

/-- The values, in list order. -/
def values (m : Keyed α) : List α :=
  m.map Prod.snd

/-- Writes a key in place, or at the end when it is new. -/
def put (key : String) (value : α) : Keyed α → Keyed α
  | [] => [(key, value)]
  | (k, v) :: rest => if k = key then (key, value) :: rest else (k, v) :: put key value rest

/-- Writes a key before the first greater one. -/
def insert (key : String) (value : α) : Keyed α → Keyed α
  | [] => [(key, value)]
  | (k, v) :: rest =>
    if k = key then (key, value) :: rest
    else if key < k then (key, value) :: (k, v) :: rest
    else (k, v) :: insert key value rest

/-- Inserts every pair of `upper`, so that `upper` wins on common keys. -/
def overlay (base upper : Keyed α) : Keyed α :=
  upper.foldl (fun m pair => insert pair.1 pair.2 m) base

/-- Inserts the pairs of `extra` whose key is new, so that `base` wins on common keys. -/
def underlay (base extra : Keyed α) : Keyed α :=
  extra.foldl (fun m pair => if has pair.1 m then m else insert pair.1 pair.2 m) base

/-! ## Reading after writing -/

theorem get?_put (key other : String) (value : α) (m : Keyed α) :
    get? other (put key value m) = if key = other then some value else get? other m := by
  induction m with
  | nil => simp [put, get?]
  | cons pair rest ih =>
    obtain ⟨k, v⟩ := pair
    by_cases hk : k = key
    · subst hk
      by_cases ho : k = other <;> simp [put, get?, ho]
    · by_cases ho : k = other
      · subst ho
        simp [put, get?, hk, Ne.symm hk]
      · simp [put, get?, hk, ho, ih]

theorem get?_insert (key other : String) (value : α) (m : Keyed α) :
    get? other (insert key value m) = if key = other then some value else get? other m := by
  induction m with
  | nil => simp [insert, get?]
  | cons pair rest ih =>
    obtain ⟨k, v⟩ := pair
    by_cases hk : k = key
    · subst hk
      by_cases ho : k = other <;> simp [insert, get?, ho]
    · by_cases hlt : key < k
      · simp [insert, get?, hk, hlt]
      · by_cases ho : k = other
        · subst ho
          simp [insert, get?, hk, hlt, Ne.symm hk]
        · simp [insert, get?, hk, hlt, ho, ih]

/-! ## What a look-up finds is part of the list -/

theorem mem_of_get? {key : String} {value : α} {m : Keyed α} (h : get? key m = some value) :
    (key, value) ∈ m := by
  induction m with
  | nil => simp [get?] at h
  | cons pair rest ih =>
    obtain ⟨k, v⟩ := pair
    by_cases hk : k = key
    · simp [get?, hk] at h
      simp [hk, h]
    · simp [get?, hk] at h
      exact List.mem_cons_of_mem _ (ih h)

theorem get?_append_of_get? {key : String} {value : α} {front : Keyed α} (back : Keyed α)
    (h : get? key front = some value) : get? key (front ++ back) = some value := by
  induction front with
  | nil => simp [get?] at h
  | cons pair rest ih =>
    obtain ⟨k, v⟩ := pair
    by_cases hk : k = key
    · simpa [get?, hk] using h
    · simp only [get?, if_neg hk] at h
      simpa [get?, hk] using ih h

/-! ## Keys -/

theorem mem_keys {key : String} {m : Keyed α} : key ∈ keys m ↔ ∃ v, (key, v) ∈ m := by
  simp [keys]

theorem mem_keys_of_get? {key : String} {value : α} {m : Keyed α} (h : get? key m = some value) :
    key ∈ keys m :=
  mem_keys.2 ⟨value, mem_of_get? h⟩

/-- Where keys are distinct, a look-up finds what is part of the list. -/
theorem get?_eq_some_iff_of_nodup {key : String} {value : α} {m : Keyed α} (h : (keys m).Nodup) :
    get? key m = some value ↔ (key, value) ∈ m := by
  refine ⟨mem_of_get?, fun hmem => ?_⟩
  induction m with
  | nil => simp at hmem
  | cons pair rest ih =>
    obtain ⟨k, v⟩ := pair
    rw [keys, List.map_cons, List.nodup_cons] at h
    rw [get?]
    rcases List.mem_cons.1 hmem with heq | hrest
    · obtain ⟨rfl, rfl⟩ := Prod.mk.inj heq
      rw [if_pos rfl]
    · have hne : k ≠ key := fun heq => h.1 (heq ▸ mem_keys.2 ⟨value, hrest⟩)
      rw [if_neg hne, ih h.2 hrest]

theorem has_iff_mem_keys {key : String} {m : Keyed α} : has key m = true ↔ key ∈ keys m := by
  induction m with
  | nil => simp [has, get?, keys]
  | cons pair rest ih =>
    obtain ⟨k, v⟩ := pair
    by_cases hk : k = key
    · simp [has, get?, keys, hk]
    · have hne : ¬ key = k := fun h => hk h.symm
      simpa [has, get?, keys, hk, hne] using ih

theorem keys_put_of_mem {key : String} {value : α} {m : Keyed α} (h : key ∈ keys m) :
    keys (put key value m) = keys m := by
  induction m with
  | nil => simp [keys] at h
  | cons pair rest ih =>
    obtain ⟨k, v⟩ := pair
    by_cases hk : k = key
    · simp [put, keys, hk]
    · have hrest : key ∈ keys rest := by
        simp only [keys, List.map_cons, List.mem_cons] at h
        exact h.resolve_left fun hkey => hk hkey.symm
      simpa [put, keys, hk] using ih hrest

/-- Writing what is there changes nothing. -/
theorem put_of_get? {key : String} {value : α} {m : Keyed α} (h : get? key m = some value) :
    put key value m = m := by
  induction m with
  | nil => simp [get?] at h
  | cons pair rest ih =>
    obtain ⟨k, v⟩ := pair
    by_cases hk : k = key
    · subst hk
      simp [get?] at h
      simp [put, h]
    · simp [get?, hk] at h
      simp [put, hk, ih h]

theorem put_of_not_mem {key : String} {value : α} {m : Keyed α} (h : key ∉ keys m) :
    put key value m = m ++ [(key, value)] := by
  induction m with
  | nil => rfl
  | cons pair rest ih =>
    obtain ⟨k, v⟩ := pair
    simp only [keys, List.map_cons, List.mem_cons, not_or] at h
    have hk : ¬ k = key := fun hkey => h.1 hkey.symm
    simp only [put, if_neg hk, List.cons_append]
    rw [ih h.2]

theorem put_append {key : String} {value : α} {front back : Keyed α} (h : key ∉ keys front) :
    put key value (front ++ back) = front ++ put key value back := by
  induction front with
  | nil => rfl
  | cons pair rest ih =>
    obtain ⟨k, v⟩ := pair
    simp only [keys, List.map_cons, List.mem_cons, not_or] at h
    have hk : ¬ k = key := fun hkey => h.1 hkey.symm
    simp only [List.cons_append, put, if_neg hk]
    rw [ih h.2]

theorem eq_or_mem_of_mem_put {key : String} {value : α} {m : Keyed α} {pair : String × α}
    (h : pair ∈ put key value m) : pair = (key, value) ∨ pair ∈ m := by
  induction m with
  | nil => simpa [put] using h
  | cons first rest ih =>
    obtain ⟨k, v⟩ := first
    by_cases hk : k = key
    · rw [put, if_pos hk] at h
      exact (List.mem_cons.1 h).imp_right (List.mem_cons_of_mem _)
    · rw [put, if_neg hk] at h
      rcases List.mem_cons.1 h with h | h
      · exact Or.inr (List.mem_cons.2 (Or.inl h))
      · exact (ih h).imp_right (List.mem_cons_of_mem _)

theorem nodup_keys_put {key : String} {value : α} {m : Keyed α} (h : (keys m).Nodup) :
    (keys (put key value m)).Nodup := by
  by_cases hk : key ∈ keys m
  · rwa [keys_put_of_mem hk]
  · rw [put_of_not_mem hk]
    have hkeys : keys (m ++ [(key, value)]) = keys m ++ [key] := by simp [keys]
    rw [hkeys, List.nodup_append]
    refine ⟨h, by simp, fun a ha b hb => ?_⟩
    rw [List.mem_singleton.1 hb]
    exact fun heq => hk (heq ▸ ha)

theorem keys_subset_put (key : String) (value : α) (m : Keyed α) :
    keys m ⊆ keys (put key value m) := by
  by_cases hk : key ∈ keys m
  · rw [keys_put_of_mem hk]
    exact List.Subset.refl _
  · rw [put_of_not_mem hk]
    simp [keys]

theorem mem_keys_put (key : String) (value : α) (m : Keyed α) : key ∈ keys (put key value m) := by
  by_cases hk : key ∈ keys m
  · rwa [keys_put_of_mem hk]
  · rw [put_of_not_mem hk]
    simp [keys]

/-! ## Key order -/

/-- The keys ascend, so each comes once. -/
def Sorted (m : Keyed α) : Prop :=
  (keys m).Pairwise (· < ·)

theorem Sorted.nodup {m : Keyed α} (h : Sorted m) : (keys m).Nodup := by
  refine List.Pairwise.imp (fun {a b} hlt heq => ?_) h
  rw [heq] at hlt
  exact String.lt_irrefl b hlt

theorem Sorted.filter {m : Keyed α} (h : Sorted m) (p : String × α → Bool) :
    Sorted (m.filter p) :=
  h.sublist (List.filter_sublist.map _)

theorem get?_eq_none {key : String} {m : Keyed α} : get? key m = none ↔ key ∉ keys m := by
  rw [← has_iff_mem_keys, has, Bool.not_eq_true, Option.isSome_eq_false_iff,
    Option.isNone_iff_eq_none]

theorem mem_keys_insert {key other : String} {value : α} {m : Keyed α} :
    other ∈ keys (insert key value m) ↔ other = key ∨ other ∈ keys m := by
  rw [← has_iff_mem_keys, ← has_iff_mem_keys, has, has, get?_insert]
  by_cases hk : key = other
  · simp [hk]
  · simp [hk, Ne.symm hk]

theorem eq_or_mem_of_mem_insert {key : String} {value : α} {m : Keyed α} {pair : String × α}
    (h : pair ∈ insert key value m) : pair = (key, value) ∨ pair ∈ m := by
  induction m with
  | nil => simpa [insert] using h
  | cons first rest ih =>
    obtain ⟨k, v⟩ := first
    by_cases hk : k = key
    · rw [insert, if_pos hk] at h
      exact (List.mem_cons.1 h).imp_right (List.mem_cons_of_mem _)
    by_cases hlt : key < k
    · rw [insert, if_neg hk, if_pos hlt] at h
      exact List.mem_cons.1 h
    · rw [insert, if_neg hk, if_neg hlt] at h
      rcases List.mem_cons.1 h with h | h
      · exact Or.inr (List.mem_cons.2 (Or.inl h))
      · exact (ih h).imp_right (List.mem_cons_of_mem _)

theorem sorted_insert {key : String} {value : α} {m : Keyed α} (h : Sorted m) :
    Sorted (insert key value m) := by
  induction m with
  | nil => exact List.pairwise_singleton _ _
  | cons pair rest ih =>
    obtain ⟨k, v⟩ := pair
    have hcons : (∀ other ∈ keys rest, k < other) ∧ Sorted rest := List.pairwise_cons.1 h
    by_cases hk : k = key
    · rw [insert, if_pos hk, ← hk]
      exact h
    by_cases hlt : key < k
    · rw [insert, if_neg hk, if_pos hlt]
      refine List.pairwise_cons.2 ⟨fun other hother => ?_, h⟩
      rcases List.mem_cons.1 hother with rfl | hother
      · exact hlt
      · exact String.lt_trans hlt (hcons.1 other hother)
    · rw [insert, if_neg hk, if_neg hlt]
      refine List.pairwise_cons.2 ⟨fun other hother => ?_, ih hcons.2⟩
      rcases mem_keys_insert.1 hother with rfl | hother
      · by_cases hgt : k < other
        · exact hgt
        · exact absurd (String.le_antisymm (String.not_lt.1 hlt) (String.not_lt.1 hgt)) hk
      · exact hcons.1 other hother

/-! ## Merging -/

/-- The upper map wins, given that it has each key once. -/
theorem get?_overlay {key : String} {base upper : Keyed α} (h : (keys upper).Nodup) :
    get? key (overlay base upper) = (get? key upper).or (get? key base) := by
  unfold overlay
  induction upper generalizing base with
  | nil => rfl
  | cons pair rest ih =>
    obtain ⟨k, v⟩ := pair
    have hcons : k ∉ keys rest ∧ (keys rest).Nodup := List.nodup_cons.1 h
    rw [List.foldl_cons, ih hcons.2, get?_insert]
    by_cases hk : k = key
    · rw [← hk, get?_eq_none.2 hcons.1]
      simp [get?]
    · simp [get?, hk]

/-- The lower map fills in what is missing. -/
theorem get?_underlay {key : String} {base extra : Keyed α} :
    get? key (underlay base extra) = (get? key base).or (get? key extra) := by
  unfold underlay
  induction extra generalizing base with
  | nil => simp [get?]
  | cons pair rest ih =>
    obtain ⟨k, v⟩ := pair
    rw [List.foldl_cons, ih]
    by_cases hbase : has k base
    · rw [if_pos hbase]
      by_cases hk : k = key
      · obtain ⟨v', hv'⟩ := Option.isSome_iff_exists.1 (hk ▸ hbase)
        simp [hv']
      · simp [get?, hk]
    · rw [if_neg hbase, get?_insert]
      by_cases hk : k = key
      · have hnone : get? key base = none := by simpa [has, hk] using hbase
        simp [get?, hk, hnone]
      · simp [get?, hk]

end Keyed

end AvroCodegen
