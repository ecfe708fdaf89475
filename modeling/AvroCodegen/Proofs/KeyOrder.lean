import AvroCodegen.Json.Reader

set_option autoImplicit false

/-! # The order of keys in JSON that was read

Every object of a value that was read has its keys in ascending order, each once: members enter by
`Keyed.insert`, which keeps the order whatever comes. -/

namespace AvroCodegen.Json

/-- Every object in a value has its keys in order. -/
inductive Ordered : Json → Prop
  | leaf {value : Json} : value.array? = none → value.object? = none → Ordered value
  | arr {items : List Json} : (∀ value ∈ items, Ordered value) → Ordered (.arr items)
  | obj {members : Properties} : Keyed.Sorted members →
      (∀ key value, (key, value) ∈ members → Ordered value) → Ordered (.obj members)

theorem Ordered.item {items : List Json} {value : Json} (h : Ordered (.arr items))
    (hv : value ∈ items) : Ordered value := by
  cases h with
  | leaf h _ => cases h
  | arr h => exact h value hv

theorem Ordered.sorted {members : Properties} (h : Ordered (.obj members)) :
    Keyed.Sorted members := by
  cases h with
  | leaf _ h => cases h
  | obj h _ => exact h

theorem Ordered.get? {members : Properties} {key : String} {value : Json}
    (h : Ordered (.obj members)) (hv : Keyed.get? key members = some value) : Ordered value := by
  cases h with
  | leaf _ h => cases h
  | obj _ h => exact h key value (Keyed.mem_of_get? hv)

theorem ordered_nil : Ordered (.obj []) :=
  .obj List.Pairwise.nil (by simp)

theorem Ordered.insert {members : Properties} (h : Ordered (.obj members)) (key : String)
    {value : Json} (hv : Ordered value) : Ordered (.obj (Keyed.insert key value members)) := by
  cases h with
  | leaf _ h => cases h
  | obj hsorted h =>
      refine .obj (Keyed.sorted_insert hsorted) fun k v hmem => ?_
      rcases Keyed.eq_or_mem_of_mem_insert hmem with heq | hmem
      · cases heq
        exact hv
      · exact h k v hmem

/-! ## Reading -/

theorem realNumber_eq_num {negative : Bool} {significand : Nat} {e : Int} {value : Json}
    (h : realNumber negative significand e = some value) : ∃ n, value = .num n := by
  obtain ⟨x, _, rfl⟩ := Option.map_eq_some_iff.1 h
  exact ⟨_, rfl⟩

theorem numberOf_eq_num {negative : Bool} {whole fraction : List Char}
    {power : Option (Bool × List Char)} {value : Json}
    (h : numberOf negative whole fraction power = some value) : ∃ n, value = .num n := by
  unfold numberOf at h
  dsimp only at h
  split at h
  · split at h
    · exact ⟨_, (Option.some.inj h).symm⟩
    split at h
    · exact realNumber_eq_num h
    · exact ⟨_, (Option.some.inj h).symm⟩
  · split at h
    · exact realNumber_eq_num h
    · split at h
      · exact realNumber_eq_num h
      split at h
      · cases h
      · exact realNumber_eq_num h

/-- The end of reading a number, once its digits are known. -/
theorem readPower_eq_num {negative : Bool} {whole fraction r rest : List Char} {value : Json}
    (h : (do
      let (power, r) ← readPower r
      let value ← numberOf negative whole fraction power
      pure (value, r)) = some (value, rest)) : ∃ n, value = .num n := by
  obtain ⟨⟨power, r'⟩, _, h⟩ := Option.bind_eq_some_iff.1 h
  obtain ⟨value', hvalue, h⟩ := Option.bind_eq_some_iff.1 h
  cases h
  exact numberOf_eq_num hvalue

theorem readNumber_eq_num {negative : Bool} {s rest : List Char} {value : Json}
    (h : readNumber negative s = some (value, rest)) : ∃ n, value = .num n := by
  unfold readNumber at h
  dsimp only at h
  split at h
  · cases h
  · cases h
  · split at h
    · split at h
      · cases h
      · exact readPower_eq_num h
    · exact readPower_eq_num h

theorem ordered_of_readNumber {negative : Bool} {s rest : List Char} {value : Json}
    (h : readNumber negative s = some (value, rest)) : value.Ordered := by
  obtain ⟨n, rfl⟩ := readNumber_eq_num h
  exact .leaf rfl rfl

section Steps

variable {fuel depth : Nat} {s rest : List Char}

theorem ordered_readValue_succ {value : Json}
    (hitems : ∀ depth s items rest, readItems fuel depth [] s = some (items, rest) →
      ∀ value ∈ items, value.Ordered)
    (hmembers : ∀ depth s members rest, readMembers fuel depth [] s = some (members, rest) →
      (Json.obj members).Ordered)
    (h : readValue (fuel + 1) depth s = some (value, rest)) : value.Ordered := by
  rw [readValue.eq_def] at h
  dsimp only at h
  -- one case for each way that a value may begin
  split at h
  · cases h; exact .leaf rfl rfl
  · cases h; exact .leaf rfl rfl
  · cases h; exact .leaf rfl rfl
  · obtain ⟨p, _, h⟩ := Option.map_eq_some_iff.1 h
    cases h
    exact .leaf rfl rfl
  · exact ordered_of_readNumber h
  · split at h
    · cases h
    split at h
    · cases h
      exact .arr (by simp)
    · obtain ⟨p, hp, h⟩ := Option.map_eq_some_iff.1 h
      cases h
      exact .arr (hitems _ _ p.1 p.2 hp)
  · split at h
    · cases h
    split at h
    · cases h
      exact ordered_nil
    · obtain ⟨p, hp, h⟩ := Option.map_eq_some_iff.1 h
      cases h
      exact hmembers _ _ p.1 p.2 hp
  · split at h
    · exact ordered_of_readNumber h
    · cases h
  · cases h

theorem ordered_readItems_succ {done items : List Json}
    (hvalue : ∀ depth s value rest, readValue fuel depth s = some (value, rest) → value.Ordered)
    (hitems : ∀ depth done s items rest, readItems fuel depth done s = some (items, rest) →
      (∀ value ∈ done, value.Ordered) → ∀ value ∈ items, value.Ordered)
    (h : readItems (fuel + 1) depth done s = some (items, rest))
    (hdone : ∀ value ∈ done, value.Ordered) : ∀ value ∈ items, value.Ordered := by
  rw [readItems] at h
  split at h
  · cases h
  · next v r hv =>
      have hdone' : ∀ value ∈ v :: done, value.Ordered :=
        List.forall_mem_cons.2 ⟨hvalue _ _ _ _ hv, hdone⟩
      split at h
      · exact hitems _ _ _ _ _ h hdone'
      · cases h
        exact fun value hmem => hdone' value (List.mem_reverse.1 hmem)
      · cases h

theorem ordered_readMembers_succ {done members : Properties}
    (hvalue : ∀ depth s value rest, readValue fuel depth s = some (value, rest) → value.Ordered)
    (hmembers : ∀ depth done s members rest,
      readMembers fuel depth done s = some (members, rest) → (Json.obj done).Ordered →
      (Json.obj members).Ordered)
    (h : readMembers (fuel + 1) depth done s = some (members, rest))
    (hdone : (Json.obj done).Ordered) : (Json.obj members).Ordered := by
  rw [readMembers] at h
  split at h
  · split at h
    · cases h
    · next key _ _ =>
        split at h
        · split at h
          · cases h
          · next v r hv =>
              have hdone' := hdone.insert key (hvalue _ _ _ _ hv)
              dsimp only at h
              split at h
              · exact hmembers _ _ _ _ _ h hdone'
              · cases h
                exact hdone'
              · cases h
        · cases h
  · cases h

end Steps

/-- What is read is in order: a value, items behind items, and members among members. -/
theorem ordered_read (fuel : Nat) :
    (∀ depth s value rest, readValue fuel depth s = some (value, rest) → value.Ordered) ∧
    (∀ depth done s items rest, readItems fuel depth done s = some (items, rest) →
      (∀ value ∈ done, value.Ordered) → ∀ value ∈ items, value.Ordered) ∧
    (∀ depth done s members rest, readMembers fuel depth done s = some (members, rest) →
      (Json.obj done).Ordered → (Json.obj members).Ordered) := by
  induction fuel with
  | zero => simp [readValue, readItems, readMembers]
  | succ fuel ih =>
      obtain ⟨hvalue, hitems, hmembers⟩ := ih
      refine ⟨fun _ _ _ _ h => ?_, fun _ _ _ _ _ h hdone => ?_, fun _ _ _ _ _ h hdone => ?_⟩
      · exact ordered_readValue_succ (fun _ _ _ _ h => hitems _ _ _ _ _ h (by simp))
          (fun _ _ _ _ h => hmembers _ _ _ _ _ h ordered_nil) h
      · exact ordered_readItems_succ hvalue hitems h hdone
      · exact ordered_readMembers_succ hvalue hmembers h hdone

/-- A value that was read has its keys in order, at every depth. -/
theorem ordered_of_read? {text : String} {value : Json} (h : read? text = some value) :
    value.Ordered := by
  unfold read? at h
  dsimp only at h
  split at h
  · next v rest hread =>
      split at h
      · cases h
        exact (ordered_read _).1 _ _ _ _ hread
      · cases h
  · cases h

end AvroCodegen.Json
