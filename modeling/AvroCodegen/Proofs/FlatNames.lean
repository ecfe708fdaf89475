import AvroCodegen.Proofs.ExpansionForms

set_option autoImplicit false

/-! # Names of an expansion

The names of an expansion become the names of columns and of accessors, so they have to be different.
If the fields of every record have different names, the ways through the records are different as lists
of names; the joiner keeps them different if it is a character that no name has, for then a name can be
split into the list that it came from. -/

namespace AvroCodegen

/-- The parts of a name between the places where a character stands. -/
def splitAt (c : Char) (name : String) : List String :=
  (name.split c).toList.map String.Slice.copy

theorem splitAt_intercalate {c : Char} {names : List String} (hne : names ≠ [])
    (h : ∀ name ∈ names, c ∉ name.toList) :
    splitAt c ((String.singleton c).intercalate names) = names :=
  (String.toList_split_intercalate h).trans (if_neg hne)

namespace Trail

/-- The names of all fields of a trail. -/
def names (t : Trail) : List String :=
  t.fields.map Field.name

@[simp] theorem names_below (f : Field) (t : Trail) : (below f t).names = f.name :: t.names := rfl

theorem names_ne_nil (t : Trail) : t.names ≠ [] := by
  simp [names, fields]

theorem head?_names_of_mem_block {inner : List Trail} {f : Field} {t : Trail}
    (h : t ∈ block f inner) : t.names.head? = some f.name := by
  rcases mem_block.1 h with rfl | ⟨u, _, rfl⟩ | rfl <;> rfl

theorem getLast?_fields (t : Trail) : t.fields.getLast? = some t.field := by
  simp [fields]

/-- Two trails that lead to entries of different names, unless one is the end of a span. -/
def Differ (t u : Trail) : Prop :=
  t.mark ≠ .closing → u.mark ≠ .closing → t.names ≠ u.names

theorem Differ.below {t u : Trail} (h : Differ t u) (f : Field) :
    Differ (t.below f) (u.below f) :=
  fun ht hu heq => h ht hu (List.cons.inj heq).2

/-- The trails of a record field are different if those of its record are. -/
theorem pairwise_differ_block {inner : List Trail} (f : Field) (h : inner.Pairwise Differ) :
    (block f inner).Pairwise Differ := by
  rw [block, List.cons_append, List.pairwise_cons, List.pairwise_append]
  refine ⟨?opening, List.pairwise_map.2 (h.imp fun hdiffer => hdiffer.below f), by simp, ?closing⟩
  case opening =>
    intro t ht
    rcases List.mem_append.1 ht with ht | ht
    · obtain ⟨u, _, rfl⟩ := List.mem_map.1 ht
      exact fun _ _ heq => u.names_ne_nil (List.cons.inj heq).2.symm
    · rw [List.mem_singleton.1 ht]
      exact fun _ hclosing => absurd rfl hclosing
  case closing =>
    intro t _ u hu
    rw [List.mem_singleton.1 hu]
    exact fun _ hclosing => absurd rfl hclosing

end Trail

namespace Store

variable {s : Store} {shown : Shown} {id : Nat} {c : Char} {f : Field} {fs way : List Field}
  {ts : List Trail}

/-! ## Ways and trails -/

/-- The trails of some fields contain those of each of them. -/
theorem Unfolds.of_mem (h : s.Unfolds fs ts) (hf : f ∈ fs) :
    ∃ part, s.Unfolds [f] part ∧ part ⊆ ts := by
  induction h with
  | nil => cases hf
  | leaf htype _ ih =>
      rcases List.mem_cons.1 hf with rfl | hf
      · exact ⟨_, .leaf htype .nil, by simp⟩
      · obtain ⟨part, hpart, hsub⟩ := ih hf
        exact ⟨part, hpart, List.subset_cons_of_subset _ hsub⟩
  | block htype hinner _ _ ih =>
      rcases List.mem_cons.1 hf with rfl | hf
      · exact ⟨_, .block htype hinner .nil, by simp⟩
      · obtain ⟨part, hpart, hsub⟩ := ih hf
        exact ⟨part, hpart, List.subset_append_of_subset_right _ hsub⟩

/-- No trail begins with a name that none of the fields has. -/
theorem Unfolds.head_ne (h : s.Unfolds fs ts) {name : String} (hname : name ∉ fs.map Field.name)
    {t : Trail} (ht : t ∈ ts) : t.names.head? ≠ some name := by
  obtain ⟨f, hf, rest, hfields⟩ := (h.leads t ht).exists_cons
  rw [Trail.names, hfields]
  rintro heq
  exact hname (List.mem_map.2 ⟨f, hf, Option.some.inj heq⟩)

/-- Every way from fields that unfold is a trail to a leaf or to a record field. -/
theorem Unfolds.exists_trail (h : s.Unfolds fs ts) (hway : s.Leads fs way) :
    ∃ t ∈ ts, t.fields = way ∧ t.mark ≠ .closing := by
  induction hway generalizing ts with
  | @here f fs hf =>
      obtain ⟨part, hpart, hsub⟩ := h.of_mem hf
      cases hpart with
      | leaf _ _ => exact ⟨⟨[], f, .leaf⟩, hsub (by simp), rfl, by simp⟩
      | block _ _ _ => exact ⟨⟨[], f, .opening⟩, hsub (by simp [Trail.block]), rfl, by simp⟩
  | @inside f fs way nested hf htype _ ih =>
      obtain ⟨part, hpart, hsub⟩ := h.of_mem hf
      cases hpart with
      | leaf hnone _ =>
          rw [htype] at hnone
          cases hnone
      | block hsome hinner _ =>
          rw [htype, Option.some.injEq] at hsome
          subst hsome
          obtain ⟨t, ht, rfl, hmark⟩ := ih hinner
          have hmem : t.below f ∈ Trail.block f _ :=
            Trail.mem_block.2 (Or.inr (Or.inl ⟨t, ht, rfl⟩))
          exact ⟨t.below f, hsub (List.mem_append_left _ hmem), rfl, hmark⟩

/-- Of the trails that do not end a span the last field tells which form shows them. -/
theorem Unfolds.shows_iff (h : s.Unfolds fs ts) (hshown : shown ≠ .bracketed) {t : Trail}
    (ht : t ∈ ts) : shown.shows t.mark = true ↔
      t.mark ≠ .closing ∧ t.field.opens = decide (shown = .records) := by
  have hopens : t.field.opens = false ↔ t.mark = .leaf := by
    rw [h.mark t ht, Field.opens, Option.isSome_eq_false_iff, Option.isNone_iff_eq_none]
  cases shown with
  | bracketed => exact absurd rfl hshown
  | leaves =>
      cases hmark : t.mark <;> simp [Shown.shows, hopens, hmark]
  | records =>
      have hopens' : t.field.opens = true ↔ t.mark ≠ .leaf := by
        rw [ne_eq, ← hopens, Bool.not_eq_false]
      cases hmark : t.mark <;> simp [Shown.shows, hopens', hmark]

/-- If all records have fields of different names, no two trails have the same names. -/
theorem Unfolds.pairwise_differ (h : s.Unfolds fs ts) (hfs : (fs.map Field.name).Nodup)
    (hs : ∀ id, ((s.fieldsAt id).map Field.name).Nodup) : ts.Pairwise Trail.Differ := by
  induction h with
  | nil => exact .nil
  | @leaf f fs ts htype hrest ih =>
      obtain ⟨hf, hfs⟩ := List.nodup_cons.1 hfs
      refine List.pairwise_cons.2 ⟨fun t ht _ _ heq => ?_, ih hfs⟩
      exact hrest.head_ne hf ht (congrArg List.head? heq).symm
  | @block f fs ts inner nested htype hinner hrest ihinner ih =>
      obtain ⟨hf, hfs⟩ := List.nodup_cons.1 hfs
      have hblock := Trail.pairwise_differ_block f (ihinner (hs nested))
      -- trails of different fields have different first names
      refine List.pairwise_append.2 ⟨hblock, ih hfs, fun t ht u hu _ _ heq => ?_⟩
      have hhead : t.names.head? = some f.name := Trail.head?_names_of_mem_block ht
      exact hrest.head_ne hf hu (by rw [← heq, hhead])

/-! ## Names that can be split -/

/-- The fields of every record have different names, and a character is in none of them. -/
structure Separable (s : Store) (c : Char) : Prop where
  nodup : ∀ id, ((s.fieldsAt id).map Field.name).Nodup
  absent : ∀ id, ∀ f ∈ s.fieldsAt id, c ∉ f.name.toList

/-- An expansion whose entries can be traced back. Their names are different, and splitting a name
    gives the names of the fields on a way to the entry. The ways are all those whose last field is of
    the kind that the form shows. -/
structure Traceable (s : Store) (shown : Shown) (c : Char) (id : Nat) (out : List Field) :
    Prop where
  nodup : (out.map Field.name).Nodup
  ways : ∃ ways, List.Forall₂ (fun e way => splitAt c e.name = way.map Field.name ∧
      way.getLast?.map Field.type = some e.type) out ways ∧
    ∀ way, way ∈ ways ↔ s.Leads (s.fieldsAt id) way ∧
      ∃ f, way.getLast? = some f ∧ f.opens = decide (shown = .records)

variable {t : Trail}

/-- A character that no field name has splits the name of an entry into the names on its trail. -/
theorem Unfolds.splitAt_entry (h : s.Unfolds (s.fieldsAt id) ts) (hs : s.Separable c)
    (ht : t ∈ ts) : splitAt c (t.entry (String.singleton c) "").name = t.names := by
  have habsent : ∀ f ∈ t.fields, c ∉ f.name.toList :=
    (h.leads t ht).forall_mem (hs.absent id) hs.absent
  have hentry : (t.entry (String.singleton c) "").name =
      (String.singleton c).intercalate t.names := String.empty_append
  rw [hentry]
  exact splitAt_intercalate t.names_ne_nil (List.forall_mem_map.2 habsent)

/-- The ways to what a form shows are the trails that it shows. -/
theorem Unfolds.mem_ways_iff (h : s.Unfolds fs ts) (hshown : shown ≠ .bracketed) :
    way ∈ (ts.filter fun t => shown.shows t.mark).map Trail.fields ↔ s.Leads fs way ∧
      ∃ f, way.getLast? = some f ∧ f.opens = decide (shown = .records) := by
  rw [List.mem_map]
  constructor
  · rintro ⟨t, ht, rfl⟩
    obtain ⟨ht, hshows⟩ := List.mem_filter.1 ht
    exact ⟨h.leads t ht, t.field, t.getLast?_fields, ((h.shows_iff hshown ht).1 hshows).2⟩
  · rintro ⟨hway, f, hlast, hopens⟩
    obtain ⟨t, ht, rfl, hmark⟩ := h.exists_trail hway
    rw [t.getLast?_fields, Option.some.injEq] at hlast
    subst hlast
    exact ⟨t, List.mem_filter.2 ⟨ht, (h.shows_iff hshown ht).2 ⟨hmark, hopens⟩⟩, rfl⟩

/-- **Names of an expansion are different and can be split.** If the fields of every record have
    different names and the joiner is a character that is in none, then the leaves of an expansion have
    different names, as have its record fields, and splitting a name at the joiner gives back the names
    of the fields on the way from the record. -/
theorem expand_traceable (hs : s.Separable c) (hshown : shown ≠ .bracketed) {out : List Field}
    (h : s.expand shown (String.singleton c) id = .ok out) : s.Traceable shown c id out := by
  obtain ⟨ts, hts, rfl⟩ := expand_eq_ok_iff.1 h
  have hsplit : ∀ t ∈ ts, splitAt c (t.entry (String.singleton c) "").name = t.names :=
    fun t ht => hts.splitAt_entry hs ht
  refine ⟨?nodup, (ts.filter fun t => shown.shows t.mark).map Trail.fields, ?ways,
    fun way => hts.mem_ways_iff hshown⟩
  case nodup =>
    rw [Trail.entries, List.map_map, List.Nodup, List.pairwise_map]
    have hdiffer := (hts.pairwise_differ (hs.nodup id) hs.nodup).filter
      (fun t => shown.shows t.mark)
    refine hdiffer.imp_of_mem fun {t u} ht hu htu heq => ?_
    obtain ⟨ht, htshows⟩ := List.mem_filter.1 ht
    obtain ⟨hu, hushows⟩ := List.mem_filter.1 hu
    have hnames : t.names = u.names := by
      rw [← hsplit t ht, ← hsplit u hu]
      exact congrArg (splitAt c) heq
    exact htu ((hts.shows_iff hshown ht).1 htshows).1 ((hts.shows_iff hshown hu).1 hushows).1 hnames
  case ways =>
    rw [Trail.entries, List.forall₂_map_left_iff, List.forall₂_map_right_iff, List.forall₂_same]
    intro t ht
    obtain ⟨ht, hshows⟩ := List.mem_filter.1 ht
    have htype : (t.entry (String.singleton c) "").type = t.field.type :=
      if_neg ((hts.shows_iff hshown ht).1 hshows).1
    exact ⟨hsplit t ht, by rw [t.getLast?_fields, htype]; rfl⟩

/-- Numbers that the store does not give have no fields. -/
theorem fieldsAt_of_size_le (h : s.size ≤ id) : s.fieldsAt id = [] := by
  have hnone : s.entities[id]? = none := List.getElem?_eq_none h
  simp [fieldsAt, record?, get?, hnone]

theorem separable_parcel : parcelStore.Separable '_' := by
  have hsize : parcelStore.size = 3 := by decide +kernel
  have hnodup : ∀ id < 3, ((parcelStore.fieldsAt id).map Field.name).Nodup := by decide +kernel
  have habsent : ∀ id < 3, ∀ name ∈ (parcelStore.fieldsAt id).map Field.name,
      '_' ∉ name.toList := by decide +kernel
  refine ⟨fun id => ?_, fun id f hf => ?_⟩
  · by_cases hid : id < 3
    · exact hnodup id hid
    · rw [fieldsAt_of_size_le (by omega)]
      exact List.nodup_nil
  · by_cases hid : id < 3
    · exact habsent id hid f.name (List.mem_map_of_mem hf)
    · rw [fieldsAt_of_size_le (by omega)] at hf
      cases hf

theorem expand_traceable_parcel :
    parcelStore.Separable '_' ∧
    ∃ leaves records, parcelStore.expand .leaves (String.singleton '_') 2 = .ok leaves ∧
      parcelStore.expand .records (String.singleton '_') 2 = .ok records ∧
      leaves.map Field.name =
        ["id", "from_street", "from_city_name", "to_street", "to_city_name", "seals"] ∧
      records.map Field.name = ["from", "from_city", "to", "to_city"] ∧
      parcelStore.Traceable .leaves '_' 2 leaves ∧
      parcelStore.Traceable .records '_' 2 records := by
  have hleaves := Answer.eq_ok_getD
    (m := parcelStore.expand .leaves (String.singleton '_') 2) [] (by decide +kernel)
  have hrecords := Answer.eq_ok_getD
    (m := parcelStore.expand .records (String.singleton '_') 2) [] (by decide +kernel)
  exact ⟨separable_parcel, _, _, hleaves, hrecords, by decide +kernel, by decide +kernel,
    expand_traceable separable_parcel (by simp) hleaves,
    expand_traceable separable_parcel (by simp) hrecords⟩

end Store

end AvroCodegen
