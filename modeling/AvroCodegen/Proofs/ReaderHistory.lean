import AvroCodegen.Proofs.SourceOrder

set_option autoImplicit false

/-! # What a call leaves alone

A call that fails may do so anywhere: behind definitions that it has stored already, or inside the
body of one, where the namespace is not the one around the call. Nothing is undone, so what a failed
call leaves has to be good enough for the next one. It is: definitions and open references that were
there before stay where they are, the namespace is given back, and the top level is written by a
source that was read to its end and by nothing else (`Reader.call_leaves`). -/

namespace AvroCodegen

namespace Reader

/-- What a source leaves, by how reading it ended: what was stored and pending stands in front, no
    namespace is open, and the names that it declares are the answer. -/
structure Leaves (r : Reader) (origin : String) (answer : Except Fault (List String))
    (r' : Reader) : Prop where
  named : r.named <+: r'.named
  pending : r.pending <+: r'.pending
  space : r'.space = none
  location : r'.location = origin
  declared : ∀ names, answer = .ok names → r'.topLevel = r.topLevel ++ names
  undeclared : ∀ fault, answer = .error fault → r'.topLevel = r.topLevel

/-- One reader comes before another: whatever it has stands in front, in the same places. -/
structure Precedes (r r' : Reader) : Prop where
  named : r.named <+: r'.named
  pending : r.pending <+: r'.pending
  topLevel : r.topLevel <+: r'.topLevel

variable {r r' r₁ : Reader} {origin : String}

theorem Precedes.refl (r : Reader) : r.Precedes r :=
  ⟨List.prefix_refl _, List.prefix_refl _, List.prefix_refl _⟩

theorem Precedes.trans (h : r.Precedes r₁) (h' : r₁.Precedes r') : r.Precedes r' :=
  ⟨h.named.trans h'.named, h.pending.trans h'.pending, h.topLevel.trans h'.topLevel⟩

theorem Grows.precedes (h : r.Grows r') : r.Precedes r' :=
  ⟨h.named, h.pending, h.topLevel ▸ List.prefix_refl _⟩

theorem Leaves.precedes {answer : Except Fault (List String)} (h : r.Leaves origin answer r') :
    r.Precedes r' := by
  refine ⟨h.named, h.pending, ?_⟩
  cases answer with
  | ok names => exact (h.declared names rfl).symm ▸ List.prefix_append _ _
  | error fault => exact (h.undeclared fault rfl).symm ▸ List.prefix_refl _

/-! ## One call -/

/-- Until the top level is written, a source leaves what its members leave. -/
theorem Grows.leaves {fault : Fault} (h : Grows { r with location := origin, space := none } r') :
    r.Leaves origin (.error fault) r' where
  named := h.named
  pending := h.pending
  space := h.space
  location := h.location
  declared := by simp
  undeclared := fun _ _ => h.topLevel

/-- What was read to its end is written to the top level. -/
theorem Grows.leaves_declared {names : List String}
    (h : Grows { r with location := origin, space := none } r') :
    r.Leaves origin (.ok names) { r' with topLevel := r'.topLevel ++ names } where
  named := h.named
  pending := h.pending
  space := h.space
  location := h.location
  declared := by
    intro names' hok
    obtain rfl := Except.ok.inj hok
    exact congrArg (· ++ names) h.topLevel
  undeclared := by simp

theorem leaves_readSource (hr : r.Sound) (origin text : String) :
    r.Leaves origin (Reading.outcome (readSource origin text) r).1
      (Reading.outcome (readSource origin text) r).2 := by
  have hstart : Sound { r with location := origin, space := none } :=
    sound_of_eq hr rfl (List.prefix_refl _) rfl
  cases hvalue : Json.read? text with
  | none =>
      have hfails : Reading.outcome (readSource origin text) r =
          Reading.outcome (complain .invalidJson) { r with location := origin, space := none } := by
        unfold readSource
        rw [hvalue]
        rfl
      rw [hfails]
      exact (Grows.refl _).leaves
  | some value =>
      have hmembers : Reading.outcome (readSource origin text) r =
          Reading.outcome (do
            let declared ← readDeclared (sourceMembers value)
            modify fun r => { r with topLevel := r.topLevel ++ declared }
            return declared) { r with location := origin, space := none } := by
        unfold readSource
        rw [hvalue]
        rfl
      have hgrows := (readDeclared_keeps (sourceMembers value) hstart).1.1
      rw [hmembers, Reading.outcome_bind]
      rcases hread : Reading.outcome (readDeclared (sourceMembers value))
        { r with location := origin, space := none } with ⟨answer, r₁⟩
      rw [hread] at hgrows
      cases answer with
      | error fault => exact hgrows.leaves
      | ok names => exact hgrows.leaves_declared

theorem Call.precedes_run (call : Call) (hr : r.Sound) : r.Precedes (call.run r) := by
  cases call with
  | source origin text => exact (leaves_readSource hr origin text).precedes
  | node value => exact (safe_read.1 value r hr).1.1.precedes

/-! ## Many calls -/

theorem precedes_foldl (calls : List Call) :
    ∀ {r : Reader}, r.Sound → r.Precedes (calls.foldl (fun r call => call.run r) r) := by
  induction calls with
  | nil => exact fun _ => .refl _
  | cons call rest ih =>
      intro r hr
      exact (call.precedes_run hr).trans (ih (call.sound_run hr))

/-- **A call leaves alone what was there.** In whatever state earlier calls have left a reader, and
    whether the next call succeeds or fails at any depth: a schema adds definitions and open
    references behind those that are there, and changes nothing else; a source does the same, closes
    the namespace, and adds what it declares to the top level if it succeeds. So whatever calls
    follow, nothing that is stored, open or declared is ever lost or moved. -/
theorem call_leaves (calls : List Call) :
    (∀ value, (after calls).Grows (Reading.outcome (readNode value) (after calls)).2) ∧
    (∀ origin text, (after calls).Leaves origin
      (Reading.outcome (readSource origin text) (after calls)).1
      (Reading.outcome (readSource origin text) (after calls)).2) ∧
    ∀ later, (after calls).Precedes (after (calls ++ later)) := by
  have hr := sound_after calls
  refine ⟨fun value => (safe_read.1 value _ hr).1.1, leaves_readSource hr, fun later => ?_⟩
  rw [after, after, List.foldl_append]
  exact precedes_foldl later hr

end Reader

end AvroCodegen
