import Ev3duder.Data.Process

namespace Ev3duder.Data

/-! Loops that go on for as long as a condition on the world holds.  What the outside does in the coming passes is
given as a list; a run over every list is a run of any length.
-/

section Run

variable {σ ι : Type}

/-- `while (going) step`, for as many passes as the outside has decided. -/
def passes (going : σ → Bool) (step : ι → Proc σ Unit) : List ι → Proc σ Unit
  | [] => pure ()
  | input :: rest => fun world =>
      if going world then (step input >>= fun _ => passes going step rest) world else (some (), world)

/-- Every pass of the run meets the condition in the world it finds. -/
def Along (going : σ → Bool) (step : ι → Proc σ Unit) (meets : σ → ι → Prop) : List ι → σ → Prop
  | [], _ => True
  | input :: rest, world =>
      going world = true → meets world input ∧
        ∀ after, step input world = (some (), after) → Along going step meets rest after

variable {going : σ → Bool} {step : ι → Proc σ Unit} {meets other : σ → ι → Prop} {inputs : List ι} {world : σ}

@[simp] theorem passes_nil : passes going step [] world = (some (), world) := rfl

theorem passes_cons (input : ι) (inputs : List ι) (world : σ) :
    passes going step (input :: inputs) world =
      if going world then (step input >>= fun _ => passes going step inputs) world else (some (), world) := rfl

theorem passes_stopped {input : ι} (stopped : going world = false) :
    passes going step (input :: inputs) world = (some (), world) := by
  rw [passes_cons, stopped]
  rfl

theorem passes_died {input : ι} {after : σ} (goes : going world = true) (died : step input world = (none, after)) :
    passes going step (input :: inputs) world = (none, after) := by
  rw [passes_cons, if_pos goes, Proc.bind_died died]

theorem passes_next {input : ι} {after : σ} (goes : going world = true)
    (next : step input world = (some (), after)) :
    passes going step (input :: inputs) world = passes going step inputs after := by
  rw [passes_cons, if_pos goes, Proc.bind_returned next]

/-- What every pass preserves that meets the condition, a run of such passes preserves. -/
theorem passes_invariant {invariant : σ → Prop}
    (kept : ∀ world input, going world = true → invariant world → meets world input → invariant (step input world).2)
    (begin : invariant world) (along : Along going step meets inputs world) :
    invariant (passes going step inputs world).2 := by
  induction inputs generalizing world with
  | nil => exact begin
  | cons input rest ih =>
      cases goes : going world with
      | false =>
          rw [passes_stopped goes]
          exact begin
      | true =>
          obtain ⟨here, later⟩ := along goes
          have next := kept world input goes begin here
          rcases run : step input world with ⟨_ | done, after⟩
          · rw [passes_died goes run]
            rwa [run] at next
          · rw [passes_next goes run]
            rw [run] at next
            exact ih next (later after run)

/-- The same for a run that may die: the invariant holds while it lives, and what it implies holds in any case. -/
theorem passes_ends {invariant safe : σ → Prop}
    (kept : ∀ world input, going world = true → invariant world → meets world input →
      Proc.Ends (step input) world (fun _ => invariant) safe)
    (begin : invariant world) (along : Along going step meets inputs world) :
    Proc.Ends (passes going step inputs) world (fun _ => invariant) safe := by
  induction inputs generalizing world with
  | nil => exact begin
  | cons input rest ih =>
      cases goes : going world with
      | false =>
          rw [Proc.Ends, passes_stopped goes]
          exact begin
      | true =>
          obtain ⟨here, later⟩ := along goes
          have next := kept world input goes begin here
          unfold Proc.Ends at next
          rcases run : step input world with ⟨_ | done, after⟩
          · rw [run] at next
            rw [Proc.Ends, passes_died goes run]
            exact next
          · rw [run] at next
            have further := ih next (later after run)
            rw [Proc.Ends, passes_next goes run]
            exact further

theorem along_cons {input : ι} (here : going world = true → meets world input)
    (later : Along going step meets inputs (step input world).2) : Along going step meets (input :: inputs) world := by
  intro goes
  refine ⟨here goes, fun after run => ?_⟩
  rwa [run] at later

/-- Two conditions on the passes come to the same along a run on which one of them keeps what makes them the same. -/
theorem along_iff {invariant : σ → Prop}
    (agree : ∀ world input, going world = true → invariant world → (meets world input ↔ other world input))
    (kept : ∀ world input after, going world = true → invariant world → other world input →
      step input world = (some (), after) → invariant after)
    (begin : invariant world) : Along going step meets inputs world ↔ Along going step other inputs world := by
  induction inputs generalizing world with
  | nil => exact Iff.rfl
  | cons input rest ih =>
      constructor
      · intro along goes
        obtain ⟨here, later⟩ := along goes
        have meets := (agree world input goes begin).mp here
        exact ⟨meets, fun after run => (ih (kept world input after goes begin meets run)).mp (later after run)⟩
      · intro along goes
        obtain ⟨meets, later⟩ := along goes
        refine ⟨(agree world input goes begin).mpr meets, fun after run => ?_⟩
        exact (ih (kept world input after goes begin meets run)).mpr (later after run)

theorem along_of_forall (always : ∀ world, ∀ input ∈ inputs, meets world input) :
    Along going step meets inputs world := by
  induction inputs generalizing world with
  | nil => trivial
  | cons input rest ih =>
      intro goes
      refine ⟨always world input List.mem_cons_self, fun after run => ih ?_⟩
      exact fun world input member => always world input (List.mem_cons_of_mem _ member)

end Run

end Ev3duder.Data
