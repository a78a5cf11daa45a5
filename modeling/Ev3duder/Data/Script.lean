namespace Ev3duder.Data

/-! Scripts: steps taken in order until one does not succeed.

`outcome step events passed` says that the step may leave `events` behind, with success or without.
-/

variable {σ ε : Type}

inductive Script (outcome : σ → List ε → Bool → Prop) : List σ → List ε → Bool → Prop where
  | finished : Script outcome [] [] true
  | passed {step steps events rest done} (here : outcome step events true)
      (others : Script outcome steps rest done) : Script outcome (step :: steps) (events ++ rest) done
  | stopped {step steps events} (here : outcome step events false) :
      Script outcome (step :: steps) events false

namespace Script

variable {outcome : σ → List ε → Bool → Prop} {step : σ} {steps first second : List σ}
  {events early late : List ε} {done : Bool}

theorem single (here : outcome step events done) : Script outcome [step] events done := by
  cases done with
  | false => exact stopped here
  | true => simpa using passed here finished

theorem of_single (run : Script outcome [step] events done) : outcome step events done := by
  cases run with
  | passed here others =>
      cases others
      rwa [List.append_nil]
  | stopped here => exact here

theorem append (earlyPassed : Script outcome first early true) (lateRun : Script outcome second late done) :
    Script outcome (first ++ second) (early ++ late) done := by
  generalize succeeded : true = result at earlyPassed
  induction earlyPassed with
  | finished => exact lateRun
  | passed here others ih =>
      rw [List.cons_append, List.append_assoc]
      exact passed here (ih succeeded)
  | stopped here => cases succeeded

theorem append_stopped (earlyStopped : Script outcome first early false) :
    Script outcome (first ++ second) early false := by
  generalize failed : false = result at earlyStopped
  induction earlyStopped with
  | finished => cases failed
  | passed here others ih => exact passed here (ih failed)
  | stopped here => exact stopped here

/-- A run of a script either stops in its first part or passes it and goes on with the second. -/
theorem append_cases (run : Script outcome (first ++ second) events done) :
    (Script outcome first events false ∧ done = false) ∨
      ∃ early late, events = early ++ late ∧ Script outcome first early true ∧
        Script outcome second late done := by
  induction first generalizing events with
  | nil => exact Or.inr ⟨[], events, rfl, finished, run⟩
  | cons step steps ih =>
      cases run with
      | passed here others =>
          rcases ih others with ⟨stop, failed⟩ | ⟨early, late, rfl, pass, rest⟩
          · exact Or.inl ⟨passed here stop, failed⟩
          · exact Or.inr ⟨_, late, (List.append_assoc ..).symm, passed here pass, rest⟩
      | stopped here => exact Or.inl ⟨stopped here, rfl⟩

theorem with_events {property : ε → Prop} (run : Script outcome steps events done)
    (known : ∀ event ∈ events, property event) :
    Script (fun step part passed => outcome step part passed ∧ ∀ event ∈ part, property event)
      steps events done := by
  induction run with
  | finished => exact finished
  | passed here others ih =>
      rw [List.forall_mem_append] at known
      exact passed ⟨here, known.1⟩ (ih known.2)
  | stopped here => exact stopped ⟨here, known⟩

/-- When every step leaves its own mark once, however it ends, the marks of a run are those of its first
steps, and of all its steps if it succeeds. -/
theorem marks_prefix {μ : Type} {mark : ε → Option μ} {own : σ → μ} (run : Script outcome steps events done)
    (each : ∀ step ∈ steps, ∀ part passed, outcome step part passed → part.filterMap mark = [own step]) :
    events.filterMap mark <+: steps.map own ∧ (done = true → events.filterMap mark = steps.map own) := by
  induction run with
  | finished => exact ⟨List.prefix_refl _, fun _ => rfl⟩
  | passed here others ih =>
      have first := each _ List.mem_cons_self _ _ here
      obtain ⟨early, whole⟩ := ih fun step inside => each step (List.mem_cons_of_mem _ inside)
      rw [List.filterMap_append, first, List.map_cons, List.singleton_append]
      refine ⟨(List.prefix_cons_inj _).mpr early, fun succeeded => ?_⟩
      rw [whole succeeded]
  | stopped here =>
      rw [each _ List.mem_cons_self _ _ here, List.map_cons]
      exact ⟨⟨_, rfl⟩, by simp⟩

theorem forall_events {property : ε → Prop} (run : Script outcome steps events done)
    (each : ∀ step ∈ steps, ∀ part passed, outcome step part passed → ∀ event ∈ part, property event) :
    ∀ event ∈ events, property event := by
  induction run with
  | finished => simp
  | passed here others ih =>
      intro event member
      rcases List.mem_append.mp member with member | member
      · exact each _ List.mem_cons_self _ _ here event member
      · exact ih (fun step inside => each step (List.mem_cons_of_mem _ inside)) event member
  | stopped here => exact each _ List.mem_cons_self _ _ here

theorem reached {property : ε → Prop} {before after : List ε} {event : ε}
    (run : Script outcome (first ++ second) (before ++ event :: after) done) (holds : property event)
    (absent : ∀ step ∈ first, ∀ part passed, outcome step part passed → ∀ event ∈ part, ¬ property event) :
    ∃ early late, before = early ++ late ∧ Script outcome first early true ∧
      Script outcome second (late ++ event :: after) done := by
  rcases append_cases run with ⟨stop, _⟩ | ⟨early, late, split, pass, rest⟩
  · exact absurd holds (stop.forall_events absent event (by simp))
  · rcases List.append_eq_append_iff.mp split with ⟨gap, earlier, later⟩ | ⟨gap, earlier, later⟩
    · cases gap with
      | nil => exact ⟨early, [], by simpa using earlier.symm, pass, by simpa using later ▸ rest⟩
      | cons found gap =>
          rw [List.cons_append, List.cons.injEq] at later
          obtain ⟨rfl, _⟩ := later
          exact absurd holds (pass.forall_events absent event (by simp [earlier]))
    · exact ⟨early, gap, earlier, pass, later ▸ rest⟩

/-- Behind a failure there is nothing, when no successful step contains one and a step that stops goes
quiet behind it. -/
theorem quiet_after_failure {failure quiet : ε → Prop} {before after : List ε} {event : ε}
    (run : Script outcome steps (before ++ event :: after) done) (failed : failure event)
    (clean : ∀ step ∈ steps, ∀ part, outcome step part true → ∀ event ∈ part, ¬ failure event)
    (halts : ∀ step ∈ steps, ∀ head event tail, outcome step (head ++ event :: tail) false →
      failure event → ∀ later ∈ tail, quiet later) :
    ∀ later ∈ after, quiet later := by
  generalize all : before ++ event :: after = events at run
  induction run generalizing before with
  | finished => simp at all
  | @passed step steps part rest done here others ih =>
      have inRest : ∃ left, rest = left ++ event :: after := by
        rcases List.append_eq_append_iff.mp all with ⟨gap, earlier, later⟩ | ⟨gap, earlier, later⟩
        · cases gap with
          | nil => exact ⟨[], by simpa using later.symm⟩
          | cons found gap =>
              rw [List.cons_append, List.cons.injEq] at later
              obtain ⟨rfl, _⟩ := later
              exact absurd failed (clean step List.mem_cons_self part here event (by simp [earlier]))
        · exact ⟨gap, later⟩
      obtain ⟨left, split⟩ := inRest
      exact ih (fun step inside => clean step (List.mem_cons_of_mem _ inside))
        (fun step inside => halts step (List.mem_cons_of_mem _ inside)) split.symm
  | @stopped step steps events here =>
      subst all
      exact halts step List.mem_cons_self before event after here failed

end Script

end Ev3duder.Data
