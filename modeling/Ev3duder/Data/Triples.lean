import Ev3duder.Data.Process

namespace Ev3duder.Data

/-! # Conditions before and after a procedure -/

namespace Proc

variable {σ α β : Type}

/-- From a world with `before`, what is returned has `after`, and where a run dies the world has `died`. -/
def Ensures (before : σ → Prop) (procedure : Proc σ α) (after : α → σ → Prop) (died : σ → Prop := fun _ => True) :
    Prop :=
  ∀ world, before world → Ends procedure world after died

variable {before weaker died : σ → Prop} {after : α → σ → Prop} {last : β → σ → Prop}

theorem Ensures.returned {procedure : Proc σ α} (ensures : Ensures before procedure after died) {world final : σ}
    {value : α} (start : before world) (run : procedure world = (some value, final)) : after value final := by
  have ends := ensures world start
  rwa [Ends, run] at ends

/-- Where no run dies, every run returns. -/
theorem Ensures.total {procedure : Proc σ α} (ensures : Ensures before procedure after fun _ => False) {world : σ}
    (start : before world) : ∃ value final, procedure world = (some value, final) ∧ after value final := by
  have ends := ensures world start
  unfold Ends at ends
  rcases run : procedure world with ⟨_ | value, final⟩
  · rw [run] at ends
    exact ends.elim
  · rw [run] at ends
    exact ⟨value, final, rfl, ends⟩

theorem ensures_of_returned {procedure : Proc σ α}
    (returned : ∀ world value final, before world → procedure world = (some value, final) → after value final) :
    Ensures before procedure after := by
  intro world start
  unfold Ends
  split
  · exact returned _ _ _ start ‹_›
  · trivial

theorem Ensures.strengthen {procedure : Proc σ α} (ensures : Ensures weaker procedure after died)
    (implied : ∀ world, before world → weaker world) : Ensures before procedure after died :=
  fun world start => ensures world (implied world start)

theorem Ensures.weaken {procedure : Proc σ α} {stronger : α → σ → Prop}
    (ensures : Ensures before procedure stronger died)
    (implied : ∀ value world, stronger value world → after value world) : Ensures before procedure after died :=
  fun world start => (ensures world start).mono implied fun _ dead => dead

theorem Ensures.widen {procedure : Proc σ α} {narrow : σ → Prop} (ensures : Ensures before procedure after narrow)
    (implied : ∀ world, narrow world → died world) : Ensures before procedure after died :=
  fun world start => (ensures world start).mono (fun _ _ holds => holds) implied

theorem ensures_pure {value : α} (implied : ∀ world, before world → after value world) :
    Ensures before (pure value : Proc σ α) after died :=
  fun world start => implied world start

theorem ensures_crash (implied : ∀ world, before world → died world) :
    Ensures before (crash : Proc σ α) after died :=
  fun world start => implied world start

theorem ensures_any {procedure : Proc σ α} : Ensures before procedure fun _ _ => True := by
  intro world _
  unfold Ends
  split <;> trivial

theorem ensures_bind {first : Proc σ α} {next : α → Proc σ β} (head : Ensures before first after died)
    (tail : ∀ value, Ensures (after value) (next value) last died) : Ensures before (first >>= next) last died :=
  fun world start => ends_bind (head world start) fun value middle holds => tail value middle holds

theorem ensures_ite {condition : Prop} [Decidable condition] {yes no : Proc σ α}
    (whenTrue : condition → Ensures before yes after died) (whenFalse : ¬ condition → Ensures before no after died) :
    Ensures before (if condition then yes else no) after died := by
  split
  · exact whenTrue ‹_›
  · exact whenFalse ‹_›

/-- A procedure that always returns, and returns what it makes of the world. -/
theorem ensures_run {procedure : Proc σ α} {value : σ → α} {change : σ → σ}
    (runs : ∀ world, procedure world = (some (value world), change world))
    (implied : ∀ world, before world → after (value world) (change world)) : Ensures before procedure after died := by
  intro world start
  rw [Ends, runs]
  exact implied world start

end Proc

end Ev3duder.Data
