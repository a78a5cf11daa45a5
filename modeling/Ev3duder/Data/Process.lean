namespace Ev3duder.Data

/-! Procedures over an outside world.

A C function that acts on a world `σ` either returns a value or dies, and leaves a world behind in both cases.
What all its runs have in common is stated with `Proc.Within`: a relation between the world before and the
world after that holds however the run ends.
-/

def Proc (σ α : Type) := σ → Option α × σ

namespace Proc

variable {σ α β : Type}

/-- The process dies here: a null pointer is dereferenced. -/
def crash : Proc σ α := fun world => (none, world)

instance : Monad (Proc σ) where
  pure value := fun world => (some value, world)
  bind first next := fun world =>
    match first world with
    | (some value, after) => next value after
    | (none, after) => (none, after)

def modify (change : σ → σ) : Proc σ Unit := fun world => (some (), change world)

def gets (view : σ → α) : Proc σ α := fun world => (some (view world), world)

@[simp] theorem pure_apply (value : α) (world : σ) :
    (pure value : Proc σ α) world = (some value, world) := rfl

@[simp] theorem crash_apply (world : σ) : (crash : Proc σ α) world = (none, world) := rfl

@[simp] theorem modify_apply (change : σ → σ) (world : σ) :
    modify change world = (some (), change world) := rfl

@[simp] theorem gets_apply (view : σ → α) (world : σ) :
    gets view world = (some (view world), world) := rfl

theorem bind_apply (first : Proc σ α) (next : α → Proc σ β) (world : σ) :
    (first >>= next) world =
      match first world with
      | (some value, after) => next value after
      | (none, after) => (none, after) := rfl

theorem bind_returned {first : Proc σ α} {next : α → Proc σ β} {world after : σ} {value : α}
    (returned : first world = (some value, after)) :
    (first >>= next) world = next value after := by
  rw [bind_apply, returned]

theorem bind_died {first : Proc σ α} {next : α → Proc σ β} {world after : σ}
    (died : first world = (none, after)) : (first >>= next) world = (none, after) := by
  rw [bind_apply, died]

@[simp] theorem map_apply (change : α → β) (procedure : Proc σ α) (world : σ) :
    (change <$> procedure) world = ((procedure world).1.map change, (procedure world).2) := by
  show (procedure >>= fun value => pure (change value)) world = _
  rw [bind_apply]
  rcases procedure world with ⟨_ | value, after⟩ <;> rfl

instance : LawfulMonad (Proc σ) :=
  LawfulMonad.mk' (Proc σ)
    (fun procedure => by
      funext world
      rw [map_apply]
      rcases procedure world with ⟨_ | value, after⟩ <;> rfl)
    (fun value next => rfl)
    (fun first second third => by
      funext world
      simp only [bind_apply]
      rcases first world with ⟨_ | value, after⟩ <;> rfl)

theorem bind_inversion {first : Proc σ α} {next : α → Proc σ β} {world after : σ} {value : β}
    (returned : (first >>= next) world = (some value, after)) :
    ∃ inner middle, first world = (some inner, middle) ∧ next inner middle = (some value, after) := by
  rw [bind_apply] at returned
  cases run : first world with
  | mk inner middle =>
      cases inner with
      | none => simp [run] at returned
      | some inner => exact ⟨inner, middle, rfl, by simpa [run] using returned⟩

/-- One run: what holds of the value and the world it returns with, or of the world it dies in. -/
def Ends (procedure : Proc σ α) (world : σ) (returned : α → σ → Prop) (died : σ → Prop) : Prop :=
  match procedure world with
  | (some value, after) => returned value after
  | (none, after) => died after

theorem ends_bind {first : Proc σ α} {next : α → Proc σ β} {world : σ} {middle : α → σ → Prop}
    {returned : β → σ → Prop} {died : σ → Prop} (head : Ends first world middle died)
    (tail : ∀ value after, middle value after → Ends (next value) after returned died) :
    Ends (first >>= next) world returned died := by
  unfold Ends at head
  rcases run : first world with ⟨_ | value, after⟩
  · rw [run] at head
    rw [Ends, bind_died run]
    exact head
  · rw [run] at head
    rw [Ends, bind_returned run]
    exact tail value after head

theorem Ends.mono {procedure : Proc σ α} {world : σ} {returned weaker : α → σ → Prop} {died lost : σ → Prop}
    (ends : Ends procedure world returned died) (value : ∀ value after, returned value after → weaker value after)
    (death : ∀ after, died after → lost after) : Ends procedure world weaker lost := by
  unfold Ends at ends
  rcases run : procedure world with ⟨_ | result, after⟩
  · rw [run] at ends
    rw [Ends, run]
    exact death after ends
  · rw [run] at ends
    rw [Ends, run]
    exact value result after ends

theorem ends_of_after {procedure : Proc σ α} {world : σ} {property : σ → Prop} (after : property (procedure world).2) :
    Ends procedure world (fun _ => property) property := by
  rcases run : procedure world with ⟨_ | value, final⟩
  · rw [run] at after
    rw [Ends, run]
    exact after
  · rw [run] at after
    rw [Ends, run]
    exact after

theorem Ends.and_after {procedure : Proc σ α} {world : σ} {returned : α → σ → Prop} {died property : σ → Prop}
    (ends : Ends procedure world returned died) (after : property (procedure world).2) :
    Ends procedure world (fun value after => property after ∧ returned value after) died := by
  unfold Ends at ends
  rcases run : procedure world with ⟨_ | value, final⟩
  · rw [run] at ends
    rw [Ends, run]
    exact ends
  · rw [run] at ends after
    rw [Ends, run]
    exact ⟨after, ends⟩

/-- However a run ends, what is implied by how it can end. -/
theorem Ends.always {procedure : Proc σ α} {world : σ} {invariant safe : σ → Prop}
    (ends : Ends procedure world (fun _ => invariant) safe) (implied : ∀ world, invariant world → safe world) :
    safe (procedure world).2 := by
  unfold Ends at ends
  rcases run : procedure world with ⟨_ | value, after⟩
  · rwa [run] at ends
  · rw [run] at ends
    exact implied after ends

/-- However a sequence ends: what its first part leaves has the property, and so has what the rest leaves. -/
theorem bind_keeps {property : σ → Prop} {first : Proc σ α} {next : α → Proc σ β} {world : σ}
    (head : property (first world).2)
    (tail : ∀ value after, first world = (some value, after) → property after → property (next value after).2) :
    property ((first >>= next) world).2 := by
  rcases run : first world with ⟨_ | value, after⟩
  · rw [bind_died run]
    rwa [run] at head
  · rw [bind_returned run]
    rw [run] at head
    exact tail value after run head

/-- Every run of `procedure` relates the world before to the world after by `relation`. -/
def Within (relation : σ → σ → Prop) (procedure : Proc σ α) : Prop :=
  ∀ world, relation world (procedure world).2

section Within

variable {relation : σ → σ → Prop}

theorem within_bind (trans : ∀ first second third, relation first second → relation second third →
      relation first third) {first : Proc σ α} {next : α → Proc σ β}
    (head : Within relation first) (tail : ∀ value, Within relation (next value)) :
    Within relation (first >>= next) := by
  intro world
  have step := head world
  cases run : first world with
  | mk value after =>
      rw [run] at step
      cases value with
      | none => rw [bind_died run]; exact step
      | some value => rw [bind_returned run]; exact trans _ _ _ step (tail value after)

theorem within_ite {condition : Prop} [Decidable condition] {yes no : Proc σ α}
    (whenTrue : condition → Within relation yes) (whenFalse : ¬ condition → Within relation no) :
    Within relation (if condition then yes else no) := by
  split
  · exact whenTrue ‹_›
  · exact whenFalse ‹_›

end Within

/-- Every value that is returned has the property. -/
def Returns (good : α → Prop) (procedure : Proc σ α) : Prop :=
  ∀ world value after, procedure world = (some value, after) → good value

/-- Runs that return a good value are the same when the world is seen through `view`. -/
def Mirrors (view : σ → σ) (good : α → Prop) (procedure : Proc σ α) : Prop :=
  ∀ world value after, procedure world = (some value, after) → good value →
    procedure (view world) = (some value, view after)

section Mirrors

variable {view : σ → σ} {good : α → Prop} {fine : β → Prop}

theorem returns_pure {value : α} (holds : good value) : Returns good (pure value : Proc σ α) := by
  intro world result after returned
  rw [pure_apply, Prod.mk.injEq, Option.some.injEq] at returned
  rw [← returned.1]
  exact holds

theorem returns_crash : Returns good (crash : Proc σ α) := by
  intro world result after returned
  rw [crash_apply, Prod.mk.injEq] at returned
  exact absurd returned.1 (Option.some_ne_none result).symm

theorem returns_bind {first : Proc σ α} {next : α → Proc σ β} (head : Returns good first)
    (tail : ∀ value, good value → Returns fine (next value)) : Returns fine (first >>= next) := by
  intro world result after returned
  obtain ⟨value, middle, run, rest⟩ := bind_inversion returned
  exact tail value (head world value middle run) middle result after rest

theorem returns_any {first : Proc σ α} {next : α → Proc σ β} (tail : ∀ value, Returns fine (next value)) :
    Returns fine (first >>= next) :=
  returns_bind (fun _ _ _ _ => trivial) fun value _ => tail value

theorem mirrors_pure (value : α) : Mirrors view good (pure value : Proc σ α) := by
  intro world result after returned _
  rw [pure_apply, Prod.mk.injEq] at returned
  rw [pure_apply, ← returned.1, ← returned.2]

theorem mirrors_of_bad {procedure : Proc σ α} (bad : Returns (¬ good ·) procedure) : Mirrors view good procedure :=
  fun world value after returned holds => absurd holds (bad world value after returned)

theorem mirrors_bind {first : Proc σ α} {next : α → Proc σ β} (head : Mirrors view good first)
    (tail : ∀ value, good value → Mirrors view fine (next value))
    (lost : ∀ value, ¬ good value → Returns (¬ fine ·) (next value)) : Mirrors view fine (first >>= next) := by
  intro world result after returned holds
  obtain ⟨value, middle, run, rest⟩ := bind_inversion returned
  have kept : good value := Classical.byContradiction fun bad =>
    lost value bad middle result after rest holds
  rw [bind_returned (head world value middle run kept)]
  exact tail value kept middle result after rest holds

end Mirrors

end Proc

end Ev3duder.Data
