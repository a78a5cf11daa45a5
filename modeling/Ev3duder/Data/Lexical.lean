namespace Ev3duder.Data

/-! Paths as moves in a tree, followed by their text alone. -/

inductive Move (α : Type) where
  | stay
  | up
  | down (name : α)
deriving DecidableEq, Repr

namespace Move

variable {α : Type}

/-- Above the root there is nothing: going up stays there. -/
def apply (here : List α) : Move α → List α
  | .stay => here
  | .up => here.dropLast
  | .down name => here ++ [name]

def walk (here : List α) (moves : List (Move α)) : List α := moves.foldl apply here

/-- The moves lead out of the directory that lies `depth` levels above their start. -/
def climbs : Nat → List (Move α) → Bool
  | _, [] => false
  | depth, .stay :: moves => climbs depth moves
  | 0, .up :: _ => true
  | depth + 1, .up :: moves => climbs depth moves
  | depth, .down _ :: moves => climbs (depth + 1) moves

theorem walk_append (here : List α) (front back : List (Move α)) :
    walk here (front ++ back) = walk (walk here front) back := List.foldl_append

/-- Moves that do not lead out end below the directory. -/
theorem walk_below {root below : List α} {moves : List (Move α)} (stays : climbs below.length moves = false) :
    root <+: walk (root ++ below) moves := by
  induction moves generalizing below with
  | nil => exact List.prefix_append root below
  | cons move moves ih =>
      cases move with
      | stay => exact ih stays
      | down name =>
          have deeper : climbs (below ++ [name]).length moves = false := by
            rw [List.length_append]
            exact stays
          have rest := ih deeper
          rw [← List.append_assoc] at rest
          exact rest
      | up =>
          rcases List.eq_nil_or_concat below with rfl | ⟨inner, name, rfl⟩
          · exact absurd stays (by simp [climbs])
          · rw [List.concat_eq_append, List.length_append, List.length_singleton] at stays
            have last : (root ++ inner.concat name).dropLast = root ++ inner := by
              rw [List.concat_eq_append, ← List.append_assoc, List.dropLast_concat]
            show root <+: walk (root ++ inner.concat name).dropLast moves
            rw [last]
            exact ih stays

theorem climbs_front {depth : Nat} {front back : List (Move α)} (stays : climbs depth (front ++ back) = false) :
    climbs depth front = false := by
  induction front generalizing depth with
  | nil => rfl
  | cons move front ih =>
      cases move with
      | stay => exact ih stays
      | down name => exact ih stays
      | up =>
          cases depth with
          | zero => exact stays
          | succ depth => exact ih stays

/-- Moves that lead out have one that goes up from the directory itself. -/
theorem climbs_split {root below : List α} {moves : List (Move α)} (leaves : climbs below.length moves = true) :
    ∃ front back, moves = front ++ .up :: back ∧ walk (root ++ below) front = root := by
  induction moves generalizing below with
  | nil => cases leaves
  | cons move moves ih =>
      cases move with
      | stay =>
          obtain ⟨front, back, rfl, walked⟩ := ih leaves
          exact ⟨.stay :: front, back, rfl, walked⟩
      | down name =>
          have deeper : climbs (below ++ [name]).length moves = true := by
            rw [List.length_append]
            exact leaves
          obtain ⟨front, back, rfl, walked⟩ := ih deeper
          rw [← List.append_assoc] at walked
          exact ⟨.down name :: front, back, rfl, walked⟩
      | up =>
          rcases List.eq_nil_or_concat below with rfl | ⟨inner, name, rfl⟩
          · exact ⟨[], moves, rfl, List.append_nil root⟩
          · rw [List.concat_eq_append, List.length_append, List.length_singleton] at leaves
            have last : (root ++ inner.concat name).dropLast = root ++ inner := by
              rw [List.concat_eq_append, ← List.append_assoc, List.dropLast_concat]
            obtain ⟨front, back, rfl, walked⟩ := ih leaves
            rw [← last] at walked
            exact ⟨.up :: front, back, rfl, walked⟩

end Move

theorem splitOn_cut {α : Type} [BEq α] [LawfulBEq α] {separator : α} {path name : List α} {front back : List (List α)}
    (parts : path.splitOn separator = front ++ name :: back) (more : back ≠ []) :
    ∃ before behind, path = before ++ separator :: behind ∧ before.splitOn separator = front ++ [name] := by
  induction front generalizing path with
  | nil =>
      by_cases free : separator ∉ path
      · rw [List.splitOn_eq_singleton free, List.nil_append, List.cons.injEq] at parts
        exact absurd parts.2.symm more
      · obtain ⟨first, rest, rfl, alone⟩ := List.eq_append_cons_of_mem (Classical.not_not.mp free)
        rw [List.splitOn_append_cons_self_of_not_mem alone, List.nil_append, List.cons.injEq] at parts
        exact ⟨first, rest, rfl, by rw [List.splitOn_eq_singleton alone, parts.1]; rfl⟩
  | cons other front ih =>
      by_cases free : separator ∉ path
      · rw [List.splitOn_eq_singleton free, List.cons_append, List.cons.injEq] at parts
        exact absurd parts.2 (by simp)
      · obtain ⟨first, rest, rfl, alone⟩ := List.eq_append_cons_of_mem (Classical.not_not.mp free)
        rw [List.splitOn_append_cons_self_of_not_mem alone, List.cons_append, List.cons.injEq] at parts
        obtain ⟨before, behind, rfl, cut⟩ := ih parts.2
        refine ⟨first ++ separator :: before, behind, by simp, ?_⟩
        rw [List.splitOn_append_cons_self_of_not_mem alone, cut, parts.1]
        rfl

end Ev3duder.Data
