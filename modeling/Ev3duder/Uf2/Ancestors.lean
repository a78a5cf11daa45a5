import Mathlib.Data.List.TakeWhile
import Ev3duder.Uf2.Helper

namespace Ev3duder

open Data Posix

/-! # The directories that `uf2_mkdir_for` makes -/

/-- A prefix of the path that ends in front of the first slash behind a component. -/
def EndsComponent (filename path : CString) : Prop :=
  ∃ front char rest, path.bytes = front ++ [char] ∧ char ≠ slash ∧ filename.bytes = path.bytes ++ slash :: rest

/-- All of these prefixes, each of them once, from the shortest to the longest. -/
structure Ancestors (filename : CString) (paths : List CString) : Prop where
  member : ∀ path, path ∈ paths ↔ EndsComponent filename path
  ordered : paths.Pairwise fun shorter longer => shorter.bytes.length < longer.bytes.length

/-- What `mkdir` answers for one path after the other, up to the first failure that counts, and what is returned. -/
inductive MkdirRun : List CString → List (Except Errno Location) → Int → Prop where
  | done : MkdirRun [] [] 0
  | failed {path : CString} {paths : List CString} {errno : Errno} (counts : errno ≠ .exist) :
      MkdirRun (path :: paths) [.error errno] (-1)
  | made {path : CString} {paths : List CString} {result : Except Errno Location}
      {results : List (Except Errno Location)} {ret : Int} (passed : ∀ errno, result = .error errno → errno = .exist)
      (rest : MkdirRun paths results ret) : MkdirRun (path :: paths) (result :: results) ret

theorem advance_passes {path : Bytes} {start index : Nat} {condition : UInt8 → Bool} (behind : start ≤ index)
    (before : index < advance path start condition) : ∃ char, path[index]? = some char ∧ condition char = true := by
  have inside : index - start < ((path.drop start).takeWhile condition).length := by
    rw [advance] at before
    omega
  have here := List.prefix_iff_getElem?.mp (List.takeWhile_prefix condition) _ inside
  rw [List.getElem?_drop, Nat.add_sub_cancel' behind] at here
  exact ⟨_, here, List.mem_takeWhile_imp (List.getElem_mem inside)⟩

/-- The slash that ends a component stands right behind a character of it. -/
theorem nextSlash_last {path : Bytes} {start : Nat} (found : path[nextSlash path start]? = some slash) :
    ∃ char, path[nextSlash path start - 1]? = some char ∧ char ≠ slash := by
  have first : advance path start (· = slash) < nextSlash path start := by
    apply Nat.lt_of_le_of_ne (Nat.le_add_right _ _)
    intro empty
    -- The loop over separators does not end on one.
    have here : path[advance path start (· = slash)]? = some slash := by rwa [empty]
    rw [advance, ← List.getElem?_drop] at here
    have stop := takeWhile_stop (· = slash) (path.drop start) here
    simp at stop
  obtain ⟨char, here, ordinary⟩ := advance_passes (Nat.le_sub_one_of_lt first) (Nat.sub_one_lt_of_lt first)
  exact ⟨char, here, (of_decide_eq_true ordinary).1⟩

theorem uf2Ancestors_ends {name path : CString} {start : Nat} (member : path ∈ uf2Ancestors name start) :
    EndsComponent name path := by
  fun_induction uf2Ancestors name start with
  | case1 start last => cases member
  | case2 start last ih =>
      have found := nextSlash_slash last
      have forward := nextSlash_forward found
      obtain ⟨char, before, ordinary⟩ := nextSlash_last found
      generalize nextSlash (name.bytes ++ [0]) start = index at *
      have inside := nextSlash_inside found
      rcases List.mem_cons.mp member with same | member
      · subst same
        rw [List.getElem?_append_left inside] at found
        rw [List.getElem?_append_left (by omega)] at before
        obtain ⟨_, here⟩ := List.getElem?_eq_some_iff.mp found
        refine ⟨name.bytes.take (index - 1), char, name.bytes.drop (index + 1), ?_, ordinary, ?_⟩
        · have position : index - 1 + 1 = index := by omega
          rw [CString.take_bytes, ← position, List.take_add_one, before, position]
          rfl
        · rw [CString.take_bytes, ← here, ← List.drop_eq_getElem_cons, List.take_append_drop]
      · exact ih member

theorem uf2Ancestors_longer {name path : CString} {start : Nat} (member : path ∈ uf2Ancestors name start) :
    start < path.bytes.length := by
  fun_induction uf2Ancestors name start with
  | case1 start last => cases member
  | case2 start last ih =>
      have found := nextSlash_slash last
      have forward := nextSlash_forward found
      have inside := nextSlash_inside found
      rcases List.mem_cons.mp member with same | member
      · rw [same, CString.take_bytes, List.length_take]
        omega
      · have longer := ih member
        omega

theorem uf2Ancestors_ordered (name : CString) (start : Nat) :
    (uf2Ancestors name start).Pairwise fun shorter longer => shorter.bytes.length < longer.bytes.length := by
  fun_induction uf2Ancestors name start with
  | case1 start last => exact .nil
  | case2 start last ih =>
      refine .cons ?_ ih
      intro longer member
      have behind := uf2Ancestors_longer member
      rw [CString.take_bytes, List.length_take]
      omega

theorem uf2Ancestors_ancestors (filename : CString) : Ancestors filename (uf2Ancestors filename 0) where
  member path := by
    constructor
    · exact uf2Ancestors_ends
    · intro ⟨front, char, rest, ends, ordinary, split⟩
      exact uf2Ancestors_member ends ordinary split (Nat.zero_le _)
  ordered := uf2Ancestors_ordered filename 0

theorem mkdirEach_run (paths : List CString) (kernel : Kernel) :
    ∃ results ret after, mkdirEach paths kernel = (some ret, after) ∧ MkdirRun paths results ret ∧
      after.log = kernel.log ++ List.zipWith Call.mkdir paths results := by
  induction paths generalizing kernel with
  | nil => exact ⟨[], 0, kernel, rfl, .done, (List.append_nil _).symm⟩
  | cons path paths ih =>
      have called : mkdir path kernel = (some (kernel.outcome (kernel.files.vacant path)), (mkdir path kernel).2) := rfl
      have logged : (mkdir path kernel).2.log =
          kernel.log ++ [.mkdir path (kernel.outcome (kernel.files.vacant path))] := rfl
      rw [mkdirEach, Proc.bind_returned called]
      generalize kernel.outcome (kernel.files.vacant path) = result at logged
      by_cases failed : mkdirFailed result = true
      · rw [if_pos failed]
        cases result with
        | ok location => cases failed
        | error errno =>
            refine ⟨[.error errno], -1, _, rfl, .failed (by simpa [mkdirFailed] using failed), ?_⟩
            rw [logged, List.zipWith_cons_cons, List.zipWith_nil_right]
      · obtain ⟨results, ret, after, run, made, appended⟩ := ih (mkdir path kernel).2
        rw [if_neg failed]
        refine ⟨result :: results, ret, after, run, .made ?_ made, ?_⟩
        · intro errno refused
          simpa [refused, mkdirFailed] using failed
        · rw [appended, logged, List.append_assoc]
          rfl

theorem cut_restored {path : Bytes} {index : Nat} {char : UInt8} (found : path[index]? = some char) :
    (path.set index 0).set index char = path := by
  obtain ⟨inside, same⟩ := List.getElem?_eq_some_iff.mp found
  rw [List.set_set, ← same, List.set_getElem_self]

theorem uf2MkdirImpl_restores {path copy : Bytes} {start : Nat} {ret : Int} {kernel after : Kernel}
    (returned : uf2MkdirImpl path start kernel = (some (ret, copy), after)) (passed : ret = 0) : copy = path := by
  generalize measure : path.length - start = count
  induction count using Nat.strongRecOn generalizing start kernel with
  | ind count ih =>
      rw [uf2MkdirImpl] at returned
      split at returned
      · cases returned
        rfl
      · rename_i more
        have found := nextSlash_slash more
        have forward := nextSlash_le path start
        obtain ⟨inside, _⟩ := List.getElem?_eq_some_iff.mp found
        obtain ⟨result, middle, _, rest⟩ := Proc.bind_inversion returned
        rw [cut_restored found] at rest
        split at rest
        · cases rest
          cases passed
        · exact ih _ (by omega) rest rfl

/-- On any file system `mkdir` is called on the prefixes in order, up to the first failure that counts; without one the
working copy is whole again in the end. -/
theorem uf2MkdirFor_ancestors (filename : CString) (kernel : Kernel) :
    ∃ paths results ret copy after, Ancestors filename paths ∧ MkdirRun paths results ret ∧
      uf2MkdirImpl (filename.bytes ++ [0]) 0 kernel = (some (ret, copy), after) ∧
      uf2MkdirFor filename kernel = (some ret, after) ∧
      after.log = kernel.log ++ List.zipWith Call.mkdir paths results ∧
      (ret = 0 → copy = filename.bytes ++ [0]) := by
  obtain ⟨results, ret, after, run, made, logged⟩ := mkdirEach_run (uf2Ancestors filename 0) kernel
  rw [← uf2MkdirFor_each] at run
  obtain ⟨⟨value, copy⟩, middle, whole, rest⟩ := Proc.bind_inversion run
  cases rest
  exact ⟨_, results, ret, copy, after, uf2Ancestors_ancestors filename, made, whole, run, logged,
    uf2MkdirImpl_restores whole⟩

end Ev3duder
