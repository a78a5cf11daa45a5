import Ev3duder.Posix.Kernel
import Ev3duder.Uf2.Block

namespace Ev3duder

open Data Posix

/-! # What packing and unpacking share

The POSIX side of the source; the Windows functions beside it are left out.
-/

def backslash : UInt8 := 0x5C

def separator : CString := ⟨[slash], by decide⟩

/-- The loop of `uf2_basename` with `pos + 1` characters in front of it: where it stops, and the positions that it
looks at.  The character is tested before the position is. -/
def uf2BasenameLoop (fullname : Bytes) (backslashTrigger : Bool) : Nat → Int × List Int
  | 0 => (-1, [-1])
  | pos + 1 =>
      let char := fullname.getD pos 0
      if char ≠ slash ∧ (backslashTrigger = false ∨ char ≠ backslash) then
        let (stop, inspected) := uf2BasenameLoop fullname backslashTrigger pos
        (stop, pos :: inspected)
      else (pos, [(pos : Int)])

/-- The path from the character after the last separator on. -/
def uf2Basename (fullname : CString) (backslashTrigger : Bool) : CString :=
  let (pos, _) := uf2BasenameLoop (fullname.bytes ++ [0]) backslashTrigger (fullname.bytes.length + 1)
  fullname.drop (pos + 1).toNat

def advance (path : Bytes) (start : Nat) (condition : UInt8 → Bool) : Nat :=
  start + ((path.drop start).takeWhile condition).length

/-- The two loops of `uf2_mkdir_impl`: over separators, then over a component. -/
def nextSlash (path : Bytes) (start : Nat) : Nat :=
  advance path (advance path start (· = slash)) fun char => char ≠ slash ∧ char ≠ 0

theorem nextSlash_le (path : Bytes) (start : Nat) : start ≤ nextSlash path start :=
  Nat.le_trans (Nat.le_add_right _ _) (Nat.le_add_right _ _)

theorem inside_of_getD {path : Bytes} {index : Nat} (nonzero : ¬ path.getD index 0 = 0) : index < path.length := by
  apply Classical.byContradiction
  intro outside
  rw [List.getD_eq_getElem?_getD, List.getElem?_eq_none (Nat.not_lt.mp outside)] at nonzero
  exact nonzero rfl

/-- `mkdir(path, 00755) < 0 && errno != EEXIST` -/
def mkdirFailed : Except Errno Location → Bool
  | .error errno => errno ≠ .exist
  | .ok _ => false

/-- `path` is the working copy with its terminator.  A separator is overwritten while `mkdir` looks at the copy. -/
def uf2MkdirImpl (path : Bytes) (start : Nat) : Proc Kernel (Int × Bytes) :=
  if path.getD (nextSlash path start) 0 = 0 then return (0, path)
  else do
    let cut := path.set (nextSlash path start) 0
    let result ← mkdir (cstr cut)
    if mkdirFailed result then return (-1, cut)
    else uf2MkdirImpl (cut.set (nextSlash path start) slash) (nextSlash path start + 1)
termination_by path.length - start
decreasing_by
  have inside := inside_of_getD ‹_›
  have forward := nextSlash_le path start
  simp only [List.length_set]
  omega

def uf2MkdirFor (filename : CString) : Proc Kernel Int := do
  let (result, _) ← uf2MkdirImpl (filename.bytes ++ [0]) 0
  return result

/-- A short count of `write` passes. -/
def uf2WriteInto (realname : CString) (data : Bytes) (dataBytes fileOffset fileSize : UInt32) : Proc Kernel Int := do
  match ← openWrite realname with
  | .error _ => return -1
  | .ok fd =>
      match ← ftruncate fd fileSize.toNat with
      | .error _ => return -1
      | .ok _ =>
          match ← lseek fd fileOffset.toNat with
          | .error _ => return -1
          | .ok fd =>
              match ← write fd (data.take dataBytes.toNat) with
              | .error _ => return -1
              | .ok _ => return 0

theorem uf2BasenameLoop_skips (fullname : Bytes) {start count : Nat}
    (free : ∀ index, start ≤ index → index < start + count → fullname.getD index 0 ≠ slash) :
    (uf2BasenameLoop fullname false (start + count)).1 = (uf2BasenameLoop fullname false start).1 := by
  induction count with
  | zero => rfl
  | succ count ih =>
      have here := free (start + count) (by omega) (by omega)
      rw [← Nat.add_assoc, uf2BasenameLoop, if_pos ⟨here, Or.inl rfl⟩]
      exact ih fun index low high => free index low (by omega)

theorem getD_free {bytes : Bytes} (free : slash ∉ bytes) (index : Nat) : bytes.getD index 0 ≠ slash := by
  rw [List.getD_eq_getElem?_getD]
  cases found : bytes[index]? with
  | none => decide
  | some char =>
      rintro rfl
      exact free (List.mem_of_getElem? found)

theorem uf2BasenameLoop_base (front base : Bytes) (free : slash ∉ base) :
    (uf2BasenameLoop (front ++ base ++ [0]) false (front.length + (base.length + 1))).1 =
      (uf2BasenameLoop (front ++ base ++ [0]) false front.length).1 := by
  apply uf2BasenameLoop_skips
  intro index low _
  have shifted : (front ++ base ++ [0]).getD index 0 = (base ++ [0]).getD (index - front.length) 0 := by
    rw [List.getD_eq_getElem?_getD, List.getD_eq_getElem?_getD, List.append_assoc, List.getElem?_append_right low]
  rw [shifted]
  refine getD_free ?_ _
  simp only [List.mem_append, List.mem_singleton, not_or]
  exact ⟨free, by decide⟩

theorem uf2Basename_plain {name : CString} (free : slash ∉ name.bytes) : uf2Basename name false = name := by
  have stop := uf2BasenameLoop_base [] name.bytes free
  rw [List.nil_append, List.length_nil, Nat.zero_add] at stop
  apply CString.ext
  rw [uf2Basename, CString.drop_bytes, stop]
  rfl

theorem uf2Basename_after {name : CString} {front base : Bytes} (split : name.bytes = front ++ slash :: base)
    (free : slash ∉ base) : (uf2Basename name false).bytes = base := by
  have split' : name.bytes = (front ++ [slash]) ++ base := by
    rw [split, List.append_assoc]
    rfl
  have stop := uf2BasenameLoop_base (front ++ [slash]) base free
  have here : (front ++ [slash] ++ base ++ [0]).getD front.length 0 = slash := by
    simp [List.getD_eq_getElem?_getD]
  rw [List.length_append, List.length_singleton, uf2BasenameLoop, here, if_neg (by simp)] at stop
  have length : name.bytes.length + 1 = front.length + 1 + (base.length + 1) := by
    rw [split']
    simp only [List.length_append, List.length_singleton]
    omega
  rw [uf2Basename, CString.drop_bytes, length, split', stop]
  simp [List.drop_append]

theorem last_slash (bytes : Bytes) :
    slash ∉ bytes ∨ ∃ front base, bytes = front ++ slash :: base ∧ slash ∉ base := by
  induction bytes with
  | nil => exact Or.inl (by simp)
  | cons char bytes ih =>
      rcases ih with free | ⟨front, base, rfl, free⟩
      · by_cases same : char = slash
        · exact Or.inr ⟨[], bytes, by rw [same]; rfl, free⟩
        · refine Or.inl ?_
          simp only [List.mem_cons, not_or]
          exact ⟨Ne.symm same, free⟩
      · exact Or.inr ⟨char :: front, base, rfl, free⟩

theorem uf2Basename_free (name : CString) : slash ∉ (uf2Basename name false).bytes := by
  rcases last_slash name.bytes with free | ⟨front, base, split, free⟩
  · rwa [uf2Basename_plain free]
  · rwa [uf2Basename_after split free]

theorem uf2Basename_components (name : CString) : (components name).getLastD [] = (uf2Basename name false).bytes := by
  rcases last_slash name.bytes with free | ⟨front, base, split, free⟩
  · rw [uf2Basename_plain free, components, List.splitOn_eq_singleton free]
    rfl
  · rw [uf2Basename_after split free, components, split, List.splitOn_append_cons_self,
      List.splitOn_eq_singleton free, List.getLastD_concat]

theorem takeWhile_stop (condition : UInt8 → Bool) (bytes : Bytes) {char : UInt8}
    (stop : bytes[(bytes.takeWhile condition).length]? = some char) : condition char = false := by
  induction bytes with
  | nil => simp at stop
  | cons first bytes ih =>
      by_cases holds : condition first = true
      · rw [List.takeWhile_cons_of_pos holds] at stop
        exact ih (by simpa using stop)
      · rw [List.takeWhile_cons_of_neg holds] at stop
        simp only [List.length_nil, List.getElem?_cons_zero, Option.some.injEq] at stop
        rw [← stop]
        simpa using holds

theorem nextSlash_slash {path : Bytes} {start : Nat} (more : ¬ path.getD (nextSlash path start) 0 = 0) :
    path[nextSlash path start]? = some slash := by
  have inside := inside_of_getD more
  rw [List.getD_eq_getElem?_getD, List.getElem?_eq_getElem inside, Option.getD_some] at more
  rw [List.getElem?_eq_getElem inside]
  have stop : decide (path[nextSlash path start] ≠ slash ∧ path[nextSlash path start] ≠ 0) = false := by
    apply takeWhile_stop (fun char => decide (char ≠ slash ∧ char ≠ 0)) (path.drop (advance path start (· = slash)))
    rw [List.getElem?_drop]
    exact List.getElem?_eq_getElem inside
  rw [decide_eq_false_iff_not, Classical.not_and_iff_not_or_not] at stop
  rcases stop with separator | terminator
  · rw [Classical.not_not.mp separator]
  · exact absurd (Classical.not_not.mp terminator) more

theorem nextSlash_inside {name : CString} {index : Nat} (found : (name.bytes ++ [0])[index]? = some slash) :
    index < name.bytes.length := by
  apply Classical.byContradiction
  intro outside
  rw [List.getElem?_append_right (Nat.not_lt.mp outside)] at found
  cases distance : index - name.bytes.length with
  | zero => simp [distance, slash] at found
  | succ _ => simp [distance] at found

/-- The prefixes of the path that `mkdir` is called with. -/
def uf2Ancestors (name : CString) (start : Nat) : List CString :=
  if (name.bytes ++ [0]).getD (nextSlash (name.bytes ++ [0]) start) 0 = 0 then []
  else
    name.take (nextSlash (name.bytes ++ [0]) start) :: uf2Ancestors name (nextSlash (name.bytes ++ [0]) start + 1)
termination_by name.bytes.length + 1 - start
decreasing_by
  have inside := inside_of_getD ‹_›
  have forward := nextSlash_le (name.bytes ++ [0]) start
  simp only [List.length_append, List.length_singleton] at inside
  omega

/-- Makes the directories in order and stops at the first one that is neither made nor there. -/
def mkdirEach : List CString → Proc Kernel Int
  | [] => return 0
  | path :: paths => do
      let result ← mkdir path
      if mkdirFailed result then return -1 else mkdirEach paths

theorem cstr_cut {name : CString} {index : Nat} (inside : index < name.bytes.length) :
    cstr ((name.bytes ++ [0]).set index 0) = name.take index := by
  have split : (name.bytes ++ [0]).set index 0 =
      (name.take index).bytes ++ 0 :: (name.bytes.drop (index + 1) ++ [0]) := by
    rw [List.set_eq_take_append_cons_drop, if_pos (by simp only [List.length_append]; omega), CString.take_bytes,
      List.take_append_of_le_length (by omega), List.drop_append_of_le_length (by omega)]
  rw [split, cstr_terminated]

theorem uf2MkdirImpl_each (name : CString) (start : Nat) :
    (do
      let (result, _) ← uf2MkdirImpl (name.bytes ++ [0]) start
      return result) = mkdirEach (uf2Ancestors name start) := by
  generalize measure : name.bytes.length + 1 - start = count
  induction count using Nat.strongRecOn generalizing start with
  | ind count ih =>
    rw [uf2MkdirImpl, uf2Ancestors]
    by_cases last : (name.bytes ++ [0]).getD (nextSlash (name.bytes ++ [0]) start) 0 = 0
    · rw [if_pos last]
      simp only [if_pos last]
      rfl
    · have found := nextSlash_slash last
      have forward := nextSlash_le (name.bytes ++ [0]) start
      generalize position : nextSlash (name.bytes ++ [0]) start = index at last found forward
      have inside := nextSlash_inside found
      have restored : ((name.bytes ++ [0]).set index 0).set index slash = name.bytes ++ [0] := by
        rw [List.set_set]
        apply List.ext_getElem?
        intro other
        rw [List.getElem?_set]
        by_cases same : index = other
        · rw [if_pos same, ← same, found, if_pos (by simp only [List.length_append]; omega)]
        · rw [if_neg same]
      rw [if_neg last]
      simp only [if_neg last, restored, cstr_cut inside, mkdirEach, bind_assoc]
      congr 1
      funext result
      by_cases failed : mkdirFailed result = true
      · simp only [if_pos failed]
        rfl
      · simp only [if_neg failed]
        exact ih (name.bytes.length + 1 - (index + 1)) (by omega) (index + 1) rfl

theorem uf2MkdirFor_each (name : CString) : uf2MkdirFor name = mkdirEach (uf2Ancestors name 0) :=
  uf2MkdirImpl_each name 0

theorem takeWhile_some {condition : UInt8 → Bool} {bytes : Bytes} {char : UInt8} (first : bytes[0]? = some char)
    (holds : condition char = true) : 0 < (bytes.takeWhile condition).length := by
  cases bytes with
  | nil => simp at first
  | cons other bytes =>
      simp only [List.getElem?_cons_zero, Option.some.injEq] at first
      rw [first, List.takeWhile_cons_of_pos holds]
      exact Nat.succ_pos _

theorem nextSlash_forward {path : Bytes} {start : Nat} (found : path[nextSlash path start]? = some slash) :
    start < nextSlash path start := by
  apply Classical.byContradiction
  intro stays
  have front : start ≤ advance path start (· = slash) := Nat.le_add_right _ _
  have back : advance path start (· = slash) ≤ nextSlash path start := Nat.le_add_right _ _
  have here : path[start]? = some slash := by
    rw [← found]
    congr 1
    omega
  have moved : 0 < ((path.drop start).takeWhile (· = slash)).length :=
    takeWhile_some (by rw [List.getElem?_drop]; exact here) (by simp)
  have distance : advance path start (· = slash) = start + ((path.drop start).takeWhile (· = slash)).length := rfl
  omega

theorem uf2Ancestors_prefix {name path : CString} {start : Nat} (member : path ∈ uf2Ancestors name start) :
    path.bytes ≠ [] ∧ ∃ rest, name.bytes = path.bytes ++ slash :: rest := by
  fun_induction uf2Ancestors name start with
  | case1 start last => cases member
  | case2 start last ih =>
      have found := nextSlash_slash last
      have forward := nextSlash_forward found
      have inside : nextSlash (name.bytes ++ [0]) start < name.bytes.length := nextSlash_inside found
      rw [List.getElem?_append_left inside] at found
      rcases List.mem_cons.mp member with rfl | member
      · refine ⟨?_, name.bytes.drop (nextSlash (name.bytes ++ [0]) start + 1), ?_⟩
        · apply List.length_pos_iff.mp
          rw [CString.take_bytes, List.length_take]
          omega
        · rw [CString.take_bytes, ← (List.getElem?_eq_some_iff.mp found).2, ← List.drop_eq_getElem_cons,
            List.take_append_drop]
      · exact ih member

theorem takeWhile_le {condition : UInt8 → Bool} (bytes : Bytes) (index : Nat) {char : UInt8}
    (found : bytes[index]? = some char) (stops : condition char = false) :
    (bytes.takeWhile condition).length ≤ index := by
  induction bytes generalizing index with
  | nil => simp at found
  | cons first bytes ih =>
      cases index with
      | zero =>
          simp only [List.getElem?_cons_zero, Option.some.injEq] at found
          rw [found, List.takeWhile_cons_of_neg (by simp [stops])]
          exact Nat.le_refl _
      | succ index =>
          by_cases holds : condition first = true
          · rw [List.takeWhile_cons_of_pos holds]
            exact Nat.succ_le_succ (ih index (by simpa using found))
          · rw [List.takeWhile_cons_of_neg holds]
            exact Nat.zero_le _

theorem advance_le {path : Bytes} {start index : Nat} {condition : UInt8 → Bool} {char : UInt8} (low : start ≤ index)
    (found : path[index]? = some char) (stops : condition char = false) : advance path start condition ≤ index := by
  have bound := takeWhile_le (path.drop start) (index - start)
    (by rw [List.getElem?_drop, Nat.add_sub_cancel' low]; exact found) stops
  rw [advance]
  omega

theorem uf2Ancestors_member {name path : CString} {char : UInt8} {front rest : Bytes}
    (ends : path.bytes = front ++ [char]) (ordinary : char ≠ slash) (split : name.bytes = path.bytes ++ slash :: rest)
    {start : Nat} (before : start ≤ front.length) : path ∈ uf2Ancestors name start := by
  have length : path.bytes.length = front.length + 1 := by rw [ends, List.length_append, List.length_singleton]
  have last : (name.bytes ++ [0])[front.length]? = some char := by
    rw [split, ends]
    simp
  have next : (name.bytes ++ [0])[front.length + 1]? = some slash := by
    rw [split, ← length]
    simp
  have bound : ∀ start, start ≤ front.length → nextSlash (name.bytes ++ [0]) start ≤ front.length + 1 := by
    intro start before
    have first : advance (name.bytes ++ [0]) start (· = slash) ≤ front.length :=
      advance_le before last (by simpa using ordinary)
    exact advance_le (Nat.le_succ_of_le first) next (by simp)
  have inside : front.length + 1 < name.bytes.length := by
    rw [split, List.length_append, length, List.length_cons]
    omega
  fun_induction uf2Ancestors name start with
  | case1 start done =>
      have stop := Nat.lt_of_le_of_lt (bound start before) inside
      rw [List.getD_eq_getElem?_getD, List.getElem?_append_left stop, List.getElem?_eq_getElem stop,
        Option.getD_some] at done
      exact absurd (done ▸ List.getElem_mem stop) name.noNul
  | case2 start more ih =>
      have found := nextSlash_slash more
      have stop := bound start before
      by_cases here : nextSlash (name.bytes ++ [0]) start = front.length + 1
      · have whole : name.take (nextSlash (name.bytes ++ [0]) start) = path := by
          apply CString.ext
          rw [CString.take_bytes, here, split, ← length, List.take_left]
        rw [whole]
        exact List.mem_cons_self
      · have notLast : nextSlash (name.bytes ++ [0]) start ≠ front.length := by
          intro same
          rw [same, last] at found
          exact ordinary (Option.some.inj found)
        exact List.mem_cons_of_mem _ (ih (by omega))

theorem mkdirEach_files (paths : List CString) (kernel : Kernel) :
    OnlyDirectories kernel.files (mkdirEach paths kernel).2.files := by
  induction paths generalizing kernel with
  | nil => exact .refl _
  | cons path paths ih =>
      have step := mkdir_files path kernel
      have made : mkdir path kernel = (some (kernel.outcome (kernel.files.vacant path)), (mkdir path kernel).2) := rfl
      rw [mkdirEach, Proc.bind_returned made]
      by_cases failed : mkdirFailed (kernel.outcome (kernel.files.vacant path)) = true
      · rw [if_pos failed]
        exact step
      · rw [if_neg failed]
        exact step.trans (ih _)

theorem mkdirEach_done {paths : List CString} {made : Int} (passed : ¬ made < 0) {kernel after : Kernel}
    (returned : mkdirEach paths kernel = (some made, after)) :
    after.answers = kernel.answers.drop paths.length ∧ stores after.log = stores kernel.log := by
  induction paths generalizing kernel with
  | nil =>
      cases returned
      exact ⟨rfl, rfl⟩
  | cons path paths ih =>
      obtain ⟨result, first, run, rest⟩ := Proc.bind_inversion returned
      by_cases failed : mkdirFailed result = true
      · rw [if_pos failed] at rest
        cases rest
        exact absurd (by decide) passed
      · rw [if_neg failed] at rest
        obtain ⟨answers, stored⟩ := ih rest
        cases run
        rw [answers, stored, Kernel.after_answers, Kernel.after_log, stores_snoc, List.drop_tail]
        exact ⟨rfl, List.append_nil _⟩

/-- Where every path is taken already or can be made, all directories are there in the end. -/
theorem mkdirEach_works {invariant : FileSystem → Prop} {paths : List CString}
    (possible : ∀ path ∈ paths, ∀ files, invariant files →
      files.Occupied path ∨ ∃ location, files.vacant path = .ok location ∧ invariant (files.put location .directory))
    {kernel : Kernel} (quiet : kernel.answers = []) (holds : invariant kernel.files) :
    ∃ files, Works (mkdirEach paths) kernel 0 files ∧ invariant files ∧ ∀ path ∈ paths, files.Occupied path := by
  induction paths generalizing kernel with
  | nil => exact ⟨kernel.files, ⟨kernel, rfl, quiet, rfl⟩, holds, fun _ member => (nomatch member)⟩
  | cons path paths ih =>
      have step : ∃ result files, Works (mkdir path) kernel result files ∧ mkdirFailed result = false ∧
          invariant files ∧ files.Occupied path := by
        have made := mkdir_works quiet path
        rcases possible path List.mem_cons_self kernel.files holds with occupied | ⟨location, vacant, kept⟩
        · rw [occupied.vacant] at made
          exact ⟨_, _, made, rfl, holds, occupied⟩
        · rw [vacant] at made
          exact ⟨_, _, made, rfl, kept, FileSystem.occupied_put vacant⟩
      obtain ⟨result, middle, ⟨first, returned, firstQuiet, rfl⟩, passed, kept, occupied⟩ := step
      obtain ⟨final, ⟨after, rest, done⟩, keptAll, all⟩ :=
        ih (fun other member => possible other (List.mem_cons_of_mem _ member)) firstQuiet kept
      have grown := (mkdirEach_files paths first).grown
      rw [rest, done.2] at grown
      refine ⟨final, ⟨after, ?_, done⟩, keptAll, ?_⟩
      · rw [mkdirEach, Proc.bind_returned returned, if_neg (by simp [passed])]
        exact rest
      · intro other member
        rcases List.mem_cons.mp member with rfl | member
        · exact grown.occupied occupied
        · exact all other member

def uf2Patch (data : Bytes) (dataBytes fileOffset fileSize : UInt32) : Patch :=
  ⟨fileSize.toNat, fileOffset.toNat, data.take dataBytes.toNat⟩

/-- What is stored of a payload when its `write` gets that answer. -/
def uf2Store (location : Location) (patch : Patch) (answer : Answer) : Store :=
  ⟨location, patch.offset, patch.slice, answer.stored patch.slice⟩

/-- Where an error is answered with -1, a result that is none comes from a call that succeeded. -/
theorem call_passed {α : Type} {call : Proc Kernel (Except Errno α)} {next : Except Errno α → Proc Kernel Int}
    {kernel after : Kernel} {ret : Int} (refused : ∀ errno, next (.error errno) = pure (-1)) (passed : ¬ ret < 0)
    (returned : (call >>= next) kernel = (some ret, after)) :
    ∃ value middle, call kernel = (some (.ok value), middle) ∧ next (.ok value) middle = (some ret, after) := by
  obtain ⟨result, middle, run, rest⟩ := Proc.bind_inversion returned
  cases result with
  | ok value => exact ⟨value, middle, run, rest⟩
  | error errno =>
      rw [refused errno] at rest
      cases rest
      exact absurd (by decide) passed

theorem uf2WriteInto_done {realname : CString} {data : Bytes} {dataBytes fileOffset fileSize : UInt32} {ret : Int}
    (passed : ¬ ret < 0) (within : fileOffset.toNat ≤ fileSize.toNat) {kernel after : Kernel}
    (returned : uf2WriteInto realname data dataBytes fileOffset fileSize kernel = (some ret, after)) :
    ∃ location, kernel.files.writable realname = .ok location ∧ after.answers = kernel.answers.drop 4 ∧
      ¬ ((kernel.answers.drop 3).headD .success).Fails ∧
      (let store := uf2Store location (uf2Patch data dataBytes fileOffset fileSize)
        ((kernel.answers.drop 3).headD .success)
       stores after.log = stores kernel.log ++ [store] ∧
        after.files = kernel.files.put location (.file (((uf2Patch data dataBytes fileOffset fileSize).cut
          store.count).apply ((kernel.files.contents location).getD [])))) := by
  unfold uf2WriteInto at returned
  obtain ⟨fd, first, opened, returned⟩ := call_passed (fun _ => rfl) passed returned
  obtain ⟨location, writable, rfl, rfl⟩ := openWrite_ok opened
  obtain ⟨done, second, cut, returned⟩ := call_passed (fun _ => rfl) passed returned
  have second := ftruncate_ok cut
  subst second
  obtain ⟨moved, third, sought, returned⟩ := call_passed (fun _ => rfl) passed returned
  obtain ⟨rfl, rfl⟩ := lseek_ok sought
  obtain ⟨count, last, written, returned⟩ := call_passed (fun _ => rfl) passed returned
  obtain ⟨answered, stored, last⟩ := write_ok written (FileSystem.opened_rewrite kernel.files location _)
    (by rw [padded_length]; exact within)
  cases returned
  rw [last]
  have third : ∀ answers : List Answer,
      answers.tail.tail.tail.headD .success = (answers.drop 3).headD .success := by
    intro answers
    simp only [← List.drop_one, List.drop_drop]
  have count : count = (uf2Store location (uf2Patch data dataBytes fileOffset fileSize)
      ((kernel.answers.drop 3).headD .success)).count := by
    rw [stored, Kernel.answer]
    simp only [Kernel.after_answers, third]
    rfl
  refine ⟨location, writable, ?_, ?_, ?_, ?_⟩
  · simp only [Kernel.after_answers, ← List.drop_one, List.drop_drop]
  · rw [← third]
    exact answered
  · simp only [Kernel.after_log, stores_snoc]
    rw [count]
    simp [Call.store]
    rfl
  · rw [Kernel.after_files, ← count]
    rfl

section Quiet

variable {kernel : Kernel} (quiet : kernel.answers = []) {realname : CString}

include quiet

theorem uf2WriteInto_stores {location : Location} (writable : kernel.files.writable realname = .ok location)
    (data : Bytes) (dataBytes : UInt32) {fileOffset fileSize : UInt32} (within : fileOffset.toNat ≤ fileSize.toNat) :
    Works (uf2WriteInto realname data dataBytes fileOffset fileSize) kernel 0
      (kernel.files.put location
        (.file ((uf2Patch data dataBytes fileOffset fileSize).apply ((kernel.files.contents location).getD [])))) := by
  refine (openWrite_works quiet writable).bind fun first firstQuiet opened => ?_
  refine (ftruncate_works firstQuiet ⟨location, 0⟩ fileSize.toNat).bind fun second secondQuiet truncated => ?_
  refine (lseek_works secondQuiet ⟨location, 0⟩ fileOffset.toNat).bind fun third thirdQuiet sought => ?_
  rw [opened, FileSystem.opened_rewrite] at truncated
  have stored := write_works thirdQuiet ⟨location, fileOffset.toNat⟩ (data.take dataBytes.toNat)
    (sought.trans truncated) (by rw [padded_length]; exact within)
  exact stored.bind fun last lastQuiet written => ⟨last, rfl, lastQuiet, written⟩

end Quiet

end Ev3duder
