import Ev3duder.Uf2.Progress

namespace Ev3duder

open Data Posix

/-! # What an extraction can reach

The archive is arbitrary, and so is what the kernel answers.
-/

/-- Reached from the directory `dstdir` by at least one name, none of which stays or goes up. -/
def Below (files : FileSystem) (dstdir : CString) (location : Location) : Prop :=
  ∃ root rest, files.directory dstdir = .ok root ∧ location = root ++ rest ∧ rest ≠ [] ∧ ∀ name ∈ rest, ¬ Special name

/-- Made: `dstdir`, what it names on the way to it, or something below it.  Opened, cut or written: a file below it. -/
def Contained (dstdir : CString) (files : FileSystem) : Call → Prop
  | .mkdir path (.ok location) =>
      path = dstdir ∨ (∃ rest, dstdir.bytes = path.bytes ++ slash :: rest) ∨ Below files dstdir location
  | .open _ (.ok location) => Below files dstdir location
  | .ftruncate file _ _ => Below files dstdir file
  | .write file _ _ _ => Below files dstdir file
  | _ => True

/-- No symbolic links below `dstdir`. -/
def Plain (dstdir : CString) (files : FileSystem) : Prop :=
  ∀ root, files.directory dstdir = .ok root → NoLinks files root

section Growth

variable {dstdir : CString} {old new : FileSystem}

theorem Below.extends {location : Location} (below : Below old dstdir location) (grown : old.Extends new) :
    Below new dstdir location := by
  obtain ⟨root, rest, found, same, some, ordinary⟩ := below
  exact ⟨root, rest, grown.directory_ok found, same, some, ordinary⟩

theorem Contained.extends {call : Call} (contained : Contained dstdir old call) (grown : old.Extends new) :
    Contained dstdir new call := by
  cases call with
  | mkdir path result =>
      cases result with
      | error errno => trivial
      | ok location =>
          rcases contained with whole | ancestor | below
          · exact Or.inl whole
          · exact Or.inr (Or.inl ancestor)
          · exact Or.inr (Or.inr (below.extends grown))
  | «open» path result =>
      cases result with
      | error errno => trivial
      | ok location => exact Below.extends contained grown
  | ftruncate file size result => exact Below.extends contained grown
  | lseek file offset result => trivial
  | write file offset bytes result => exact Below.extends contained grown

/-- Growing leaves symbolic links as they are. -/
theorem Plain.before (plain : Plain dstdir new) (grown : old.Extends new) : Plain dstdir old := by
  intro root found rest target below link
  exact plain root (grown.directory_ok found) rest target below ((grown.link _ target).mpr link)

end Growth

/-- `dstdir` itself, or a folder in it. -/
def Front (dstdir front : CString) : Prop :=
  front = dstdir ∨ ∃ folder, front.bytes = dstdir.bytes ++ slash :: folder ∧ slash ∉ folder ∧ folder ≠ dotDot

/-- One name behind `dstdir` or behind a folder in it. -/
def Behind (dstdir path : CString) : Prop :=
  ∃ front last, Front dstdir front ∧ path.bytes = front.bytes ++ slash :: last ∧ slash ∉ last

section Behind

variable {dstdir : CString} {files : FileSystem}

theorem walk_directory {path : CString} {rest : Bytes} (named : dstdir.bytes ≠ [])
    (split : path.bytes = dstdir.bytes ++ rest) {root : Location}
    (walked : files.walk (origin files.cwd path) (components dstdir) = .ok root) :
    files.directory dstdir = .ok root := by
  rw [FileSystem.directory, if_neg named, ← origin_append files.cwd split named]
  exact walked

/-- Walking to the front of a path ends in `dstdir` or one directory below it. -/
theorem walk_front {front path : CString} {rest : Bytes} (named : dstdir.bytes ≠ []) (inside : Front dstdir front)
    (split : path.bytes = front.bytes ++ rest) (plain : Plain dstdir files) {parent : Location}
    (walked : files.walk (origin files.cwd path) (components front) = .ok parent) :
    ∃ root middle, files.directory dstdir = .ok root ∧ parent = root ++ middle ∧ ∀ name ∈ middle, ¬ Special name := by
  rcases inside with rfl | ⟨folder, ends, free, down⟩
  · exact ⟨parent, [], walk_directory named split walked, (List.append_nil _).symm,
      fun _ member => absurd member List.not_mem_nil⟩
  · rw [components_slash ends free] at walked
    obtain ⟨root, before, entered⟩ := FileSystem.walk_append_ok.mp walked
    rw [FileSystem.walk_single] at entered
    rw [ends, List.append_assoc] at split
    have found := walk_directory named split before
    obtain ⟨middle, same, ordinary⟩ := enter_below (plain root found) down entered
    exact ⟨root, middle, found, same, ordinary⟩

theorem below_last {root middle : Location} {last : Name} (found : files.directory dstdir = .ok root)
    (ordinary : ∀ name ∈ middle, ¬ Special name) (lastOrdinary : ¬ Special last) :
    Below files dstdir (root ++ middle ++ [last]) := by
  refine ⟨root, middle ++ [last], found, List.append_assoc _ _ _, by simp, ?_⟩
  intro name member
  rcases List.mem_append.mp member with before | here
  · exact ordinary name before
  · rw [List.mem_singleton.mp here]
    exact lastOrdinary

theorem Behind.located {path : CString} (named : dstdir.bytes ≠ []) (behind : Behind dstdir path)
    (plain : Plain dstdir files) {location : Location} (located : files.locate path = .ok location) :
    Below files dstdir location := by
  obtain ⟨front, last, inside, split, free⟩ := behind
  have parts := components_slash split free
  obtain ⟨parent, walked⟩ := FileSystem.locate_parent located
  rw [parts, List.dropLast_concat] at walked
  obtain ⟨root, middle, found, rfl, ordinary⟩ := walk_front named inside split plain walked
  have noLink : ∀ target, files.nodes (root ++ middle ++ [last]) ≠ some (.link target) := by
    intro target
    rw [List.append_assoc]
    exact plain root found _ target (by simp)
  obtain ⟨rfl, lastOrdinary⟩ := FileSystem.locate_below_inv parts walked noLink located
  exact below_last found ordinary lastOrdinary

/-- The directories above such a path. -/
theorem Behind.ancestor {path ancestor : CString} (named : dstdir.bytes ≠ []) (behind : Behind dstdir path)
    (member : ancestor ∈ uf2Ancestors path 0) (plain : Plain dstdir files) {location : Location}
    (vacant : files.vacant ancestor = .ok location) :
    ancestor = dstdir ∨ (∃ rest, dstdir.bytes = ancestor.bytes ++ slash :: rest) ∨ Below files dstdir location := by
  obtain ⟨front, last, inside, split, free⟩ := behind
  obtain ⟨_, rest, same⟩ := uf2Ancestors_prefix member
  rcases inside with rfl | ⟨folder, ends, folderFree, down⟩
  · rcases prefix_slash (split.symm.trans same) free with whole | ⟨more, above⟩
    · exact Or.inl (CString.ext whole)
    · exact Or.inr (Or.inl ⟨more, above⟩)
  · rcases prefix_slash (split.symm.trans same) free with whole | ⟨more, above⟩
    · right
      right
      have ancestorEnds := whole.trans ends
      obtain ⟨_, _, ordinary, parent, walked, rfl⟩ := FileSystem.vacant_inv vacant
      rw [components_slash ancestorEnds folderFree, List.getLastD_concat] at ordinary ⊢
      rw [components_slash ancestorEnds folderFree, List.dropLast_concat] at walked
      have found := walk_directory named ancestorEnds walked
      exact ⟨parent, [folder], found, rfl, by simp, fun _ member => List.mem_singleton.mp member ▸ ordinary⟩
    · rcases prefix_slash (ends.symm.trans above) folderFree with whole | ⟨more, above⟩
      · exact Or.inl (CString.ext whole)
      · exact Or.inr (Or.inl ⟨more, above⟩)

end Behind

/-- Cut or not, a mapped path is behind `dstdir`: what is lost are the ends of the names. -/
theorem uf2Map_behind {dstdir : CString} (short : dstdir.bytes.length ≤ 253) (filename : CString) (usePaths : Bool) :
    Behind dstdir (uf2Map uf2RealnameSize dstdir filename usePaths) := by
  have shape := uf2Map_bytes dstdir filename usePaths
  by_cases room : (dstdir.bytes ++ slash :: (uf2Folder filename usePaths).bytes).length ≤ 254
  · have left : ∃ count, 255 - (dstdir.bytes ++ slash :: (uf2Folder filename usePaths).bytes).length = count + 1 :=
      Nat.exists_eq_succ_of_ne_zero (by omega)
    obtain ⟨count, left⟩ := left
    refine ⟨dstdir ++ separator ++ uf2Folder filename usePaths, (uf2Basename filename false).bytes.take count,
      Or.inr ⟨(uf2Folder filename usePaths).bytes, by simp [separator], uf2Folder_free filename usePaths,
        uf2Folder_down filename usePaths⟩, ?_, fun member => uf2Basename_free filename (List.mem_of_mem_take member)⟩
    rw [shape, List.take_append, List.take_of_length_le (Nat.le_succ_of_le room), left, List.take_succ_cons]
    simp [separator]
  · -- Only the front of the folder is left, and that may well be `..`.
    refine ⟨dstdir, (uf2Folder filename usePaths).bytes.take (254 - dstdir.bytes.length), Or.inl rfl, ?_,
      fun member => uf2Folder_free filename usePaths (List.mem_of_mem_take member)⟩
    have left : 255 - dstdir.bytes.length = (254 - dstdir.bytes.length) + 1 := by omega
    rw [shape, List.take_append_of_le_length (by omega), List.take_append, List.take_of_length_le (by omega), left,
      List.take_succ_cons]

/-- What happens between two states: the files grow, and every call keeps to what is allowed. -/
structure Confined (dstdir : CString) (before after : Kernel) : Prop where
  grown : before.files.Extends after.files
  calls : ∃ calls, after.log = before.log ++ calls ∧
    (Plain dstdir after.files → ∀ call ∈ calls, Contained dstdir after.files call)

section Calls

variable {dstdir : CString}

theorem Confined.refl (kernel : Kernel) : Confined dstdir kernel kernel :=
  ⟨.refl _, [], (List.append_nil _).symm, fun _ _ member => absurd member List.not_mem_nil⟩

theorem Confined.trans {first second third : Kernel} (head : Confined dstdir first second)
    (tail : Confined dstdir second third) : Confined dstdir first third := by
  obtain ⟨headCalls, headLog, headContained⟩ := head.calls
  obtain ⟨tailCalls, tailLog, tailContained⟩ := tail.calls
  refine ⟨head.grown.trans tail.grown, headCalls ++ tailCalls, ?_, ?_⟩
  · rw [tailLog, headLog, List.append_assoc]
  · intro plain call member
    rcases List.mem_append.mp member with early | late
    · exact (headContained (plain.before tail.grown) call early).extends tail.grown
    · exact tailContained plain call late

theorem confined_trans (first second third : Kernel) (head : Confined dstdir first second)
    (tail : Confined dstdir second third) : Confined dstdir first third := head.trans tail

theorem confined_call {kernel : Kernel} {files : FileSystem} {call : Call} (grown : kernel.files.Extends files)
    (contained : Plain dstdir kernel.files → Contained dstdir kernel.files call) :
    Confined dstdir kernel (kernel.after files call) := by
  refine ⟨grown, [call], rfl, ?_⟩
  intro plain other member
  rw [List.mem_singleton.mp member]
  exact (contained (plain.before grown)).extends grown

theorem mkdir_confined {path ancestor : CString} (named : dstdir.bytes ≠ []) (behind : Behind dstdir path)
    (member : ancestor ∈ uf2Ancestors path 0) (kernel : Kernel) :
    Confined dstdir kernel (mkdir ancestor kernel).2 := by
  refine confined_call (mkdir_files ancestor kernel).grown fun plain => ?_
  cases made : kernel.outcome (kernel.files.vacant ancestor) with
  | error errno => trivial
  | ok location => exact behind.ancestor named member plain (Kernel.outcome_ok made)

theorem mkdirEach_confined {path : CString} (named : dstdir.bytes ≠ []) (behind : Behind dstdir path)
    {ancestors : List CString} (above : ∀ ancestor ∈ ancestors, ancestor ∈ uf2Ancestors path 0) :
    Proc.Within (Confined dstdir) (mkdirEach ancestors) := by
  induction ancestors with
  | nil => exact Confined.refl
  | cons ancestor ancestors ih =>
      refine Proc.within_bind confined_trans
        (mkdir_confined named behind (above ancestor List.mem_cons_self)) fun result => ?_
      refine Proc.within_ite (fun _ => Confined.refl) fun _ => ?_
      exact ih fun other member => above other (List.mem_cons_of_mem _ member)

/-- An open file: it is there, and below `dstdir`. -/
structure Held (dstdir : CString) (fd : Descriptor) (files : FileSystem) : Prop where
  file : ∃ content, files.nodes fd.file = some (.file content)
  below : Plain dstdir files → Below files dstdir fd.file

theorem Held.extends {fd : Descriptor} {old new : FileSystem} (held : Held dstdir fd old) (grown : old.Extends new) :
    Held dstdir fd new := by
  obtain ⟨content, found⟩ := held.file
  exact ⟨grown.file _ content found, fun plain => (held.below (plain.before grown)).extends grown⟩

theorem Held.rewrite {fd : Descriptor} {files : FileSystem} (held : Held dstdir fd files) (change : Bytes → Bytes) :
    files.Extends (files.rewrite fd.file change) := by
  obtain ⟨content, found⟩ := held.file
  exact FileSystem.extends_rewrite found change

theorem openWrite_confined {path : CString} (named : dstdir.bytes ≠ []) (behind : Behind dstdir path)
    (kernel : Kernel) : Confined dstdir kernel (openWrite path kernel).2 := by
  unfold openWrite
  cases opened : kernel.outcome (kernel.files.writable path) with
  | error errno => exact confined_call (.refl _) fun _ => trivial
  | ok location =>
      have writable := Kernel.outcome_ok opened
      exact confined_call (FileSystem.extends_opened writable) fun plain =>
        behind.located named plain (FileSystem.writable_ok.mp writable).1

theorem openWrite_held {path : CString} (named : dstdir.bytes ≠ []) (behind : Behind dstdir path)
    {kernel after : Kernel} {fd : Descriptor} (opened : openWrite path kernel = (some (.ok fd), after)) :
    Held dstdir fd after.files := by
  obtain ⟨location, writable, rfl, rfl⟩ := openWrite_ok opened
  have grown := FileSystem.extends_opened writable
  refine ⟨kernel.files.opened_file location, fun plain => ?_⟩
  exact (behind.located named (plain.before grown) (FileSystem.writable_ok.mp writable).1).extends grown

theorem ftruncate_confined {fd : Descriptor} (size : Nat) {kernel : Kernel} (held : Held dstdir fd kernel.files) :
    Confined dstdir kernel (ftruncate fd size kernel).2 := by
  unfold ftruncate
  cases kernel.outcome (.ok ()) with
  | error errno => exact confined_call (.refl _) held.below
  | ok done => exact confined_call (held.rewrite _) held.below

theorem lseek_confined (fd : Descriptor) (offset : Nat) (kernel : Kernel) :
    Confined dstdir kernel (lseek fd offset kernel).2 :=
  confined_call (.refl _) fun _ => trivial

theorem write_confined {fd : Descriptor} (bytes : Bytes) {kernel : Kernel} (held : Held dstdir fd kernel.files) :
    Confined dstdir kernel (write fd bytes kernel).2 := by
  unfold write
  refine confined_call ?_ held.below
  split
  · exact .refl _
  · exact held.rewrite _
  · exact .refl _

theorem uf2WriteInto_confined {realname : CString} (named : dstdir.bytes ≠ []) (behind : Behind dstdir realname)
    (data : Bytes) (dataBytes fileOffset fileSize : UInt32) :
    Proc.Within (Confined dstdir) (uf2WriteInto realname data dataBytes fileOffset fileSize) := by
  intro kernel
  refine Proc.bind_keeps (openWrite_confined named behind kernel) fun opened first run confined => ?_
  cases opened with
  | error errno => exact confined
  | ok fd =>
      have held := openWrite_held named behind run
      refine Proc.bind_keeps (confined.trans (ftruncate_confined _ held)) fun cut second run confined => ?_
      have grown := (ftruncate_confined fileSize.toNat held).grown
      rw [run] at grown
      have held := held.extends grown
      cases cut with
      | error errno => exact confined
      | ok done =>
          refine Proc.bind_keeps (confined.trans (lseek_confined fd _ second)) fun sought third run confined => ?_
          have kept : Confined dstdir second (lseek fd fileOffset.toNat second).2 := lseek_confined fd _ second
          rw [run] at kept
          have held := held.extends kept.grown
          cases sought with
          | error errno => exact confined
          | ok moved =>
              have same : moved.file = fd.file := by rw [(lseek_ok run).1]
              have held : Held dstdir moved third.files := ⟨same ▸ held.file, same ▸ held.below⟩
              refine Proc.bind_keeps (confined.trans (write_confined _ held)) fun written last run confined => ?_
              cases written with
              | error errno => exact confined
              | ok count => exact confined

theorem uf2MkdirFor_confined {realname : CString} (named : dstdir.bytes ≠ []) (behind : Behind dstdir realname) :
    Proc.Within (Confined dstdir) (uf2MkdirFor realname) := by
  rw [uf2MkdirFor_each]
  exact mkdirEach_confined named behind fun _ member => member

theorem uf2UnpackBlock_confined (named : dstdir.bytes ≠ []) (short : dstdir.bytes.length ≤ 253) (usePaths : Bool)
    (block : Uf2Block) {next : Proc Kernel Err} (rest : Proc.Within (Confined dstdir) next) :
    Proc.Within (Confined dstdir) (uf2UnpackBlock dstdir usePaths block next) := by
  have behind := uf2Map_behind short block.name usePaths
  refine Proc.within_bind confined_trans (uf2MkdirFor_confined named behind) fun made => ?_
  refine Proc.within_ite (fun _ => Confined.refl) fun _ => ?_
  refine Proc.within_bind confined_trans (uf2WriteInto_confined named behind _ _ _ _) fun stored => ?_
  exact Proc.within_ite (fun _ => Confined.refl) fun _ => rest

theorem uf2UnpackLoop_confined (named : dstdir.bytes ≠ []) (short : dstdir.bytes.length ≤ 253) (usePaths : Bool)
    (stream : Bytes) : Proc.Within (Confined dstdir) (uf2UnpackLoop dstdir usePaths stream) := by
  obtain ⟨blocks, tail, left, rfl⟩ := uf2Stream_blocks stream
  induction blocks with
  | nil =>
      rw [List.flatMap_nil, List.nil_append, uf2UnpackLoop_end left]
      exact Confined.refl
  | cons block blocks ih =>
      rw [List.flatMap_cons, List.append_assoc]
      by_cases accepted : block.Accepted
      · rw [uf2UnpackLoop_accepted accepted]
        exact uf2UnpackBlock_confined named short usePaths block ih
      · rw [uf2UnpackLoop_rejected accepted]
        exact ih

end Calls

/-- Whatever the archive holds and the kernel answers, every call keeps to `dstdir`.  `plain` asks for no symbolic
links below the directory that `dstdir` names, be it made by the extraction or there before. -/
theorem uf2Unpack_contained (stream : Bytes) {dstdir : CString} (named : dstdir.bytes ≠ [])
    (short : dstdir.bytes.length ≤ 253) (usePaths : Bool) {kernel : Kernel} (unlogged : kernel.log = [])
    (plain : ∀ root, (uf2Unpack stream dstdir usePaths kernel).2.files.directory dstdir = .ok root →
      NoLinks kernel.files root) :
    ∀ call ∈ (uf2Unpack stream dstdir usePaths kernel).2.log,
      Contained dstdir (uf2Unpack stream dstdir usePaths kernel).2.files call := by
  have confined : Confined dstdir kernel (uf2Unpack stream dstdir usePaths kernel).2 := by
    refine Proc.within_bind confined_trans (uf2UnpackLoop_confined named short usePaths stream)
      (fun retval => ?_) kernel
    exact Confined.refl
  obtain ⟨calls, logged, contained⟩ := confined.calls
  rw [unlogged, List.nil_append] at logged
  rw [logged]
  exact contained fun root found => (plain root found).extends confined.grown

def hostileName : CString := cstr [0x2E, 0x2E, 0x2F, 0x78]

/-- A block named `../x`. -/
def hostileArchive : Bytes := (uf2FileBlock hostileName 1 0 0 [7]).bytes

def targetDirectory : CString := cstr [0x6F]

def targetFiles : FileSystem where
  nodes location := if location = [[0x6F]] then some .directory else none
  cwd := []

theorem uf2Unpack_contained_up : ∃ after,
    uf2Unpack hostileArchive targetDirectory true ⟨targetFiles, [], []⟩ =
        (some (.unk, "`uf2 unpack` was successful."), after) ∧
      after.files.contents [[0x6F], [0x78]] = some [7] ∧
        ∀ call ∈ after.log, Contained targetDirectory after.files call := by
  have plain : ∀ root, (uf2Unpack hostileArchive targetDirectory true ⟨targetFiles, [], []⟩).2.files.directory
      targetDirectory = .ok root → NoLinks targetFiles root := by
    intro root _ rest target _ link
    simp only [targetFiles] at link
    split at link
    · cases link
    · cases link
  refine ⟨_, Prod.ext ?_ rfl, ?_, uf2Unpack_contained hostileArchive (by decide) (by decide) true rfl plain⟩
  · decide +kernel
  · decide +kernel

end Ev3duder
