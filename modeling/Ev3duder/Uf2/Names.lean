import Ev3duder.Uf2.Storage
import Mathlib.Data.List.TakeDrop

namespace Ev3duder

open Data Posix

/-! # The names that an extraction keeps -/

/-- The names for which the mapped path is the name behind the directory. -/
def Uf2Kept (dstdir name : CString) : Prop :=
  dstdir.bytes.length + 1 + name.bytes.length ≤ 255 ∧ name.bytes.count slash = 1 ∨
    dstdir.bytes.length + 1 + name.bytes.length = 255 ∧ name.bytes.count slash = 0

instance (dstdir name : CString) : Decidable (Uf2Kept dstdir name) := by
  unfold Uf2Kept
  infer_instance

theorem uf2Folder_length (filename : CString) : (uf2Folder filename true).bytes.length ≤ filename.bytes.length := by
  by_cases up : filename.take (filename.bytes.takeWhile (· ≠ slash)).length = dotDotName
  · have cut := congrArg (List.length ∘ CString.bytes) up
    simp only [Function.comp_apply, CString.take_bytes, List.length_take] at cut
    have two : dotDotName.bytes.length = 2 := rfl
    have one : dotName.bytes.length = 1 := rfl
    rw [uf2Folder, if_pos rfl, if_pos up, one]
    omega
  · rw [uf2Folder, if_pos rfl, if_neg up, CString.take_bytes, List.length_take]
    exact Nat.min_le_right _ _

theorem take_eq_front {front back : Bytes} {count : Nat} (more : back ≠ []) :
    (front ++ back).take count = front ↔ count = front.length := by
  constructor
  · intro same
    have length := congrArg List.length same
    have positive := List.length_pos_iff.mpr more
    rw [List.length_take, List.length_append] at length
    omega
  · rintro rfl
    exact List.take_left

/-- A name with one separator is kept if it fits.  A name without one is kept when the cut takes off the base name that
follows it. -/
theorem uf2Map_kept_iff (dstdir : CString) {name : CString} (proper : ∀ part ∈ components name, ¬ Special part) :
    uf2Map uf2RealnameSize dstdir name true = dstdir ++ separator ++ name ↔ Uf2Kept dstdir name := by
  have wanted : (dstdir ++ separator ++ name).bytes = dstdir.bytes ++ slash :: name.bytes := by simp [separator]
  have length : (dstdir.bytes ++ slash :: name.bytes).length = dstdir.bytes.length + 1 + name.bytes.length := by
    rw [List.length_append, List.length_cons]
    omega
  rw [CString.ext_iff, uf2Map_bytes, wanted, Uf2Kept]
  rcases last_slash name.bytes with free | ⟨front, base, split, baseFree⟩
  · have down : name ≠ dotDotName := by
      rintro rfl
      exact proper dotDot (by decide) (Or.inr (Or.inr rfl))
    rw [uf2Folder_flat free down, if_pos rfl, uf2Basename_plain free, take_eq_front (by simp), length,
      List.count_eq_zero.mpr free]
    omega
  · obtain ⟨before, rfl⟩ := name_before split
    rw [uf2Folder_archive split, uf2Basename_after split baseFree]
    have ends := List.count_eq_zero.mpr baseFree
    have total : name.bytes.length = before.bytes.length + 1 + base.length := by
      rw [split, List.length_append, List.length_cons]
      omega
    have count : name.bytes.count slash = before.bytes.count slash + 1 := by
      rw [split, List.count_append, List.count_cons_self, ends]
    by_cases free : slash ∉ before.bytes
    · have down : before ≠ dotDotName := by
        rintro rfl
        rw [components_slash split baseFree] at proper
        exact proper dotDot (List.mem_append_left _ (by decide)) (Or.inr (Or.inr rfl))
      rw [uf2Folder_flat free down, if_pos rfl, List.append_assoc, List.cons_append, ← split, List.take_eq_self_iff,
        length, count, List.count_eq_zero.mpr free]
      omega
    · have shorter : (uf2Folder before true).bytes.length < before.bytes.length := by
        rcases last_slash before.bytes with none | ⟨first, rest, again, _⟩
        · exact absurd none free
        · obtain ⟨first, rfl⟩ := name_before again
          rw [uf2Folder_archive again]
          have bound := uf2Folder_length first
          rw [again, List.length_append, List.length_cons]
          omega
      have several : 0 < before.bytes.count slash := List.count_pos_iff.mpr (Classical.not_not.mp free)
      constructor
      · intro same
        have lost := congrArg List.length same
        simp only [List.length_take, List.length_append, List.length_cons] at lost
        omega
      · omega

/-- Nothing is opened between the two states. -/
def Unopened (before after : Kernel) : Prop := targets after.log = targets before.log

theorem unopened_trans (first second third : Kernel) (head : Unopened first second) (tail : Unopened second third) :
    Unopened first third := tail.trans head

theorem targets_snoc (log : List Call) (call : Call) :
    targets (log ++ [call]) = targets log ++ call.target.toList := by
  rw [targets, List.filterMap_append, targets]
  cases kept : call.target <;> simp [kept]

theorem mkdirEach_unopened (paths : List CString) : Proc.Within Unopened (mkdirEach paths) := by
  induction paths with
  | nil => exact fun _ => rfl
  | cons path paths ih =>
      have made : Proc.Within Unopened (mkdir path) := fun kernel => by
        rw [Unopened, mkdir, Kernel.after_log, targets_snoc]
        exact List.append_nil _
      refine Proc.within_bind unopened_trans made fun result => ?_
      exact Proc.within_ite (fun _ _ => rfl) fun _ => ih

theorem ftruncate_unopened (fd : Descriptor) (size : Nat) : Proc.Within Unopened (ftruncate fd size) := fun kernel => by
  rw [Unopened, ftruncate, Kernel.after_log, targets_snoc]
  exact List.append_nil _

theorem lseek_unopened (fd : Descriptor) (offset : Nat) : Proc.Within Unopened (lseek fd offset) := fun kernel => by
  rw [Unopened, lseek, Kernel.after_log, targets_snoc]
  exact List.append_nil _

theorem write_unopened (fd : Descriptor) (bytes : Bytes) : Proc.Within Unopened (write fd bytes) := fun kernel => by
  rw [Unopened, write, Kernel.after_log, targets_snoc]
  exact List.append_nil _

theorem uf2WriteInto_opens (realname : CString) (data : Bytes) (dataBytes fileOffset fileSize : UInt32)
    (kernel : Kernel) :
    targets (uf2WriteInto realname data dataBytes fileOffset fileSize kernel).2.log =
      targets kernel.log ++ [realname] := by
  have opened : targets (openWrite realname kernel).2.log = targets kernel.log ++ [realname] := by
    rw [openWrite, Kernel.after_log, targets_snoc]
    rfl
  refine @Proc.bind_keeps Kernel _ _ (fun after => targets after.log = targets kernel.log ++ [realname]) _ _ kernel
    opened fun result first _ before => ?_
  cases result with
  | error errno => exact before
  | ok fd =>
      refine Eq.trans (Proc.within_bind unopened_trans (ftruncate_unopened fd _) (fun cut => ?_) first) before
      cases cut with
      | error errno => exact fun _ => rfl
      | ok done =>
          refine Proc.within_bind unopened_trans (lseek_unopened fd _) fun sought => ?_
          cases sought with
          | error errno => exact fun _ => rfl
          | ok moved =>
              refine Proc.within_bind unopened_trans (write_unopened moved _) fun written => ?_
              cases written with
              | error errno => exact fun _ => rfl
              | ok count => exact fun _ => rfl

section Blocks

variable {dstdir : CString} {usePaths : Bool}

/-- A block opens its path and goes on, or the extraction ends there. -/
theorem uf2UnpackBlock_opens (block : Uf2Block) (next : Proc Kernel Err) (kernel : Kernel) :
    ((uf2UnpackBlock dstdir usePaths block next kernel).1 ≠ some .unk ∧
        ∃ opened, opened <+: [block.path dstdir usePaths] ∧
          targets (uf2UnpackBlock dstdir usePaths block next kernel).2.log = targets kernel.log ++ opened) ∨
      ∃ middle, uf2UnpackBlock dstdir usePaths block next kernel = next middle ∧
        targets middle.log = targets kernel.log ++ [block.path dstdir usePaths] := by
  have unopened : Unopened kernel (uf2MkdirFor (block.path dstdir usePaths) kernel).2 := by
    rw [uf2MkdirFor_each]
    exact mkdirEach_unopened _ kernel
  unfold uf2UnpackBlock
  rcases made : uf2MkdirFor (block.path dstdir usePaths) kernel with ⟨_ | ret, first⟩
  · rw [made] at unopened
    rw [Uf2Block.path] at made
    rw [Proc.bind_died made]
    exact Or.inl ⟨by simp, [], List.nil_prefix, unopened.trans (List.append_nil _).symm⟩
  · rw [made] at unopened
    rw [Uf2Block.path] at made
    rw [Proc.bind_returned made]
    by_cases failed : ret < 0
    · rw [if_pos failed]
      exact Or.inl ⟨by simp, [], List.nil_prefix, unopened.trans (List.append_nil _).symm⟩
    · rw [if_neg failed]
      have opened := uf2WriteInto_opens (block.path dstdir usePaths) (block.data.set 475 0) block.dataBytes
        block.fileOffset block.fileSize first
      rw [unopened] at opened
      rcases stored : uf2WriteInto (block.path dstdir usePaths) (block.data.set 475 0) block.dataBytes block.fileOffset
        block.fileSize first with ⟨_ | ret, second⟩
      · rw [stored] at opened
        rw [Uf2Block.path] at stored
        rw [Proc.bind_died stored]
        exact Or.inl ⟨by simp, _, List.prefix_rfl, opened⟩
      · rw [stored] at opened
        rw [Uf2Block.path] at stored
        rw [Proc.bind_returned stored]
        by_cases refused : ret < 0
        · rw [if_pos refused]
          exact Or.inl ⟨by simp, _, List.prefix_rfl, opened⟩
        · rw [if_neg refused]
          exact Or.inr ⟨second, rfl, opened⟩

/-- The paths of the accepted blocks are opened one after the other, all of them in an extraction that succeeds. -/
theorem uf2UnpackLoop_opens {blocks : List Uf2Block} {tail : Bytes} (short : tail.length < uf2BlockSize)
    (kernel : Kernel) :
    ∃ opened, opened <+: (blocks.filter fun block => block.Accepted).map (Uf2Block.path dstdir usePaths) ∧
      targets (uf2UnpackLoop dstdir usePaths (blocks.flatMap Uf2Block.bytes ++ tail) kernel).2.log =
        targets kernel.log ++ opened ∧
      ((uf2UnpackLoop dstdir usePaths (blocks.flatMap Uf2Block.bytes ++ tail) kernel).1 = some .unk →
        opened = (blocks.filter fun block => block.Accepted).map (Uf2Block.path dstdir usePaths)) := by
  induction blocks generalizing kernel with
  | nil =>
      rw [List.flatMap_nil, List.nil_append, uf2UnpackLoop_end short]
      exact ⟨[], List.nil_prefix, (List.append_nil _).symm, fun _ => rfl⟩
  | cons block blocks ih =>
      rw [List.flatMap_cons, List.append_assoc]
      by_cases accepted : block.Accepted
      · rw [uf2UnpackLoop_accepted accepted, List.filter_cons_of_pos (by simpa using accepted), List.map_cons]
        rcases @uf2UnpackBlock_opens dstdir usePaths block
          (uf2UnpackLoop dstdir usePaths (blocks.flatMap Uf2Block.bytes ++ tail)) kernel with
          ⟨ended, opened, own, logged⟩ | ⟨middle, rest, logged⟩
        · exact ⟨opened, own.trans ((List.prefix_cons_inj _).mpr List.nil_prefix), logged,
            fun done => absurd done ended⟩
        · obtain ⟨opened, own, later, all⟩ := ih middle
          rw [rest]
          refine ⟨block.path dstdir usePaths :: opened, (List.prefix_cons_inj _).mpr own, ?_, ?_⟩
          · rw [later, logged, List.append_assoc]
            rfl
          · exact fun done => congrArg _ (all done)
      · rw [uf2UnpackLoop_rejected accepted, List.filter_cons_of_neg (by simpa using accepted)]
        exact ih kernel

end Blocks

/-- The accepted blocks that an extraction has come to, one for each path that it has opened. -/
def uf2Reached (stream : Bytes) (log : List Call) : List Uf2Block := (uf2Accepted stream).take (targets log).length

/-- Every block is written below its own name in `dstdir`, and blocks of different names at different paths. -/
structure Uf2KeepsNames (dstdir : CString) (blocks : List Uf2Block) (opened : List CString) : Prop where
  placed : List.Forall₂ (fun block path => path = dstdir ++ separator ++ block.name) blocks opened
  apart : ∀ (first second : Nat) (one other : Uf2Block), blocks[first]? = some one → blocks[second]? = some other →
    one.name ≠ other.name → opened[first]? ≠ opened[second]?

theorem append_inj_right {front first second : CString} (same : front ++ first = front ++ second) : first = second := by
  have bytes := congrArg CString.bytes same
  rw [CString.append_bytes, CString.append_bytes, List.append_cancel_left_eq] at bytes
  exact CString.ext bytes

theorem keepsNames_iff {dstdir : CString} {blocks : List Uf2Block}
    (proper : ∀ block ∈ blocks, ∀ part ∈ components block.name, ¬ Special part) :
    Uf2KeepsNames dstdir blocks (blocks.map (Uf2Block.path dstdir true)) ↔
      ∀ block ∈ blocks, Uf2Kept dstdir block.name := by
  have each : ∀ block ∈ blocks,
      (block.path dstdir true = dstdir ++ separator ++ block.name ↔ Uf2Kept dstdir block.name) :=
    fun block member => uf2Map_kept_iff dstdir (proper block member)
  constructor
  · intro keeps block member
    have placed := keeps.placed
    rw [List.forall₂_map_right_iff, List.forall₂_same] at placed
    exact (each block member).mp (placed block member)
  · intro kept
    have placed : ∀ block ∈ blocks, block.path dstdir true = dstdir ++ separator ++ block.name :=
      fun block member => (each block member).mpr (kept block member)
    refine ⟨?_, ?_⟩
    · rw [List.forall₂_map_right_iff, List.forall₂_same]
      exact placed
    · intro first second one other found otherFound distinct same
      rw [List.getElem?_map, List.getElem?_map, found, otherFound, Option.map_some, Option.map_some, Option.some.injEq,
        placed one (List.mem_of_getElem? found), placed other (List.mem_of_getElem? otherFound)] at same
      exact distinct (append_inj_right same)

theorem uf2Unpack_world (stream : Bytes) (dstdir : CString) (usePaths : Bool) (kernel : Kernel) :
    (uf2Unpack stream dstdir usePaths kernel).2 = (uf2UnpackLoop dstdir usePaths stream kernel).2 := by
  rcases loop : uf2UnpackLoop dstdir usePaths stream kernel with ⟨_ | retval, after⟩
  · rw [uf2Unpack, Proc.bind_died loop]
  · rw [uf2Unpack, Proc.bind_returned loop]
    rfl

/-- With `--with-paths` a proper name is kept if it has one separator and fits.  The second alternative of `Uf2Kept` is
an accident of the cut. -/
theorem uf2Unpack_names_iff {stream : Bytes} {dstdir : CString}
    (proper : ∀ block ∈ uf2Accepted stream, ∀ part ∈ components block.name, ¬ Special part) {files : FileSystem}
    {answers : List Answer} {result : Option (Err × String)} {after : Kernel}
    (run : uf2Unpack stream dstdir true ⟨files, answers, []⟩ = (result, after)) :
    (∀ message, result = some (.unk, message) → uf2Reached stream after.log = uf2Accepted stream) ∧
      (Uf2KeepsNames dstdir (uf2Reached stream after.log) (targets after.log) ↔
        ∀ block ∈ uf2Reached stream after.log, Uf2Kept dstdir block.name) := by
  obtain ⟨blocks, tail, short, same⟩ := uf2Stream_blocks stream
  obtain ⟨opened, own, logged, all⟩ := @uf2UnpackLoop_opens dstdir true blocks tail short ⟨files, answers, []⟩
  have world := uf2Unpack_world stream dstdir true ⟨files, answers, []⟩
  have accepted : uf2Accepted stream = blocks.filter fun block => block.Accepted := by
    rw [uf2Accepted, same, uf2Blocks_tail blocks short]
  rw [run] at world
  rw [← same, ← world] at logged
  rw [← same, ← accepted] at all
  rw [← accepted] at own
  have targeted : targets after.log = opened := logged
  have reached : opened = (uf2Reached stream after.log).map (Uf2Block.path dstdir true) := by
    rw [uf2Reached, targeted, List.map_take]
    exact List.prefix_iff_eq_take.mp own
  constructor
  · rintro message rfl
    have every := congrArg List.length (all (congrArg Prod.fst (uf2Unpack_loop run)))
    rw [List.length_map] at every
    rw [uf2Reached, targeted, every, List.take_length]
  · rw [targeted, reached]
    exact keepsNames_iff fun block member => proper block (List.mem_of_mem_take member)

def nameAC : CString := cstr [0x61, 0x2F, 0x63]

def nameABC : CString := cstr [0x61, 0x2F, 0x62, 0x2F, 0x63]

def nameADC : CString := cstr [0x61, 0x2F, 0x64, 0x2F, 0x63]

def namedBlocks (names : List CString) : List Uf2Block := names.map fun name => uf2FileBlock name 1 0 0 [7]

def namedArchive (names : List CString) : Bytes := (namedBlocks names).flatMap Uf2Block.bytes

theorem uf2Unpack_names_iff_folder : ∃ after,
    uf2Unpack (namedArchive [nameAC]) targetDirectory true ⟨targetFiles, [], []⟩ =
        (some (.unk, "`uf2 unpack` was successful."), after) ∧
      Uf2KeepsNames targetDirectory (uf2Reached (namedArchive [nameAC]) after.log) (targets after.log) := by
  have run : uf2Unpack (namedArchive [nameAC]) targetDirectory true ⟨targetFiles, [], []⟩ =
      (some (.unk, "`uf2 unpack` was successful."), _) := Prod.ext (by decide +kernel) rfl
  exact ⟨_, run, (uf2Unpack_names_iff (by decide +kernel) run).2.mpr (by decide +kernel)⟩

theorem named_misplaced {names : List CString} (name : CString) (later : List CString) {path : CString}
    {paths : List CString} {after : Kernel}
    (reached : uf2Reached (namedArchive names) after.log = namedBlocks (name :: later))
    (opened : targets after.log = path :: paths)
    (elsewhere : path ≠ targetDirectory ++ separator ++ (uf2FileBlock name 1 0 0 [7]).name) :
    ¬ Uf2KeepsNames targetDirectory (uf2Reached (namedArchive names) after.log) (targets after.log) := by
  intro keeps
  have placed := keeps.placed
  rw [reached, opened, namedBlocks, List.map_cons, List.forall₂_cons] at placed
  exact elsewhere placed.1

/-- `x` is written to `o/x/x`, and `a/b/c` and `a/d/c` are both written to `o/a/c`. -/
theorem uf2Unpack_moves_names :
    (∀ block ∈ uf2Accepted (namedArchive [fileX, nameABC, nameADC]), ∀ part ∈ components block.name, ¬ Special part) ∧
    (∃ after, uf2Unpack (namedArchive [fileX]) targetDirectory true ⟨targetFiles, [], []⟩ =
        (some (.unk, "`uf2 unpack` was successful."), after) ∧
      targets after.log = [cstr [0x6F, 0x2F, 0x78, 0x2F, 0x78]] ∧
      ¬ Uf2KeepsNames targetDirectory (uf2Reached (namedArchive [fileX]) after.log) (targets after.log)) ∧
    ∃ after, uf2Unpack (namedArchive [nameABC, nameADC]) targetDirectory true ⟨targetFiles, [], []⟩ =
        (some (.unk, "`uf2 unpack` was successful."), after) ∧
      targets after.log = [cstr [0x6F, 0x2F, 0x61, 0x2F, 0x63], cstr [0x6F, 0x2F, 0x61, 0x2F, 0x63]] ∧
      ¬ Uf2KeepsNames targetDirectory (uf2Reached (namedArchive [nameABC, nameADC]) after.log)
        (targets after.log) := by
  have flat : targets (uf2Unpack (namedArchive [fileX]) targetDirectory true ⟨targetFiles, [], []⟩).2.log =
      [cstr [0x6F, 0x2F, 0x78, 0x2F, 0x78]] := by decide +kernel
  have deep : targets (uf2Unpack (namedArchive [nameABC, nameADC]) targetDirectory true ⟨targetFiles, [], []⟩).2.log =
      [cstr [0x6F, 0x2F, 0x61, 0x2F, 0x63], cstr [0x6F, 0x2F, 0x61, 0x2F, 0x63]] := by decide +kernel
  refine ⟨by decide +kernel, ⟨_, Prod.ext (by decide +kernel) rfl, flat, ?_⟩,
    ⟨_, Prod.ext (by decide +kernel) rfl, deep, ?_⟩⟩
  · exact named_misplaced fileX [] (by decide +kernel) flat (by decide +kernel)
  · exact named_misplaced nameABC [nameADC] (by decide +kernel) deep (by decide +kernel)

end Ev3duder
