import Ev3duder.Uf2.Unpack

namespace Ev3duder

open Data Posix

/-! # What an extraction makes of the files

Seen from outside every accepted block is one patch of one file.
-/

def Uf2Block.path (dstdir : CString) (usePaths : Bool) (block : Uf2Block) : CString :=
  uf2Map uf2RealnameSize dstdir block.name usePaths

def Uf2Block.patch (block : Uf2Block) : Patch :=
  uf2Patch (block.data.set 475 0) block.dataBytes block.fileOffset block.fileSize

/-- The system calls for a block before its `write`. -/
def Uf2Block.calls (dstdir : CString) (usePaths : Bool) (block : Uf2Block) : Nat :=
  (uf2Ancestors (block.path dstdir usePaths) 0).length + 3

theorem uf2MkdirFor_files (name : CString) (kernel : Kernel) :
    OnlyDirectories kernel.files (uf2MkdirFor name kernel).2.files := by
  rw [uf2MkdirFor_each]
  exact mkdirEach_files _ _

section Extraction

variable {dstdir : CString} {usePaths : Bool}

/-- An accepted block that does not end the extraction has cut its file and stored of its payload what the kernel
took. -/
theorem uf2UnpackBlock_stores {block : Uf2Block} (accepted : block.Accepted) {next : Proc Kernel Err}
    {kernel after : Kernel} (returned : uf2UnpackBlock dstdir usePaths block next kernel = (some .unk, after)) :
    ∃ middle location, kernel.files.Extends middle.files ∧
      middle.files.locate (block.path dstdir usePaths) = .ok location ∧
      middle.answers = (kernel.answers.drop (block.calls dstdir usePaths)).tail ∧
      (let answer := (kernel.answers.drop (block.calls dstdir usePaths)).headD .success
       ¬ answer.Fails ∧ stores middle.log = stores kernel.log ++ [uf2Store location block.patch answer] ∧
        middle.files.contents =
          edit kernel.files.contents location (block.patch.cut (answer.stored block.patch.slice))) ∧
      next middle = (some .unk, after) := by
  unfold uf2UnpackBlock at returned
  obtain ⟨made, first, directories, returned⟩ := Proc.bind_inversion returned
  have grown := uf2MkdirFor_files (block.path dstdir usePaths) kernel
  rw [Uf2Block.path, directories] at grown
  by_cases failed : made < 0
  · rw [if_pos failed] at returned
    simp at returned
  · rw [if_neg failed] at returned
    rw [uf2MkdirFor_each] at directories
    obtain ⟨answers, unstored⟩ := mkdirEach_done failed directories
    obtain ⟨ret, middle, stored, returned⟩ := Proc.bind_inversion returned
    by_cases refused : ret < 0
    · rw [if_pos refused] at returned
      simp at returned
    · rw [if_neg refused] at returned
      obtain ⟨location, writable, left, answered, logged, files⟩ :=
        uf2WriteInto_done refused (Nat.le_of_lt accepted.offset) stored
      have extended := FileSystem.extends_put_writable writable
        ((block.patch.cut (((first.answers.drop 3).headD .success).stored block.patch.slice)).apply
          ((first.files.contents location).getD []))
      rw [answers, unstored, List.drop_drop] at logged
      rw [answers, List.drop_drop] at left answered
      refine ⟨middle, location, ?_, ?_, ?_, ⟨answered, logged, ?_⟩, returned⟩
      · rw [files]
        exact grown.grown.trans extended
      · rw [files]
        exact extended.locate (FileSystem.writable_ok.mp writable).1
      · rw [left, List.tail_drop]
        rfl
      · rw [files, FileSystem.contents_put_file, grown.contents, answers, List.drop_drop]
        funext place
        by_cases same : place = location
        · rw [edit, if_pos same, if_pos same, same]
          rfl
        · rw [edit, if_neg same, if_neg same]

/-- Every accepted block with the answer that its `write` gets when the extraction comes that far. -/
def uf2Writes (dstdir : CString) (usePaths : Bool) : List Uf2Block → List Answer → List (Uf2Block × Answer)
  | [], _ => []
  | block :: blocks, answers =>
      if block.Accepted then
        let rest := answers.drop (block.calls dstdir usePaths)
        (block, rest.headD .success) :: uf2Writes dstdir usePaths blocks rest.tail
      else uf2Writes dstdir usePaths blocks answers

theorem uf2Writes_accepted {block : Uf2Block} (accepted : block.Accepted) (blocks : List Uf2Block)
    (answers : List Answer) :
    uf2Writes dstdir usePaths (block :: blocks) answers =
      (block, (answers.drop (block.calls dstdir usePaths)).headD .success) ::
        uf2Writes dstdir usePaths blocks (answers.drop (block.calls dstdir usePaths)).tail :=
  if_pos accepted

theorem uf2Writes_rejected {block : Uf2Block} (rejected : ¬ block.Accepted) (blocks : List Uf2Block)
    (answers : List Answer) :
    uf2Writes dstdir usePaths (block :: blocks) answers = uf2Writes dstdir usePaths blocks answers :=
  if_neg rejected

theorem uf2Writes_blocks (blocks : List Uf2Block) (answers : List Answer) :
    (uf2Writes dstdir usePaths blocks answers).map Prod.fst = blocks.filter fun block => block.Accepted := by
  induction blocks generalizing answers with
  | nil => rfl
  | cons block blocks ih =>
      by_cases accepted : block.Accepted
      · rw [uf2Writes_accepted accepted, List.map_cons, ih, List.filter_cons_of_pos (by simpa using accepted)]
      · rw [uf2Writes_rejected accepted, ih, List.filter_cons_of_neg (by simpa using accepted)]

/-- What the writes store, given the files in the end. -/
def uf2Stores (dstdir : CString) (usePaths : Bool) (files : FileSystem) (writes : List (Uf2Block × Answer)) :
    List Store :=
  writes.map fun write => uf2Store (files.place (write.1.path dstdir usePaths)) write.1.patch write.2

def uf2CutEdits (dstdir : CString) (usePaths : Bool) (files : FileSystem) (writes : List (Uf2Block × Answer)) :
    List (Location × Patch) :=
  writes.map fun write =>
    (files.place (write.1.path dstdir usePaths), write.1.patch.cut (write.2.stored write.1.patch.slice))

/-- A whole extraction stores block after block. -/
theorem uf2UnpackLoop_stores {blocks : List Uf2Block} {tail : Bytes} (short : tail.length < uf2BlockSize)
    {kernel after : Kernel}
    (returned : uf2UnpackLoop dstdir usePaths (blocks.flatMap Uf2Block.bytes ++ tail) kernel = (some .unk, after)) :
    kernel.files.Extends after.files ∧
      (∀ block ∈ blocks, block.Accepted → ∃ location,
        after.files.locate (block.path dstdir usePaths) = .ok location) ∧
      (∀ write ∈ uf2Writes dstdir usePaths blocks kernel.answers, ¬ write.2.Fails) ∧
      stores after.log = stores kernel.log ++
        uf2Stores dstdir usePaths after.files (uf2Writes dstdir usePaths blocks kernel.answers) ∧
      after.files.contents = editAll (uf2CutEdits dstdir usePaths after.files
        (uf2Writes dstdir usePaths blocks kernel.answers)) kernel.files.contents := by
  induction blocks generalizing kernel with
  | nil =>
      rw [List.flatMap_nil, List.nil_append, uf2UnpackLoop_end short, Proc.pure_apply, Prod.mk.injEq] at returned
      obtain ⟨_, rfl⟩ := returned
      exact ⟨.refl _, fun block member => absurd member List.not_mem_nil,
        fun write member => absurd member List.not_mem_nil, (List.append_nil _).symm, rfl⟩
  | cons block blocks ih =>
      rw [List.flatMap_cons, List.append_assoc] at returned
      by_cases accepted : block.Accepted
      · rw [uf2UnpackLoop_accepted accepted] at returned
        obtain ⟨middle, location, grown, located, answers, ⟨passed, logged, edited⟩, rest⟩ :=
          uf2UnpackBlock_stores accepted returned
        obtain ⟨extended, places, answered, stored, contents⟩ := ih rest
        have placed := extended.locate located
        rw [uf2Writes_accepted accepted, ← answers]
        refine ⟨grown.trans extended, ?_, ?_, ?_, ?_⟩
        · intro other member ok
          rcases List.mem_cons.mp member with rfl | member
          · exact ⟨location, placed⟩
          · exact places other member ok
        · intro write member
          rcases List.mem_cons.mp member with rfl | member
          · exact passed
          · exact answered write member
        · rw [stored, logged, uf2Stores, uf2Stores, List.map_cons, FileSystem.place_eq placed, List.append_assoc]
          rfl
        · rw [contents, edited, uf2CutEdits, uf2CutEdits, List.map_cons, FileSystem.place_eq placed]
          rfl
      · rw [uf2UnpackLoop_rejected accepted] at returned
        obtain ⟨extended, places, answered, stored, contents⟩ := ih returned
        rw [uf2Writes_rejected accepted]
        refine ⟨extended, ?_, answered, stored, contents⟩
        intro other member ok
        rcases List.mem_cons.mp member with rfl | member
        · exact absurd ok accepted
        · exact places other member ok

theorem uf2Writes_quiet (blocks : List Uf2Block) :
    uf2Writes dstdir usePaths blocks [] =
      (blocks.filter fun block => block.Accepted).map fun block => (block, .success) := by
  induction blocks with
  | nil => rfl
  | cons block blocks ih =>
      by_cases accepted : block.Accepted
      · rw [uf2Writes_accepted accepted, List.drop_nil, List.filter_cons_of_pos (by simpa using accepted),
          List.map_cons, ← ih]
        rfl
      · rw [uf2Writes_rejected accepted, List.filter_cons_of_neg (by simpa using accepted), ih]

/-- The patches of the accepted blocks, each with the file that its path has in the end. -/
def uf2Edits (dstdir : CString) (usePaths : Bool) (files : FileSystem) (blocks : List Uf2Block) :
    List (Location × Patch) :=
  (blocks.filter fun block => block.Accepted).map fun block =>
    (files.place (block.path dstdir usePaths), block.patch)

/-- Without troubles a whole extraction patches the files in the order of the blocks. -/
theorem uf2UnpackLoop_edits {blocks : List Uf2Block} {tail : Bytes} (short : tail.length < uf2BlockSize)
    {kernel after : Kernel} (quiet : kernel.answers = [])
    (returned : uf2UnpackLoop dstdir usePaths (blocks.flatMap Uf2Block.bytes ++ tail) kernel = (some .unk, after)) :
    kernel.files.Extends after.files ∧
      (∀ block ∈ blocks, block.Accepted → ∃ location,
        after.files.locate (block.path dstdir usePaths) = .ok location) ∧
      after.files.contents = editAll (uf2Edits dstdir usePaths after.files blocks) kernel.files.contents := by
  obtain ⟨extended, places, _, _, contents⟩ := uf2UnpackLoop_stores short returned
  refine ⟨extended, places, ?_⟩
  have whole : uf2CutEdits dstdir usePaths after.files (uf2Writes dstdir usePaths blocks []) =
      uf2Edits dstdir usePaths after.files blocks := by
    rw [uf2Writes_quiet, uf2CutEdits, List.map_map, uf2Edits]
    refine List.map_congr_left fun block _ => ?_
    simp only [Function.comp_apply, Answer.stored, Patch.cut_whole]
  rw [contents, quiet, whole]

end Extraction

end Ev3duder
