import Ev3duder.Uf2.Containment
import Mathlib.Data.List.Forall2

namespace Ev3duder

open Data Posix

/-! # What an extraction stores

The kernel may answer as it likes.  An extraction that reports success has written once for every accepted block.
-/

/-- The blocks of an archive that pass all filters. -/
def uf2Accepted (stream : Bytes) : List Uf2Block := (uf2Blocks stream).filter fun block => block.Accepted

theorem Uf2Block.Accepted.slice_length {block : Uf2Block} (accepted : block.Accepted) :
    block.patch.slice.length = block.dataBytes.toNat := by
  have payload : block.dataBytes.toNat ≤ 466 := accepted.payload
  have sized : block.data.length = 476 := block.sized
  have length : block.patch.slice.length = min block.dataBytes.toNat (block.data.set 475 0).length := List.length_take
  rw [length, List.length_set]
  omega

section Storage

variable {stream : Bytes} {dstdir : CString} {usePaths : Bool} {files : FileSystem} {answers : List Answer}
  {message : String} {after : Kernel}

/-- The writes of an extraction, with the answers that the kernel has for them. -/
def uf2StreamWrites (stream : Bytes) (dstdir : CString) (usePaths : Bool) (answers : List Answer) :
    List (Uf2Block × Answer) :=
  uf2Writes dstdir usePaths (uf2Blocks stream) answers

theorem streamWrites_blocks (stream : Bytes) (dstdir : CString) (usePaths : Bool) (answers : List Answer) :
    (uf2StreamWrites stream dstdir usePaths answers).map Prod.fst = uf2Accepted stream :=
  uf2Writes_blocks _ answers

theorem streamWrites_accepted {write : Uf2Block × Answer}
    (member : write ∈ uf2StreamWrites stream dstdir usePaths answers) :
    write.1 ∈ uf2Accepted stream ∧ write.1.Accepted := by
  have listed : write.1 ∈ uf2Accepted stream := by
    rw [← streamWrites_blocks stream dstdir usePaths answers]
    exact List.mem_map_of_mem member
  exact ⟨listed, by simpa using (List.mem_filter.mp listed).2⟩

theorem uf2Unpack_stores
    (run : uf2Unpack stream dstdir usePaths ⟨files, answers, []⟩ = (some (.unk, message), after)) :
    (∀ block ∈ uf2Accepted stream, ∃ location, after.files.locate (block.path dstdir usePaths) = .ok location) ∧
      (∀ write ∈ uf2StreamWrites stream dstdir usePaths answers, ¬ write.2.Fails) ∧
      stores after.log = uf2Stores dstdir usePaths after.files (uf2StreamWrites stream dstdir usePaths answers) ∧
      after.files.contents = editAll (uf2CutEdits dstdir usePaths after.files
        (uf2StreamWrites stream dstdir usePaths answers)) files.contents := by
  obtain ⟨blocks, tail, short, rfl⟩ := uf2Stream_blocks stream
  obtain ⟨_, places, answered, stored, contents⟩ := uf2UnpackLoop_stores short (uf2Unpack_loop run)
  rw [uf2Accepted, uf2StreamWrites, uf2Blocks_tail blocks short]
  refine ⟨?_, answered, stored, contents⟩
  intro block member
  obtain ⟨listed, accepted⟩ := List.mem_filter.mp member
  exact places block listed (by simpa using accepted)

/-- A relation between the accepted blocks and the stores is one between the writes and their answers. -/
theorem stores_related {related : Uf2Block → Store → Prop}
    (run : uf2Unpack stream dstdir usePaths ⟨files, answers, []⟩ = (some (.unk, message), after)) :
    List.Forall₂ related (uf2Accepted stream) (stores after.log) ↔
      ∀ write ∈ uf2StreamWrites stream dstdir usePaths answers, related write.1
        (uf2Store (after.files.place (write.1.path dstdir usePaths)) write.1.patch write.2) := by
  rw [(uf2Unpack_stores run).2.2.1, ← streamWrites_blocks stream dstdir usePaths answers, uf2Stores,
    List.forall₂_map_left_iff, List.forall₂_map_right_iff, List.forall₂_same]

/-- No byte is written at or beyond the declared size, and every file ends with the size that was declared last. -/
structure Uf2Respected (dstdir : CString) (usePaths : Bool) (blocks : List Uf2Block) (after : Kernel) : Prop where
  within : List.Forall₂ (fun block store => 0 < store.count → store.offset + store.count ≤ block.fileSize.toNat)
    blocks (stores after.log)
  final : ∀ front block back, blocks = front ++ block :: back →
    (∀ later ∈ back,
      after.files.locate (later.path dstdir usePaths) ≠ after.files.locate (block.path dstdir usePaths)) →
    ∃ content, after.files.readFile (block.path dstdir usePaths) = some content ∧
      content.length = block.fileSize.toNat ∧ content.length ≤ uf2FileMax

/-- The write of an accepted block, and those around it. -/
theorem streamWrites_split {front back : List Uf2Block} {block : Uf2Block} (answers : List Answer)
    (split : uf2Accepted stream = front ++ block :: back) :
    ∃ before answer later, uf2StreamWrites stream dstdir usePaths answers = before ++ (block, answer) :: later ∧
      later.map Prod.fst = back := by
  rw [← streamWrites_blocks stream dstdir usePaths answers] at split
  obtain ⟨before, rest, writes, _, same⟩ := List.map_eq_append_iff.mp split
  obtain ⟨write, later, rfl, rfl, rfl⟩ := List.map_eq_cons_iff.mp same
  exact ⟨before, write.2, later, writes, rfl⟩

theorem stored_whole (run : uf2Unpack stream dstdir usePaths ⟨files, answers, []⟩ = (some (.unk, message), after))
    (complete : ∀ store ∈ stores after.log, store.count = store.bytes.length) {write : Uf2Block × Answer}
    (listed : write ∈ uf2StreamWrites stream dstdir usePaths answers) :
    write.2.stored write.1.patch.slice = write.1.patch.slice.length := by
  refine complete (uf2Store (after.files.place (write.1.path dstdir usePaths)) write.1.patch write.2) ?_
  rw [(uf2Unpack_stores run).2.2.1]
  exact List.mem_map_of_mem listed

/-- The last accepted block for a file decides on its length. -/
theorem uf2Unpack_last (run : uf2Unpack stream dstdir usePaths ⟨files, answers, []⟩ = (some (.unk, message), after))
    (complete : ∀ store ∈ stores after.log, store.count = store.bytes.length) {front back : List Uf2Block}
    {block : Uf2Block} (split : uf2Accepted stream = front ++ block :: back)
    (last : ∀ later ∈ back,
      after.files.locate (later.path dstdir usePaths) ≠ after.files.locate (block.path dstdir usePaths)) :
    ∃ content, after.files.readFile (block.path dstdir usePaths) = some content ∧
      content.length = max block.fileSize.toNat (block.fileOffset.toNat + block.dataBytes.toNat) := by
  obtain ⟨places, _, _, contents⟩ := uf2Unpack_stores run
  have member : block ∈ uf2Accepted stream := by
    rw [split]
    exact List.mem_append_right _ List.mem_cons_self
  have accepted : block.Accepted := by simpa using (List.mem_filter.mp member).2
  obtain ⟨location, located⟩ := places block member
  obtain ⟨before, answer, later, writes, same⟩ := @streamWrites_split _ dstdir usePaths _ _ _ answers split
  have untouched : ∀ keyed ∈ uf2CutEdits dstdir usePaths after.files later, keyed.1 ≠ location := by
    intro keyed listed
    obtain ⟨other, found, rfl⟩ := List.mem_map.mp listed
    have behind : other.1 ∈ back := same ▸ List.mem_map_of_mem found
    obtain ⟨place, placed⟩ := places other.1 (split ▸ List.mem_append_right _ (List.mem_cons_of_mem _ behind))
    have apart := last other.1 behind
    rw [placed, located] at apart
    rw [FileSystem.place_eq placed]
    exact fun same => apart (congrArg Except.ok same)
  have whole : answer.stored block.patch.slice = block.patch.slice.length := by
    have listed : (block, answer) ∈ uf2StreamWrites stream dstdir usePaths answers := by
      rw [writes]
      exact List.mem_append_right _ List.mem_cons_self
    exact stored_whole run complete listed
  obtain ⟨old, final⟩ := @editAll_last _ _ (uf2CutEdits dstdir usePaths after.files before) _ location block.patch
    untouched files.contents
  refine ⟨block.patch.apply old, ?_, ?_⟩
  · rw [FileSystem.readFile, located]
    rw [← final, contents, writes, uf2CutEdits, List.map_append, List.map_cons, FileSystem.place_eq located, whole,
      Patch.cut_whole]
    rfl
  · rw [Patch.apply_length, accepted.slice_length]
    rfl

/-- All file operations are complete: what counts is whether the blocks keep to their own sizes. -/
theorem uf2Unpack_sizes_iff
    (run : uf2Unpack stream dstdir usePaths ⟨files, answers, []⟩ = (some (.unk, message), after))
    (complete : ∀ store ∈ stores after.log, store.count = store.bytes.length) :
    Uf2Respected dstdir usePaths (uf2Accepted stream) after ↔
      ∀ block ∈ uf2Accepted stream, block.fileOffset.toNat + block.dataBytes.toNat ≤ block.fileSize.toNat := by
  constructor
  · intro respected block member
    rw [← streamWrites_blocks stream dstdir usePaths answers] at member
    obtain ⟨write, listed, rfl⟩ := List.mem_map.mp member
    obtain ⟨_, accepted⟩ := streamWrites_accepted listed
    have within := (stores_related run).mp respected.within write listed
    rw [uf2Store, stored_whole run complete listed, accepted.slice_length] at within
    by_cases empty : write.1.dataBytes.toNat = 0
    · rw [empty]
      exact Nat.le_of_lt accepted.offset
    · exact within (Nat.pos_of_ne_zero empty)
  · intro kept
    refine ⟨(stores_related run).mpr ?_, ?_⟩
    · intro write listed _
      obtain ⟨member, accepted⟩ := streamWrites_accepted listed
      rw [uf2Store, stored_whole run complete listed, accepted.slice_length]
      exact kept write.1 member
    · intro front block back split last
      have member : block ∈ uf2Accepted stream := by
        rw [split]
        exact List.mem_append_right _ List.mem_cons_self
      have accepted : block.Accepted := by simpa using (List.mem_filter.mp member).2
      obtain ⟨content, found, length⟩ := uf2Unpack_last run complete split last
      rw [Nat.max_eq_left (kept block member)] at length
      exact ⟨content, found, length, length ▸ accepted.size⟩

def fileX : CString := cstr [0x78]

/-- A block of five bytes for the file `x`, which it says to have `size` bytes. -/
def fiveBytes (size : Nat) : Bytes := (uf2FileBlock fileX size 0 0 [1, 2, 3, 4, 5]).bytes

theorem uf2Unpack_sizes_iff_five : ∃ after,
    uf2Unpack (fiveBytes 5) targetDirectory false ⟨targetFiles, [], []⟩ =
        (some (.unk, "`uf2 unpack` was successful."), after) ∧
      Uf2Respected targetDirectory false (uf2Accepted (fiveBytes 5)) after := by
  have run : uf2Unpack (fiveBytes 5) targetDirectory false ⟨targetFiles, [], []⟩ =
      (some (.unk, "`uf2 unpack` was successful."), _) := Prod.ext (by decide +kernel) rfl
  have complete : ∀ store ∈ stores (uf2Unpack (fiveBytes 5) targetDirectory false ⟨targetFiles, [], []⟩).2.log,
      store.count = store.bytes.length := by decide +kernel
  exact ⟨_, run, (uf2Unpack_sizes_iff run complete).mpr (by decide +kernel)⟩

theorem uf2Unpack_exceeds_size : ∃ after,
    uf2Unpack (fiveBytes 1) targetDirectory false ⟨targetFiles, [], []⟩ =
        (some (.unk, "`uf2 unpack` was successful."), after) ∧
      (∀ store ∈ stores after.log, store.count = store.bytes.length) ∧
      after.files.contents [[0x6F], [0x78]] = some [1, 2, 3, 4, 5] ∧
      ¬ Uf2Respected targetDirectory false (uf2Accepted (fiveBytes 1)) after := by
  refine ⟨_, Prod.ext (by decide +kernel) rfl, by decide +kernel, by decide +kernel, fun respected => ?_⟩
  have within := respected.within
  have accepted : uf2Accepted (fiveBytes 1) = [uf2FileBlock fileX 1 0 0 [1, 2, 3, 4, 5]] := by decide +kernel
  have stored : stores (uf2Unpack (fiveBytes 1) targetDirectory false ⟨targetFiles, [], []⟩).2.log =
      [⟨[[0x6F], [0x78]], 0, [1, 2, 3, 4, 5], 5⟩] := by decide +kernel
  rw [accepted, stored, List.forall₂_cons] at within
  exact absurd (within.1 (by decide)) (by decide)

/-- Of every accepted block the whole payload was stored. -/
def Uf2Stored (blocks : List Uf2Block) (log : List Call) : Prop :=
  List.Forall₂ (fun block store => store.offset = block.fileOffset.toNat ∧ store.bytes = block.patch.slice ∧
    store.count = block.dataBytes.toNat) blocks (stores log)

/-- A count below the payload's length passes for success. -/
theorem uf2Unpack_stored_iff
    (run : uf2Unpack stream dstdir usePaths ⟨files, answers, []⟩ = (some (.unk, message), after)) :
    Uf2Stored (uf2Accepted stream) after.log ↔
      ∀ write ∈ uf2StreamWrites stream dstdir usePaths answers, ∀ count, write.2 = .short count →
        write.1.dataBytes.toNat ≤ count := by
  rw [Uf2Stored, stores_related run]
  refine forall₂_congr fun write listed => ?_
  have length := (streamWrites_accepted listed).2.slice_length
  have answered := (uf2Unpack_stores run).2.1 write listed
  constructor
  · rintro ⟨_, _, stored⟩ count short
    simp only [uf2Store, short, Answer.stored, length] at stored
    omega
  · intro whole
    refine ⟨rfl, rfl, ?_⟩
    rw [uf2Store, ← length]
    cases answer : write.2 with
    | success => rfl
    | short count => exact Nat.min_eq_right (length ▸ whole count answer)
    | failure errno => exact absurd ⟨errno, answer⟩ answered

end Storage

/-- The disk is full after two bytes. -/
theorem uf2Unpack_stores_short : ∃ after,
    uf2Unpack (fiveBytes 5) targetDirectory false
        ⟨targetFiles, [.success, .success, .success, .success, .success, .short 2], []⟩ =
      (some (.unk, "`uf2 unpack` was successful."), after) ∧
      after.files.contents [[0x6F], [0x78]] = some [1, 2, 0, 0, 0] ∧
      ¬ Uf2Stored (uf2Accepted (fiveBytes 5)) after.log := by
  refine ⟨_, Prod.ext (by decide +kernel) rfl, by decide +kernel, fun stored => ?_⟩
  have accepted : uf2Accepted (fiveBytes 5) = [uf2FileBlock fileX 5 0 0 [1, 2, 3, 4, 5]] := by decide +kernel
  have cut : stores (uf2Unpack (fiveBytes 5) targetDirectory false
      ⟨targetFiles, [.success, .success, .success, .success, .success, .short 2], []⟩).2.log =
      [⟨[[0x6F], [0x78]], 0, [1, 2, 3, 4, 5], 2⟩] := by decide +kernel
  rw [Uf2Stored, accepted, cut, List.forall₂_cons] at stored
  exact absurd stored.1.2.2 (by decide)

theorem uf2Unpack_stored_iff_five : ∃ after,
    uf2Unpack (fiveBytes 5) targetDirectory false ⟨targetFiles, [], []⟩ =
        (some (.unk, "`uf2 unpack` was successful."), after) ∧
      Uf2Stored (uf2Accepted (fiveBytes 5)) after.log := by
  have run : uf2Unpack (fiveBytes 5) targetDirectory false ⟨targetFiles, [], []⟩ =
      (some (.unk, "`uf2 unpack` was successful."), _) := Prod.ext (by decide +kernel) rfl
  refine ⟨_, run, (uf2Unpack_stored_iff run).mpr ?_⟩
  have writes : uf2StreamWrites (fiveBytes 5) targetDirectory false [] =
      [(uf2FileBlock fileX 5 0 0 [1, 2, 3, 4, 5], .success)] := by decide +kernel
  rw [writes]
  intro write listed count short
  rw [List.mem_singleton.mp listed] at short
  cases short

end Ev3duder
