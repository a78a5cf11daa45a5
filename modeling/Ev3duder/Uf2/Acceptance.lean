import Ev3duder.Uf2.Restoration

namespace Ev3duder

open Data Posix

/-! # What packing reports as packed -/

theorem io_negative : ¬ 0 ≤ -Err.io.code := by decide

theorem checked_mirrors {check : Proc Stdio Bool} {next : Proc Stdio Int}
    (head : Proc.Mirrors Stdio.calm (· = true) check) (tail : Proc.Mirrors Stdio.calm (0 ≤ ·) next) :
    Proc.Mirrors Stdio.calm (0 ≤ ·) (do
      let passed ← check
      if passed = false then return -Err.io.code else next) := by
  refine Proc.mirrors_bind head ?_ ?_
  · intro passed yes
    rw [if_neg (by rw [yes]; exact Bool.true_eq_false.mp)]
    exact tail
  · intro passed no
    rw [if_pos (Bool.eq_false_iff.mpr no)]
    exact Proc.returns_pure io_negative

theorem obtained_mirrors {α : Type} {find : Proc Stdio (Option α)} {next : Option α → Proc Stdio Int}
    (head : Proc.Mirrors Stdio.calm (· ≠ none) find) (missing : next none = return -Err.io.code)
    (tail : ∀ value, Proc.Mirrors Stdio.calm (0 ≤ ·) (next (some value))) :
    Proc.Mirrors Stdio.calm (0 ≤ ·) (find >>= next) := by
  refine Proc.mirrors_bind head ?_ ?_
  · intro found some
    cases found with
    | none => exact absurd rfl some
    | some value => exact tail value
  · intro found none
    rw [Classical.not_not.mp none, missing]
    exact Proc.returns_pure io_negative

theorem uf2WriteFileLoop_mirrors (filename : CString) (startBlock : Int) (fileBytes : Nat) (src : Stream)
    (block : Uf2Block) (blks : Int) (done : Nat) :
    Proc.Mirrors Stdio.calm (0 ≤ ·) (uf2WriteFileLoop filename startBlock fileBytes src block blks done) := by
  generalize left : fileBytes - done = count
  induction count using Nat.strongRecOn generalizing src block blks done with
  | ind count ih =>
    have positive := uf2MaxPayload_positive filename
    rw [uf2WriteFileLoop]
    by_cases more : done < fileBytes
    · rw [if_pos more]
      refine Proc.mirrors_bind (fread_mirrors src _) ?_ ?_
      · rintro ⟨chunk, rest⟩ whole
        simp only [ne_eq, whole, not_true_eq_false, if_false]
        exact checked_mirrors (writeDst_mirrors _) (ih _ (by omega) rest _ _ _ rfl)
      · rintro ⟨chunk, rest⟩ short
        simp only [ne_eq, if_pos short]
        exact Proc.returns_pure io_negative
    · rw [if_neg more]
      exact Proc.mirrors_pure _

theorem uf2WriteFile_mirrors (src : Stream) (filename : CString) (startBlock : Int) (fileBytes : Nat) :
    Proc.Mirrors Stdio.calm (0 ≤ ·) (uf2WriteFile src filename startBlock fileBytes) := by
  by_cases large : 2 ^ 31 ≤ fileBytes
  · rw [uf2WriteFile, if_pos large]
    exact Proc.mirrors_of_bad Proc.returns_crash
  · rw [uf2WriteFile, if_neg large]
    exact uf2WriteFileLoop_mirrors _ _ _ _ _ _ _

theorem uf2FixupLoop_mirrors (start : Nat) (blks : UInt32) (blocks : Int) (blk : Nat) :
    Proc.Mirrors Stdio.calm (0 ≤ ·) (uf2FixupLoop start blks blocks blk) := by
  generalize left : blks.toNat - blk = count
  induction count using Nat.strongRecOn generalizing blk with
  | ind count ih =>
    rw [uf2FixupLoop]
    by_cases more : blk < blks.toNat
    · rw [if_pos more]
      exact checked_mirrors (seekDst_mirrors _) (checked_mirrors (writeDst_mirrors _) (ih _ (by omega) _ rfl))
    · rw [if_neg more]
      exact Proc.mirrors_pure _

theorem uf2WriteAllLoop_mirrors (destdir : CString) (start : Nat) (blks : Int) (paths : List CString) :
    Proc.Mirrors Stdio.calm (0 ≤ ·) (uf2WriteAllLoop destdir start blks paths) := by
  induction paths generalizing blks with
  | nil => exact uf2FixupLoop_mirrors _ _ _ _
  | cons path paths ih =>
      rw [uf2WriteAllLoop]
      refine obtained_mirrors (fopen_mirrors path) rfl fun src => ?_
      refine obtained_mirrors (ftell_mirrors src) rfl fun p0 => ?_
      refine obtained_mirrors (fseek_mirrors src _) rfl fun atEnd => ?_
      refine obtained_mirrors (ftell_mirrors atEnd) rfl fun p1 => ?_
      refine obtained_mirrors (fseek_mirrors atEnd p0) rfl fun again => ?_
      refine Proc.mirrors_bind (uf2WriteFile_mirrors _ _ _ _) ?_ ?_
      · intro ret wrote
        rw [if_neg (Int.not_lt.mpr wrote)]
        exact ih _
      · intro ret failed
        rw [if_pos (Int.not_le.mp failed)]
        exact Proc.returns_pure failed

theorem uf2WriteAll_mirrors (destdir : CString) (paths : List CString) :
    Proc.Mirrors Stdio.calm (0 ≤ ·) (uf2WriteAll destdir paths) := by
  have dst : Proc.Mirrors Stdio.calm (fun _ => True) (Proc.gets Stdio.dst) := by
    intro world value after returned _
    cases returned
    rfl
  refine Proc.mirrors_bind dst ?_ fun dst lost => absurd trivial lost
  intro dst _
  exact obtained_mirrors (ftell_mirrors dst) rfl fun start => uf2WriteAllLoop_mirrors _ _ _ _

section Bounds

variable {blks : Int}

theorem uf2WriteFileLoop_bounded (filename : CString) (startBlock : Int) (fileBytes : Nat) (src : Stream)
    (block : Uf2Block) (counted : 0 ≤ blks) (done : Nat) :
    Proc.Returns (-2 ^ 31 ≤ ·) (uf2WriteFileLoop filename startBlock fileBytes src block blks done) := by
  generalize left : fileBytes - done = count
  induction count using Nat.strongRecOn generalizing src block blks done with
  | ind count ih =>
    have positive := uf2MaxPayload_positive filename
    rw [uf2WriteFileLoop]
    by_cases more : done < fileBytes
    · rw [if_pos more]
      refine Proc.returns_any ?_
      rintro ⟨chunk, rest⟩
      dsimp only
      split
      · exact Proc.returns_pure (by decide)
      · refine Proc.returns_any fun written => ?_
        split
        · exact Proc.returns_pure (by decide)
        · exact ih _ (by omega) rest _ (by omega) _ rfl
    · rw [if_neg more]
      exact Proc.returns_pure (Int.le_trans (by decide) counted)

theorem uf2WriteFile_bounded (src : Stream) (filename : CString) (startBlock : Int) (fileBytes : Nat) :
    Proc.Returns (-2 ^ 31 ≤ ·) (uf2WriteFile src filename startBlock fileBytes) := by
  by_cases large : 2 ^ 31 ≤ fileBytes
  · rw [uf2WriteFile, if_pos large]
    exact Proc.returns_crash
  · rw [uf2WriteFile, if_neg large]
    exact uf2WriteFileLoop_bounded _ _ _ _ _ (Int.le_refl 0) _

theorem uf2FixupLoop_bounded (start : Nat) (total : UInt32) {blocks : Int} (bound : -2 ^ 31 ≤ blocks) (blk : Nat) :
    Proc.Returns (-2 ^ 31 ≤ ·) (uf2FixupLoop start total blocks blk) := by
  generalize left : total.toNat - blk = count
  induction count using Nat.strongRecOn generalizing blk with
  | ind count ih =>
    rw [uf2FixupLoop]
    by_cases more : blk < total.toNat
    · rw [if_pos more]
      refine Proc.returns_any fun found => ?_
      split
      · exact Proc.returns_pure (by decide)
      · refine Proc.returns_any fun written => ?_
        split
        · exact Proc.returns_pure (by decide)
        · exact ih _ (by omega) _ rfl
    · rw [if_neg more]
      exact Proc.returns_pure bound

theorem int32_bounded (value : Int) : -2 ^ 31 ≤ int32 value :=
  @Int.le_bmod value (2 ^ 32) (by decide)

theorem obtained_bounded {α : Type} {find : Proc Stdio (Option α)} {next : Option α → Proc Stdio Int}
    (missing : next none = return -Err.io.code) (tail : ∀ value, Proc.Returns (-2 ^ 31 ≤ ·) (next (some value))) :
    Proc.Returns (-2 ^ 31 ≤ ·) (find >>= next) := by
  refine Proc.returns_any fun found => ?_
  cases found with
  | none =>
      rw [missing]
      exact Proc.returns_pure (by decide)
  | some value => exact tail value

theorem uf2WriteAllLoop_bounded (destdir : CString) (start : Nat) (bound : -2 ^ 31 ≤ blks) (paths : List CString) :
    Proc.Returns (-2 ^ 31 ≤ ·) (uf2WriteAllLoop destdir start blks paths) := by
  induction paths generalizing blks with
  | nil => exact uf2FixupLoop_bounded _ _ bound _
  | cons path paths ih =>
      rw [uf2WriteAllLoop]
      refine obtained_bounded rfl fun src => ?_
      refine obtained_bounded rfl fun p0 => ?_
      refine obtained_bounded rfl fun atEnd => ?_
      refine obtained_bounded rfl fun p1 => ?_
      refine obtained_bounded rfl fun again => ?_
      refine Proc.returns_bind (uf2WriteFile_bounded _ _ _ _) fun ret within => ?_
      split
      · exact Proc.returns_pure within
      · exact ih (int32_bounded _)

theorem uf2WriteAll_bounded (destdir : CString) (paths : List CString) :
    Proc.Returns (-2 ^ 31 ≤ ·) (uf2WriteAll destdir paths) :=
  Proc.returns_any fun _ => obtained_bounded rfl fun _ => uf2WriteAllLoop_bounded _ _ (by decide) _

end Bounds

theorem int32_nonzero {blocks : Int} (bound : -2 ^ 31 ≤ blocks) (negative : blocks < 0) :
    int32 (-blocks) ≠ Err.unk.code := by
  intro zero
  have multiple : -blocks % (2 ^ 32 : Nat) = 0 := by
    have low : int32 (-blocks) % (2 ^ 32 : Nat) = -blocks % (2 ^ 32 : Nat) := Int.bmod_emod
    rw [← low, zero]
    rfl
  omega

/-- A run that reports success goes like one in which nothing fails. -/
theorem uf2Pack_calm {brickdir : CString} {paths : List CString} {world after : Stdio} {message : String}
    (returned : uf2Pack brickdir paths world = (some (Err.unk.code, message), after)) :
    ∃ blocks, 0 ≤ blocks ∧ uf2WriteAll (uf2Destdir brickdir) paths world.calm = (some blocks, after.calm) := by
  obtain ⟨blocks, middle, wrote, rest⟩ := Proc.bind_inversion returned
  by_cases negative : blocks < 0
  · rw [if_pos negative, Proc.pure_apply, Prod.mk.injEq, Option.some.injEq, Prod.mk.injEq] at rest
    have bound := uf2WriteAll_bounded _ _ _ _ _ wrote
    exact absurd rest.1.1 (int32_nonzero bound negative)
  · have nonneg := Int.not_lt.mp negative
    rw [if_neg negative, Proc.pure_apply, Prod.mk.injEq] at rest
    rw [← rest.2]
    exact ⟨blocks, nonneg, uf2WriteAll_mirrors _ _ _ _ _ wrote nonneg⟩

/-- Only readable files are packed. -/
theorem uf2WriteAllLoop_packable {files : FileSystem} {destdir : CString} {start : Nat} {paths : List CString}
    (sizes : ∀ path ∈ paths, (uf2Content files path).length < 2 ^ 31) {blks : Int} {archive : Bytes} {blocks : Int}
    {after : Stdio} (success : 0 ≤ blocks)
    (returned : uf2WriteAllLoop destdir start blks paths ⟨files, ⟨archive, archive.length⟩, []⟩ =
      (some blocks, after)) : ∀ path ∈ paths, Packable files path := by
  induction paths generalizing blks archive with
  | nil =>
      intro path member
      cases member
  | cons path paths ih =>
      cases found : files.readFile path with
      | none =>
          have failed : uf2WriteAllLoop destdir start blks (path :: paths) ⟨files, ⟨archive, archive.length⟩, []⟩ =
              (some (-Err.io.code), ⟨files, ⟨archive, archive.length⟩, []⟩) := by
            have opened : fopen path ⟨files, ⟨archive, archive.length⟩, []⟩ =
                (some none, ⟨files, ⟨archive, archive.length⟩, []⟩) := by
              have read : fopen path ⟨files, ⟨archive, archive.length⟩, []⟩ =
                  (some ((files.readFile path).map (⟨·, 0⟩)), ⟨files, ⟨archive, archive.length⟩, []⟩) := rfl
              rw [read, found]
              rfl
            rw [uf2WriteAllLoop]
            exact Proc.bind_returned opened
          rw [failed, Prod.mk.injEq, Option.some.injEq] at returned
          rw [← returned.1] at success
          exact absurd success io_negative
      | some content =>
          have same : uf2Content files path = content := by rw [uf2Content, found]; rfl
          have bound := sizes path List.mem_cons_self
          rw [same] at bound
          rw [uf2WriteAllLoop_path destdir start found bound] at returned
          have rest := ih (fun other member => sizes other (List.mem_cons_of_mem _ member)) returned
          intro other member
          rcases List.mem_cons.mp member with rfl | later
          · exact ⟨content, found, bound⟩
          · exact rest other later

/-- How many blocks `uf2_write_file` reports for a file. -/
def uf2FileCount (files : FileSystem) (destdir path : CString) : Nat :=
  let content := uf2Content files path
  let wrote := uf2WriteFile ⟨content, 0⟩ (uf2ArchiveName destdir path) 0 content.length ⟨files, ⟨[], 0⟩, []⟩
  (wrote.1.getD 0).toNat

theorem uf2FileCount_pieces {files : FileSystem} (destdir : CString) {path : CString}
    (bound : (uf2Content files path).length < 2 ^ 31) :
    uf2FileCount files destdir path = (uf2Pieces files destdir path).length := by
  have wrote := uf2WriteFile_blocks (uf2ArchiveName_short destdir path) 0 bound files []
  rw [List.length_nil] at wrote
  rw [uf2FileCount, wrote]
  rfl

/-- Each input with the blocks written for it: one input after the other. -/
def uf2Shares (files : FileSystem) (destdir : CString) : List CString → List Uf2Block → List (CString × List Uf2Block)
  | [], _ => []
  | path :: paths, blocks =>
      (path, blocks.take (uf2FileCount files destdir path)) ::
        uf2Shares files destdir paths (blocks.drop (uf2FileCount files destdir path))

/-- Unpacking loses nothing: all blocks are accepted, each input has some, and no two inputs share a name. -/
structure Uf2Lossless (files : FileSystem) (destdir : CString) (paths : List CString) (archive : Bytes) : Prop where
  accepted : ∀ block ∈ uf2Blocks archive, block.Accepted
  contributes : ∀ share ∈ uf2Shares files destdir paths (uf2Blocks archive), ∃ block ∈ share.2, block.Accepted
  apart : ∀ first ∈ uf2Shares files destdir paths (uf2Blocks archive),
    ∀ second ∈ uf2Shares files destdir paths (uf2Blocks archive), first.1 ≠ second.1 →
      ∀ block ∈ first.2, ∀ other ∈ second.2, block.name ≠ other.name

section Shares

variable {files : FileSystem} {destdir : CString}

theorem shares_member {paths : List CString} (sizes : ∀ path ∈ paths, (uf2Content files path).length < 2 ^ 31)
    {blks : Int} {blocks : List Uf2Block}
    (packed : blocks.map (·.counted 0) = uf2ArchiveBlocks files destdir blks paths) {share : CString × List Uf2Block}
    (member : share ∈ uf2Shares files destdir paths blocks) :
    share.1 ∈ paths ∧ share.2 ⊆ blocks ∧ ∃ number, share.2.map (·.counted 0) =
      uf2FileBlocks (uf2ArchiveName destdir share.1) (uf2Content files share.1).length number 0
        (uf2Pieces files destdir share.1) := by
  induction paths generalizing blks blocks with
  | nil => cases member
  | cons path paths ih =>
      have count := uf2FileCount_pieces destdir (sizes path List.mem_cons_self)
      have length := uf2FileBlocks_length (uf2ArchiveName destdir path) (uf2Content files path).length blks 0
        (uf2Pieces files destdir path)
      rw [uf2ArchiveBlocks] at packed
      rcases List.mem_cons.mp member with rfl | later
      · refine ⟨List.mem_cons_self, List.take_subset _ _, blks, ?_⟩
        rw [List.map_take, packed, count]
        exact List.take_left' length
      · have rest : (blocks.drop (uf2FileCount files destdir path)).map (·.counted 0) =
            uf2ArchiveBlocks files destdir (int32 (blks + (uf2Pieces files destdir path).length)) paths := by
          rw [List.map_drop, packed, count]
          exact List.drop_left' length
        obtain ⟨listed, within, number, same⟩ := ih (fun other found => sizes other (List.mem_cons_of_mem _ found)) rest
          later
        exact ⟨List.mem_cons_of_mem _ listed, fun block found => List.drop_subset _ _ (within found), number, same⟩

theorem shares_cover {paths : List CString} {path : CString} (listed : path ∈ paths) (blocks : List Uf2Block) :
    ∃ share ∈ uf2Shares files destdir paths blocks, share.1 = path := by
  induction paths generalizing blocks with
  | nil => cases listed
  | cons other paths ih =>
      rcases List.mem_cons.mp listed with rfl | later
      · exact ⟨_, List.mem_cons_self, rfl⟩
      · obtain ⟨share, member, same⟩ := ih later (blocks.drop (uf2FileCount files destdir other))
        exact ⟨share, List.mem_cons_of_mem _ member, same⟩

theorem share_block {share : CString × List Uf2Block} {number : Int}
    (same : share.2.map (·.counted 0) =
      uf2FileBlocks (uf2ArchiveName destdir share.1) (uf2Content files share.1).length number 0
        (uf2Pieces files destdir share.1)) {block : Uf2Block} (member : block ∈ share.2) :
    ∃ index, ∃ patch ∈ uf2Slices files destdir share.1,
      block.counted 0 = uf2PathBlock files destdir share.1 index patch := by
  have packed : block.counted 0 ∈ share.2.map (·.counted 0) := List.mem_map_of_mem member
  rw [same] at packed
  exact fileBlocks_member packed

theorem counted_name (block : Uf2Block) (count : UInt32) : (block.counted count).name = block.name := rfl

theorem pathBlock_size {path : CString} (bound : (uf2Content files path).length < 2 ^ 31) {number : Int}
    {patch : Patch} : (uf2PathBlock files destdir path number patch).fileSize.toNat = (uf2Content files path).length :=
  UInt32.toNat_ofNat_of_lt' (by simp only [UInt32.size]; omega)

/-- The name of a file as far as the archive holds it behind the directory. -/
def uf2CutName (destdir path : CString) : Bytes :=
  (uf2Basename path false).bytes.take (uf2FilenameMax - 1 - destdir.bytes.length)

theorem archiveName_same {first second : CString} :
    uf2ArchiveName destdir first = uf2ArchiveName destdir second ↔
      uf2CutName destdir first = uf2CutName destdir second := by
  have shape : ∀ path, (uf2ArchiveName destdir path).bytes = destdir.bytes.take uf2FilenameMax ++
      (slash :: (uf2Basename path false).bytes).take (uf2FilenameMax - destdir.bytes.length) := by
    intro path
    have whole : (destdir ++ separator ++ uf2Basename path false).bytes =
        destdir.bytes ++ slash :: (uf2Basename path false).bytes := by
      simp [separator]
    rw [uf2ArchiveName, CString.take_bytes, whole, List.take_append]
  have names : uf2ArchiveName destdir first = uf2ArchiveName destdir second ↔
      (uf2ArchiveName destdir first).bytes = (uf2ArchiveName destdir second).bytes :=
    ⟨congrArg CString.bytes, CString.ext⟩
  rw [names, shape, shape, List.append_cancel_left_eq, uf2CutName, uf2CutName]
  cases room : uf2FilenameMax - destdir.bytes.length with
  | zero =>
      have none : uf2FilenameMax - 1 - destdir.bytes.length = 0 := by omega
      rw [none]
      exact ⟨fun _ => rfl, fun _ => rfl⟩
  | succ rest =>
      have left : uf2FilenameMax - 1 - destdir.bytes.length = rest := by omega
      rw [left, List.take_succ_cons, List.take_succ_cons, List.cons.injEq]
      exact ⟨fun same => same.2, fun same => ⟨rfl, same⟩⟩

/-- Inputs that an archive can hold: no empty files, none of more than 64 MiB, and no two of the same name. -/
structure Uf2Holds (files : FileSystem) (destdir : CString) (paths : List CString) : Prop where
  nonempty : ∀ path ∈ paths, uf2Content files path ≠ []
  small : ∀ path ∈ paths, (uf2Content files path).length ≤ uf2FileMax
  apart : ∀ first ∈ paths, ∀ second ∈ paths, first ≠ second →
    uf2CutName destdir first ≠ uf2CutName destdir second

variable {paths : List CString} {blocks : List Uf2Block}

theorem lossless_of_holds (holds : Uf2Holds files destdir paths)
    (packed : blocks.map (·.counted 0) = uf2ArchiveBlocks files destdir 0 paths) :
    Uf2Lossless files destdir paths (blocks.flatMap Uf2Block.bytes) := by
  have sizes : ∀ path ∈ paths, (uf2Content files path).length < 2 ^ 31 := by
    intro path listed
    have small := holds.small path listed
    simp only [uf2FileMax] at small
    omega
  have accepted : ∀ block ∈ blocks, block.Accepted := by
    intro block member
    have archived : block.counted 0 ∈ uf2ArchiveBlocks files destdir 0 paths :=
      packed ▸ List.mem_map_of_mem member
    obtain ⟨path, listed, number, patch, slice, same⟩ := archive_member archived
    rw [← counted_accepted block 0, same]
    exact (slice_block (holds.small path listed) slice).accepted
  have named : ∀ share ∈ uf2Shares files destdir paths blocks, ∀ block ∈ share.2,
      share.1 ∈ paths ∧ block.name = uf2ArchiveName destdir share.1 := by
    intro share member block own
    obtain ⟨listed, _, number, same⟩ := shares_member sizes packed member
    obtain ⟨index, patch, slice, block_same⟩ := share_block same own
    refine ⟨listed, ?_⟩
    rw [← counted_name block 0, block_same]
    exact (slice_block (holds.small share.1 listed) slice).block_name
  constructor
  · rw [uf2Blocks_bytes]
    exact accepted
  · rw [uf2Blocks_bytes]
    intro share member
    obtain ⟨listed, within, number, same⟩ := shares_member sizes packed member
    have inside := List.length_pos_iff.mpr (holds.nonempty share.1 listed)
    obtain ⟨patch, slice, _⟩ := slice_covers files destdir inside
    obtain ⟨index, found⟩ := fileBlocks_of_laid (uf2ArchiveName destdir share.1) number slice
    rw [← same] at found
    obtain ⟨block, own, _⟩ := List.mem_map.mp found
    exact ⟨block, own, accepted block (within own)⟩
  · rw [uf2Blocks_bytes]
    intro first firstMember second secondMember differ block own other others alike
    obtain ⟨firstListed, firstNamed⟩ := named first firstMember block own
    obtain ⟨secondListed, secondNamed⟩ := named second secondMember other others
    rw [firstNamed, secondNamed, archiveName_same] at alike
    exact holds.apart first.1 firstListed second.1 secondListed differ alike

theorem holds_of_lossless (sizes : ∀ path ∈ paths, (uf2Content files path).length < 2 ^ 31)
    (packed : blocks.map (·.counted 0) = uf2ArchiveBlocks files destdir 0 paths)
    (lossless : Uf2Lossless files destdir paths (blocks.flatMap Uf2Block.bytes)) :
    Uf2Holds files destdir paths := by
  obtain ⟨_, contributes, apart⟩ := lossless
  rw [uf2Blocks_bytes] at contributes apart
  -- An accepted block of an input tells that it is small, and carries its name.
  have block : ∀ path ∈ paths, ∃ share ∈ uf2Shares files destdir paths blocks, share.1 = path ∧
      (uf2Content files path).length ≤ uf2FileMax ∧ uf2Content files path ≠ [] ∧
      ∃ block ∈ share.2, block.name = uf2ArchiveName destdir path := by
    intro path listed
    obtain ⟨share, member, rfl⟩ := shares_cover listed blocks
    obtain ⟨_, _, number, same⟩ := shares_member sizes packed member
    obtain ⟨block, own, accepted⟩ := contributes share member
    obtain ⟨index, patch, slice, block_same⟩ := share_block same own
    rw [← counted_accepted block 0, block_same] at accepted
    have small := accepted.size
    rw [pathBlock_size (sizes share.1 listed)] at small
    have fits := slice_block small slice
    refine ⟨share, member, rfl, small, ?_, block, own, ?_⟩
    · exact List.length_pos_iff.mp (Nat.lt_of_le_of_lt (Nat.zero_le _) fits.inside)
    · rw [← counted_name block 0, block_same]
      exact fits.block_name
  refine ⟨?_, ?_, ?_⟩
  · intro path listed
    obtain ⟨_, _, _, _, nonempty, _⟩ := block path listed
    exact nonempty
  · intro path listed
    obtain ⟨_, _, _, small, _⟩ := block path listed
    exact small
  · intro first firstListed second secondListed differ alike
    obtain ⟨share, member, rfl, _, _, own, owned, ownName⟩ := block first firstListed
    obtain ⟨other, otherMember, rfl, _, _, others, theirs, otherName⟩ := block second secondListed
    refine apart share member other otherMember differ own owned others theirs ?_
    rw [ownName, otherName]
    exact archiveName_same.mpr alike

end Shares

/-- Whatever the calls answer: success is reported for an archive that loses something unless the inputs fit. -/
theorem uf2Pack_lossless_iff {files : FileSystem} {brickdir : CString} {paths : List CString}
    (sizes : ∀ path ∈ paths, (uf2Content files path).length < 2 ^ 31) {answers : List Answer} {message : String}
    {after : Stdio}
    (returned : uf2Pack brickdir paths ⟨files, ⟨[], 0⟩, answers⟩ = (some (Err.unk.code, message), after)) :
    Uf2Lossless files (uf2Destdir brickdir) paths after.dst.content ↔
      Uf2Holds files (uf2Destdir brickdir) paths := by
  obtain ⟨blocks, nonneg, wrote⟩ := uf2Pack_calm returned
  have loop : uf2WriteAllLoop (uf2Destdir brickdir) 0 0 paths ⟨files, ⟨[], ([] : Bytes).length⟩, []⟩ =
      (some blocks, after.calm) := wrote
  have packable := uf2WriteAllLoop_packable sizes nonneg loop
  obtain ⟨last, archive⟩ := uf2WriteAll_blocks (uf2Destdir brickdir) packable
  have same := wrote.symm.trans archive
  rw [Prod.mk.injEq] at same
  have content : after.dst.content = (uf2PackedBlocks files (uf2Destdir brickdir) paths).flatMap Uf2Block.bytes :=
    congrArg (fun world : Stdio => world.dst.content) same.2
  have packed := packed_archive files (uf2Destdir brickdir) paths
  rw [content]
  exact ⟨holds_of_lossless sizes packed, fun holds => lossless_of_holds holds packed⟩

theorem uf2Pack_success {files : FileSystem} {brickdir : CString} {paths : List CString}
    (packable : ∀ path ∈ paths, Packable files path) (total : 0 ≤ uf2Total files (uf2Destdir brickdir) 0 paths) :
    ∃ after, uf2Pack brickdir paths ⟨files, ⟨[], 0⟩, []⟩ =
        (some (Err.unk.code, "`uf2 pack` was successful."), after) ∧
      after.dst.content = (uf2PackedBlocks files (uf2Destdir brickdir) paths).flatMap Uf2Block.bytes := by
  obtain ⟨last, run⟩ := uf2Pack_blocks brickdir packable
  rw [if_neg (Int.not_lt.mpr total)] at run
  exact ⟨_, run, rfl⟩

def directoryE : CString := cstr [0x65]

def pathA : CString := cstr [0x61]

def pathEA : CString := cstr [0x65, 0x2F, 0x61]

def pathZ : CString := cstr [0x7A]

/-- The files `a`, `e/a` and `z`, the last of which is empty. -/
def packedFiles : FileSystem where
  nodes location :=
    if location = [[0x61]] then some (.file [1, 2, 3])
    else if location = [[0x65]] then some .directory
    else if location = [[0x65], [0x61]] then some (.file [4])
    else if location = [[0x7A]] then some (.file [])
    else none
  cwd := []

theorem packedFiles_packable : ∀ path ∈ [pathA, pathEA, pathZ], Packable packedFiles path := by
  intro path listed
  simp only [List.mem_cons, List.not_mem_nil, or_false] at listed
  rcases listed with rfl | rfl | rfl
  · exact ⟨[1, 2, 3], by decide, by decide⟩
  · exact ⟨[4], by decide, by decide⟩
  · exact ⟨[], by decide, by decide⟩

theorem packedFiles_sizes : ∀ path ∈ [pathA, pathEA, pathZ], (uf2Content packedFiles path).length < 2 ^ 31 := by
  decide

theorem packedFiles_lost {paths : List CString} (listed : paths ⊆ [pathA, pathEA, pathZ])
    (total : 0 ≤ uf2Total packedFiles (uf2Destdir directoryE) 0 paths)
    (unfit : ¬ Uf2Holds packedFiles (uf2Destdir directoryE) paths) :
    ∃ after, uf2Pack directoryE paths ⟨packedFiles, ⟨[], 0⟩, []⟩ =
        (some (Err.unk.code, "`uf2 pack` was successful."), after) ∧
      ¬ Uf2Lossless packedFiles (uf2Destdir directoryE) paths after.dst.content := by
  obtain ⟨after, run, content⟩ :=
    uf2Pack_success (fun path member => packedFiles_packable path (listed member)) total
  refine ⟨after, run, fun lossless => unfit ?_⟩
  rw [content] at lossless
  exact holds_of_lossless (fun path member => packedFiles_sizes path (listed member))
    (packed_archive packedFiles (uf2Destdir directoryE) paths) lossless

/-- Packing an empty file, or two files of one name, is reported as a success. -/
theorem uf2Pack_loses_files :
    (∃ after, uf2Pack directoryE [pathA, pathZ] ⟨packedFiles, ⟨[], 0⟩, []⟩ =
        (some (Err.unk.code, "`uf2 pack` was successful."), after) ∧
      ¬ Uf2Lossless packedFiles (uf2Destdir directoryE) [pathA, pathZ] after.dst.content) ∧
    ∃ after, uf2Pack directoryE [pathA, pathEA] ⟨packedFiles, ⟨[], 0⟩, []⟩ =
        (some (Err.unk.code, "`uf2 pack` was successful."), after) ∧
      ¬ Uf2Lossless packedFiles (uf2Destdir directoryE) [pathA, pathEA] after.dst.content := by
  refine ⟨packedFiles_lost (by decide) (by decide +kernel) fun holds => ?_,
    packedFiles_lost (by decide) (by decide +kernel) fun holds => ?_⟩
  · exact holds.nonempty pathZ (by decide) (by decide)
  · exact holds.apart pathA (by decide) pathEA (by decide) (by decide) (by decide)

theorem uf2Pack_lossless_iff_two : ∃ after,
    uf2Pack directoryE [cstr [0x61], cstr [0x62]] ⟨cutFiles, ⟨[], 0⟩, []⟩ =
        (some (Err.unk.code, "`uf2 pack` was successful."), after) ∧
      Uf2Lossless cutFiles (uf2Destdir directoryE) [cstr [0x61], cstr [0x62]] after.dst.content := by
  have total : 0 ≤ uf2Total cutFiles (uf2Destdir directoryE) 0 [cstr [0x61], cstr [0x62]] := by decide +kernel
  obtain ⟨after, run, _⟩ := uf2Pack_success cutFiles_packable total
  have sizes : ∀ path ∈ [cstr [0x61], cstr [0x62]], (uf2Content cutFiles path).length < 2 ^ 31 := by decide +kernel
  have holds : Uf2Holds cutFiles (uf2Destdir directoryE) [cstr [0x61], cstr [0x62]] :=
    ⟨by decide +kernel, by decide +kernel, by decide⟩
  exact ⟨after, run, (uf2Pack_lossless_iff sizes run).mpr holds⟩

end Ev3duder
