import Ev3duder.Uf2.Archive
import Ev3duder.Uf2.Extraction

namespace Ev3duder

open Data Posix

/-! # Unpacking what was packed -/

section Block

variable {name : CString} {piece : Bytes}

theorem uf2Data_split (fits : piece.length + name.bytes.length < uf2DataSize) :
    uf2Data piece name =
      piece ++ (name.bytes ++ 0 :: List.replicate (uf2DataSize - (piece.length + name.bytes.length) - 1) 0) := by
  have short : (piece ++ name.bytes).length ≤ uf2DataSize := by
    rw [List.length_append]
    exact Nat.le_of_lt fits
  rw [uf2Data, padded, List.take_of_length_le short, List.length_append, List.append_assoc]
  generalize spare : uf2DataSize - (piece.length + name.bytes.length) = zeros
  cases zeros with
  | zero => omega
  | succ zeros => rw [List.replicate_succ, Nat.add_sub_cancel]

theorem uf2Data_terminated (fits : piece.length + name.bytes.length < uf2DataSize) :
    (uf2Data piece name).set 475 0 = uf2Data piece name := by
  apply List.ext_getElem?
  intro index
  rw [List.getElem?_set]
  by_cases last : 475 = index
  · have outside : (piece ++ name.bytes)[475]? = none := by
      rw [List.getElem?_eq_none]
      simp only [List.length_append]
      exact Nat.le_of_lt_succ fits
    rw [if_pos last, ← last, uf2Data, padded_getElem?, padded_length, outside]
    rfl
  · rw [if_neg last]

variable {size : Nat} {number : Int} {offset : Nat}

/-- The sizes and offsets of a block fit into its 32-bit fields. -/
structure Uf2Fits (name : CString) (size offset : Nat) (piece : Bytes) : Prop where
  short : name.bytes.length ≤ uf2FilenameMax
  cut : piece.length ≤ uf2MaxPayload name
  small : size ≤ uf2FileMax
  inside : offset < size

theorem Uf2Fits.room (fits : Uf2Fits name size offset piece) : piece.length + name.bytes.length < uf2DataSize :=
  Nat.lt_of_le_of_lt (Nat.add_le_add_right fits.cut _) (uf2MaxPayload_fits fits.short)

theorem Uf2Fits.payload (fits : Uf2Fits name size offset piece) : piece.length ≤ uf2PayloadMax :=
  Nat.le_trans fits.cut (Nat.min_le_right _ _)

theorem Uf2Fits.dataBytes (fits : Uf2Fits name size offset piece) :
    (uf2FileBlock name size number offset piece).dataBytes.toNat = piece.length := by
  have bound := fits.payload
  simp only [uf2PayloadMax] at bound
  exact UInt32.toNat_ofNat_of_lt' (by simp only [UInt32.size]; omega)

theorem Uf2Fits.fileSize (fits : Uf2Fits name size offset piece) :
    (uf2FileBlock name size number offset piece).fileSize.toNat = size := by
  have bound := fits.small
  simp only [uf2FileMax] at bound
  exact UInt32.toNat_ofNat_of_lt' (by simp only [UInt32.size]; omega)

theorem Uf2Fits.fileOffset (fits : Uf2Fits name size offset piece) :
    (uf2FileBlock name size number offset piece).fileOffset.toNat = offset := by
  have bound := fits.small
  have before := fits.inside
  simp only [uf2FileMax] at bound
  exact UInt32.toNat_ofNat_of_lt' (by simp only [UInt32.size]; omega)

theorem Uf2Fits.block_name (fits : Uf2Fits name size offset piece) :
    (uf2FileBlock name size number offset piece).name = name := by
  have data : (uf2FileBlock name size number offset piece).data = uf2Data piece name := rfl
  rw [Uf2Block.name, fits.dataBytes, data, uf2Data_terminated fits.room, uf2Data_split fits.room, List.drop_left,
    cstr_terminated]

theorem Uf2Fits.block_patch (fits : Uf2Fits name size offset piece) :
    (uf2FileBlock name size number offset piece).patch = ⟨size, offset, piece⟩ := by
  have data : (uf2FileBlock name size number offset piece).data = uf2Data piece name := rfl
  rw [Uf2Block.patch, uf2Patch, fits.dataBytes, fits.fileSize, fits.fileOffset, data, uf2Data_terminated fits.room,
    uf2Data_split fits.room, List.take_left]

theorem Uf2Fits.accepted (fits : Uf2Fits name size offset piece) :
    (uf2FileBlock name size number offset piece).Accepted where
  magic1 := rfl
  magic2 := rfl
  magic3 := rfl
  kept := show uf2FlagFile &&& uf2FlagIgnore = 0 by decide
  file := show uf2FlagFile &&& uf2FlagFile ≠ 0 by decide
  payload := by rw [fits.dataBytes]; exact fits.payload
  size := by rw [fits.fileSize]; exact fits.small
  offset := by rw [UInt32.lt_iff_toNat_lt, fits.fileSize, fits.fileOffset]; exact fits.inside
  name := by rw [fits.block_name]; exact fits.short

end Block

/-- The block count plays no part in unpacking. -/
@[simp] theorem counted_accepted (block : Uf2Block) (count : UInt32) :
    (block.counted count).Accepted ↔ block.Accepted :=
  ⟨fun ok => ⟨ok.magic1, ok.magic2, ok.magic3, ok.kept, ok.file, ok.payload, ok.size, ok.offset, ok.name⟩,
    fun ok => ⟨ok.magic1, ok.magic2, ok.magic3, ok.kept, ok.file, ok.payload, ok.size, ok.offset, ok.name⟩⟩

@[simp] theorem counted_path (block : Uf2Block) (count : UInt32) (dstdir : CString) (usePaths : Bool) :
    (block.counted count).path dstdir usePaths = block.path dstdir usePaths := rfl

@[simp] theorem counted_patch (block : Uf2Block) (count : UInt32) : (block.counted count).patch = block.patch := rfl

theorem fileBlocks_member {name : CString} {size : Nat} {number : Int} {offset : Nat} {pieces : List Bytes}
    {block : Uf2Block} (member : block ∈ uf2FileBlocks name size number offset pieces) :
    ∃ number, ∃ patch ∈ laid size offset pieces, block = uf2FileBlock name size number patch.offset patch.slice := by
  induction pieces generalizing number offset with
  | nil => cases member
  | cons piece pieces ih =>
      rcases List.mem_cons.mp member with rfl | member
      · exact ⟨number, _, List.mem_cons_self, rfl⟩
      · obtain ⟨number, patch, found, same⟩ := ih member
        exact ⟨number, patch, List.mem_cons_of_mem _ found, same⟩

theorem fileBlocks_of_laid (name : CString) {size : Nat} (number : Int) {offset : Nat} {pieces : List Bytes}
    {patch : Patch} (member : patch ∈ laid size offset pieces) :
    ∃ index, uf2FileBlock name size index patch.offset patch.slice ∈ uf2FileBlocks name size number offset pieces := by
  induction pieces generalizing number offset with
  | nil => cases member
  | cons piece pieces ih =>
      rcases List.mem_cons.mp member with rfl | member
      · exact ⟨number, List.mem_cons_self⟩
      · obtain ⟨index, found⟩ := ih (number + 1) member
        exact ⟨index, List.mem_cons_of_mem _ found⟩

section Archive

variable {files : FileSystem} {destdir : CString}

def uf2Slices (files : FileSystem) (destdir path : CString) : List Patch :=
  laid (uf2Content files path).length 0 (uf2Pieces files destdir path)

def uf2PathBlock (files : FileSystem) (destdir path : CString) (number : Int) (patch : Patch) : Uf2Block :=
  uf2FileBlock (uf2ArchiveName destdir path) (uf2Content files path).length number patch.offset patch.slice

theorem archive_member {blks : Int} {paths : List CString} {block : Uf2Block}
    (member : block ∈ uf2ArchiveBlocks files destdir blks paths) :
    ∃ path ∈ paths, ∃ number, ∃ patch ∈ uf2Slices files destdir path,
      block = uf2PathBlock files destdir path number patch := by
  induction paths generalizing blks with
  | nil => cases member
  | cons path paths ih =>
      rcases List.mem_append.mp member with here | later
      · obtain ⟨number, patch, found, same⟩ := fileBlocks_member here
        exact ⟨path, List.mem_cons_self, number, patch, found, same⟩
      · obtain ⟨other, member, rest⟩ := ih later
        exact ⟨other, List.mem_cons_of_mem _ member, rest⟩

theorem archive_uncounted (files : FileSystem) (destdir : CString) (blks : Int) (paths : List CString) :
    (uf2ArchiveBlocks files destdir blks paths).map (·.counted 0) = uf2ArchiveBlocks files destdir blks paths := by
  have same : ∀ block ∈ uf2ArchiveBlocks files destdir blks paths, block.counted 0 = id block := by
    intro block member
    obtain ⟨path, _, number, patch, _, rfl⟩ := archive_member member
    rfl
  rw [List.map_congr_left same, List.map_id]

theorem packed_archive (files : FileSystem) (destdir : CString) (paths : List CString) :
    (uf2PackedBlocks files destdir paths).map (·.counted 0) = uf2ArchiveBlocks files destdir 0 paths :=
  (uf2PackedBlocks_same files destdir paths).trans (archive_uncounted files destdir 0 paths)

theorem archive_of_slice (blks : Int) {paths : List CString} {path : CString} (member : path ∈ paths) {patch : Patch}
    (slice : patch ∈ uf2Slices files destdir path) :
    ∃ number, uf2PathBlock files destdir path number patch ∈ uf2ArchiveBlocks files destdir blks paths := by
  induction paths generalizing blks with
  | nil => cases member
  | cons other paths ih =>
      rcases List.mem_cons.mp member with rfl | member
      · obtain ⟨number, found⟩ := fileBlocks_of_laid (uf2ArchiveName destdir path) blks slice
        exact ⟨number, List.mem_append_left _ found⟩
      · obtain ⟨number, found⟩ := ih (int32 (blks + (uf2Pieces files destdir other).length)) member
        exact ⟨number, List.mem_append_right _ found⟩

theorem pieces_flatten (files : FileSystem) (destdir path : CString) :
    (uf2Pieces files destdir path).flatten = uf2Content files path :=
  chunks_flatten (uf2MaxPayload_positive _) _

theorem slice_fits {path : CString} {patch : Patch} (slice : patch ∈ uf2Slices files destdir path) :
    patch.Fits (uf2Content files path) := by
  have whole := pieces_flatten files destdir path
  have fits : patch.Fits ([] ++ (uf2Pieces files destdir path).flatten) :=
    laid_fits [] (uf2Pieces files destdir path) (by rw [List.nil_append, whole]; exact slice)
  rwa [List.nil_append, whole] at fits

theorem slice_covers (files : FileSystem) (destdir : CString) {path : CString} {index : Nat}
    (inside : index < (uf2Content files path).length) :
    ∃ patch ∈ uf2Slices files destdir path, patch.Covers index :=
  laid_covers _ (Nat.zero_le _) (by rw [pieces_flatten, Nat.zero_add]; exact inside)

theorem laid_member {size offset : Nat} {pieces : List Bytes} {patch : Patch}
    (member : patch ∈ laid size offset pieces) :
    patch.slice ∈ pieces ∧ patch.size = size := by
  induction pieces generalizing offset with
  | nil => cases member
  | cons piece pieces ih =>
      rcases List.mem_cons.mp member with rfl | member
      · exact ⟨List.mem_cons_self, rfl⟩
      · exact ⟨List.mem_cons_of_mem _ (ih member).1, (ih member).2⟩

theorem slice_block {path : CString} (small : (uf2Content files path).length ≤ uf2FileMax) {patch : Patch}
    (slice : patch ∈ uf2Slices files destdir path) :
    Uf2Fits (uf2ArchiveName destdir path) (uf2Content files path).length patch.offset patch.slice := by
  have length := chunks_block_length (uf2MaxPayload_positive _) (laid_member slice).1
  have within := (slice_fits slice).within
  exact ⟨uf2ArchiveName_short destdir path, length.2, small, by omega⟩

end Archive

/-- Where a packed file is unpacked to. -/
def uf2Destination (destdir dstdir : CString) (usePaths : Bool) (path : CString) : CString :=
  uf2Map uf2RealnameSize dstdir (uf2ArchiveName destdir path) usePaths

/-- A nonempty regular file of at most 64 MiB. -/
structure Uf2Input (files : FileSystem) (path : CString) : Prop where
  found : files.readFile path = some (uf2Content files path)
  nonempty : uf2Content files path ≠ []
  small : (uf2Content files path).length ≤ uf2FileMax

theorem Uf2Input.packable {files : FileSystem} {path : CString} (input : Uf2Input files path) :
    Packable files path := by
  have small := input.small
  simp only [uf2FileMax] at small
  exact ⟨_, input.found, by omega⟩

/-- The accepted blocks are those of the archive, all of them, in any order and number. -/
structure Shuffles (blocks archive : List Uf2Block) : Prop where
  sound : ∀ block ∈ blocks, block.Accepted → block.counted 0 ∈ archive
  complete : ∀ block ∈ archive, ∃ other ∈ blocks, other.counted 0 = block

section Restores

variable {files : FileSystem} {destdir dstdir : CString} {usePaths : Bool} {paths : List CString} {blks : Int}
  {blocks : List Uf2Block} {tail : Bytes} {kernel after : Kernel}

theorem accepted_slice (inputs : ∀ path ∈ paths, Uf2Input files path)
    (shuffles : Shuffles blocks (uf2ArchiveBlocks files destdir blks paths)) {block : Uf2Block}
    (member : block ∈ blocks) (accepted : block.Accepted) :
    ∃ path ∈ paths, ∃ patch ∈ uf2Slices files destdir path,
      block.path dstdir usePaths = uf2Destination destdir dstdir usePaths path ∧ block.patch = patch := by
  obtain ⟨path, listed, number, patch, slice, same⟩ := archive_member (shuffles.sound block member accepted)
  have fits := slice_block (inputs path listed).small slice
  refine ⟨path, listed, patch, slice, ?_, ?_⟩
  · rw [← counted_path block 0, same, Uf2Block.path, uf2PathBlock, fits.block_name]
    rfl
  · rw [← counted_patch block 0, same, uf2PathBlock, fits.block_patch, ← (laid_member slice).2]

theorem slice_accepted (dstdir : CString) (usePaths : Bool) (inputs : ∀ path ∈ paths, Uf2Input files path)
    (shuffles : Shuffles blocks (uf2ArchiveBlocks files destdir blks paths)) {path : CString} (listed : path ∈ paths)
    {patch : Patch} (slice : patch ∈ uf2Slices files destdir path) :
    ∃ block ∈ blocks, block.Accepted ∧ block.path dstdir usePaths = uf2Destination destdir dstdir usePaths path ∧
      block.patch = patch := by
  obtain ⟨number, member⟩ := archive_of_slice blks listed slice
  obtain ⟨block, found, same⟩ := shuffles.complete _ member
  have fits := slice_block (inputs path listed).small slice
  refine ⟨block, found, ?_, ?_, ?_⟩
  · rw [← counted_accepted block 0, same]
    exact fits.accepted
  · rw [← counted_path block 0, same, Uf2Block.path, uf2PathBlock, fits.block_name]
    rfl
  · rw [← counted_patch block 0, same, uf2PathBlock, fits.block_patch, ← (laid_member slice).2]

/-- What an extraction leaves behind: every destination file has the packed content, all other files are as before. -/
structure Restored (files : FileSystem) (destination : CString → CString) (paths : List CString)
    (old new : FileSystem) : Prop where
  grown : old.Extends new
  located : ∀ path ∈ paths, ∃ location, new.locate (destination path) = .ok location ∧
    new.contents location = some (uf2Content files path)
  untouched : ∀ location, (∀ path ∈ paths, new.locate (destination path) ≠ .ok location) →
    new.contents location = old.contents location

theorem unpack_restores (inputs : ∀ path ∈ paths, Uf2Input files path)
    (shuffles : Shuffles blocks (uf2ArchiveBlocks files destdir blks paths)) (short : tail.length < uf2BlockSize)
    (quiet : kernel.answers = [])
    (returned : uf2UnpackLoop dstdir usePaths (blocks.flatMap Uf2Block.bytes ++ tail) kernel = (some .unk, after))
    (distinct : ∀ first ∈ paths, ∀ second ∈ paths, ∀ location,
      after.files.locate (uf2Destination destdir dstdir usePaths first) = .ok location →
      after.files.locate (uf2Destination destdir dstdir usePaths second) = .ok location → first = second) :
    Restored files (uf2Destination destdir dstdir usePaths) paths kernel.files after.files := by
  obtain ⟨grown, places, contents⟩ := uf2UnpackLoop_edits short quiet returned
  have editOf : ∀ keyed ∈ uf2Edits dstdir usePaths after.files blocks, ∃ path ∈ paths,
      ∃ patch ∈ uf2Slices files destdir path,
        after.files.locate (uf2Destination destdir dstdir usePaths path) = .ok keyed.1 ∧ keyed.2 = patch := by
    intro keyed member
    obtain ⟨block, kept, rfl⟩ := List.mem_map.mp member
    obtain ⟨kept, accepted⟩ := List.mem_filter.mp kept
    have accepted : block.Accepted := by simpa using accepted
    obtain ⟨path, listed, patch, slice, same, patched⟩ := accepted_slice inputs shuffles kept accepted
    obtain ⟨location, located⟩ := places block kept accepted
    refine ⟨path, listed, patch, slice, ?_, patched⟩
    rw [FileSystem.place_eq located, ← same]
    exact located
  refine ⟨grown, ?_, ?_⟩
  · intro path listed
    have nonempty := (inputs path listed).nonempty
    obtain ⟨first, slice, _⟩ := slice_covers files destdir (List.length_pos_iff.mpr nonempty)
    obtain ⟨block, member, accepted, same, _⟩ := slice_accepted dstdir usePaths inputs shuffles
      listed slice
    obtain ⟨location, located⟩ := places block member accepted
    rw [same] at located
    refine ⟨location, located, ?_⟩
    rw [contents]
    refine editAll_restores nonempty ?_ ?_ _
    · intro keyed edited own
      obtain ⟨other, otherListed, patch, slice, otherLocated, patched⟩ := editOf keyed edited
      rw [own] at otherLocated
      rw [distinct path listed other otherListed location located otherLocated, patched]
      exact slice_fits slice
    · intro index inside
      obtain ⟨patch, slice, covers⟩ := slice_covers files destdir inside
      obtain ⟨block, member, accepted, same, patched⟩ := slice_accepted dstdir usePaths inputs
        shuffles listed slice
      refine ⟨(after.files.place (block.path dstdir usePaths), block.patch), ?_, ?_, ?_⟩
      · exact List.mem_map.mpr ⟨block, List.mem_filter.mpr ⟨member, by simpa using accepted⟩, rfl⟩
      · rw [same]
        exact FileSystem.place_eq located
      · rw [patched]
        exact covers
  · intro location elsewhere
    rw [contents]
    refine editAll_untouched ?_ _
    intro keyed edited same
    obtain ⟨path, listed, _, _, located, _⟩ := editOf keyed edited
    exact elsewhere path listed (same ▸ located)

end Restores

end Ev3duder
