import Ev3duder.Uf2.Pack

namespace Ev3duder

open Data Posix

/-! # The blocks that packing writes -/

def uf2Data (piece : Bytes) (name : CString) : Bytes := padded uf2DataSize (piece ++ name.bytes)

theorem uf2Fill_eq {data piece name : Bytes} (sized : data.length = uf2DataSize)
    (fits : piece.length + name.length ≤ uf2DataSize) :
    uf2Fill data piece name = piece ++ name ++ List.replicate (uf2DataSize - (piece.length + name.length)) 0 := by
  have first : overlay data 0 piece = piece ++ data.drop piece.length := by
    rw [overlay, Nat.zero_add]
    simp [padded]
  have second : overlay (piece ++ data.drop piece.length) piece.length name =
      piece ++ name ++ data.drop (piece.length + name.length) := by
    have split : piece ++ data.drop piece.length =
        piece ++ (data.drop piece.length).take name.length ++ data.drop (piece.length + name.length) := by
      rw [List.append_assoc, ← List.drop_drop, List.take_append_drop]
    rw [split]
    exact overlay_inside piece _ name _ (by simp only [List.length_take, List.length_drop]; omega)
  have third : overlay (piece ++ name ++ data.drop (piece.length + name.length)) (piece.length + name.length)
      (List.replicate (uf2DataSize - (piece.length + name.length)) 0) =
      piece ++ name ++ List.replicate (uf2DataSize - (piece.length + name.length)) 0 := by
    have whole := overlay_inside (piece ++ name) (data.drop (piece.length + name.length))
      (List.replicate (uf2DataSize - (piece.length + name.length)) 0) []
      (by simp only [List.length_drop, List.length_replicate, sized])
    simpa only [List.append_nil, List.length_append] using whole
  rw [uf2Fill, first, second]
  exact third

theorem uf2Fill_data {data piece : Bytes} {name : CString} (sized : data.length = uf2DataSize)
    (fits : piece.length + name.bytes.length ≤ uf2DataSize) :
    padded uf2DataSize (uf2Fill data piece name.bytes) = uf2Data piece name := by
  rw [uf2Fill_eq sized fits, uf2Data, padded, padded, List.take_of_length_le, List.take_of_length_le]
  · simp only [List.length_append, List.length_replicate]
    have full : uf2DataSize - (piece.length + name.bytes.length + (uf2DataSize - (piece.length + name.bytes.length))) =
        0 := by omega
    rw [full, List.replicate_zero, List.append_nil]
  · simp only [List.length_append]
    exact fits
  · simp only [List.length_append, List.length_replicate]
    omega

/-- Block number `number` for the bytes `piece` of a file of `size` bytes, `offset` bytes into it. -/
def uf2FileBlock (name : CString) (size : Nat) (number : Int) (offset : Nat) (piece : Bytes) : Uf2Block where
  magic1 := uf2Magic1
  magic2 := uf2Magic2
  flags := uf2FlagFile
  fileOffset := UInt32.ofNat offset
  dataBytes := UInt32.ofNat piece.length
  blockNumber := UInt32.ofInt number
  blockCount := 0
  fileSize := UInt32.ofNat size
  data := uf2Data piece name
  magic3 := uf2Magic3
  sized := padded_length uf2DataSize _

def uf2FileBlocks (name : CString) (size : Nat) : Int → Nat → List Bytes → List Uf2Block
  | _, _, [] => []
  | number, offset, piece :: pieces =>
      uf2FileBlock name size number offset piece ::
        uf2FileBlocks name size (number + 1) (offset + piece.length) pieces

theorem uf2FileBlocks_length (name : CString) (size : Nat) (number : Int) (offset : Nat) (pieces : List Bytes) :
    (uf2FileBlocks name size number offset pieces).length = pieces.length := by
  induction pieces generalizing number offset with
  | nil => rfl
  | cons piece pieces ih => rw [uf2FileBlocks, List.length_cons, List.length_cons, ih]

theorem uf2NameChars_short {name : CString} (short : name.bytes.length ≤ uf2FilenameMax) :
    uf2NameChars name = name.bytes.length := Nat.min_eq_left short

theorem uf2MaxPayload_fits {name : CString} (short : name.bytes.length ≤ uf2FilenameMax) :
    uf2MaxPayload name + name.bytes.length < uf2DataSize := by
  have chars := uf2NameChars_short short
  have payload : uf2MaxPayload name ≤ uf2DataSize - uf2NameChars name - 1 := Nat.min_le_left _ _
  simp only [uf2DataSize, uf2FilenameMax] at *
  omega

/-- What one pass leaves in `block`, apart from the fields that never change. -/
structure Uf2Block.Template (size : Nat) (block : Uf2Block) : Prop where
  magic1 : block.magic1 = uf2Magic1
  magic2 : block.magic2 = uf2Magic2
  magic3 : block.magic3 = uf2Magic3
  flags : block.flags = uf2FlagFile
  blockCount : block.blockCount = 0
  fileSize : block.fileSize = UInt32.ofNat size

theorem uf2WriteFileLoop_blocks {name : CString} (short : name.bytes.length ≤ uf2FilenameMax) (startBlock : Int)
    (content : Bytes) (block : Uf2Block) (template : block.Template content.length) (blks : Int) (done : Nat)
    (within : done ≤ content.length) (files : FileSystem) (archive : Bytes) :
    uf2WriteFileLoop name startBlock content.length ⟨content, done⟩ block blks done
        ⟨files, ⟨archive, archive.length⟩, []⟩ =
      let pieces := chunks (uf2MaxPayload name) (content.drop done)
      let written := archive ++
        (uf2FileBlocks name content.length (startBlock + blks) done pieces).flatMap Uf2Block.bytes
      (some (blks + pieces.length), ⟨files, ⟨written, written.length⟩, []⟩) := by
  generalize left : content.length - done = count
  induction count using Nat.strongRecOn generalizing block blks done archive with
  | ind count ih =>
    have positive := uf2MaxPayload_positive name
    rw [uf2WriteFileLoop]
    by_cases more : done < content.length
    · have rest : content.drop done ≠ [] := by
        apply List.length_pos_iff.mp
        simp only [List.length_drop]
        omega
      have cut := chunks_cons_min positive rest
      rw [List.length_drop, List.drop_drop] at cut
      generalize requested : min (content.length - done) (uf2MaxPayload name) = req at cut
      have pieceLength : ((content.drop done).take req).length = req := by
        simp only [List.length_take, List.length_drop]
        omega
      have fits : ((content.drop done).take req).length + name.bytes.length ≤ uf2DataSize := by
        have room := uf2MaxPayload_fits short
        omega
      -- The reused buffer holds exactly the block of this piece.
      have filled : { block with
            data := padded uf2DataSize (uf2Fill block.data ((content.drop done).take req)
              (name.bytes.take (uf2NameChars name)))
            fileOffset := UInt32.ofNat done
            dataBytes := UInt32.ofNat req
            blockNumber := UInt32.ofInt (startBlock + blks)
            sized := padded_length uf2DataSize _ } =
          uf2FileBlock name content.length (startBlock + blks) done ((content.drop done).take req) := by
        simp only [uf2NameChars_short short, List.take_length, uf2Fill_data block.sized fits, uf2FileBlock,
          template.magic1, template.magic2, template.magic3, template.flags, template.blockCount, template.fileSize,
          pieceLength]
      rw [if_pos more]
      refine (Proc.bind_returned (fread_quiet files _ ⟨content, done⟩ req)).trans ?_
      simp only [pieceLength, ne_eq, not_true_eq_false, if_false, filled]
      refine (Proc.bind_returned (writeDst_quiet files _ _)).trans ?_
      simp only [overlay_end, Bool.true_eq_false, if_false]
      have again : (uf2FileBlock name content.length (startBlock + blks) done
          ((content.drop done).take req)).Template content.length := ⟨rfl, rfl, rfl, rfl, rfl, rfl⟩
      have next := ih (content.length - (done + req)) (by omega) _ again (blks + 1) (done + req) (by omega)
        (archive ++ (uf2FileBlock name content.length (startBlock + blks) done
          ((content.drop done).take req)).bytes) rfl
      rw [List.length_append] at next
      rw [next, cut]
      simp only [uf2FileBlocks, pieceLength, List.flatMap_cons, List.append_assoc, Int.add_assoc, List.length_cons,
        Int.natCast_add, Int.add_comm 1, Int.cast_ofNat_Int]
    · have none : content.drop done = [] := List.drop_of_length_le (by omega)
      rw [if_neg more, none, chunks_nil]
      simp [uf2FileBlocks]

theorem uf2WriteFile_blocks {name : CString} (short : name.bytes.length ≤ uf2FilenameMax) (startBlock : Int)
    {content : Bytes} (bound : content.length < 2 ^ 31) (files : FileSystem) (archive : Bytes) :
    uf2WriteFile ⟨content, 0⟩ name startBlock content.length ⟨files, ⟨archive, archive.length⟩, []⟩ =
      let pieces := chunks (uf2MaxPayload name) content
      let written := archive ++ (uf2FileBlocks name content.length startBlock 0 pieces).flatMap Uf2Block.bytes
      (some (pieces.length : Int), ⟨files, ⟨written, written.length⟩, []⟩) := by
  have loop := uf2WriteFileLoop_blocks short startBlock content (uf2EmptyBlock content.length)
    ⟨rfl, rfl, rfl, rfl, rfl, rfl⟩ 0 0 (Nat.zero_le _) files archive
  simp only [List.drop_zero, Int.zero_add, Int.add_zero] at loop
  rw [uf2WriteFile, if_neg (Nat.not_le.mpr bound)]
  exact loop

def uf2Content (files : FileSystem) (path : CString) : Bytes := (files.readFile path).getD []

def uf2Pieces (files : FileSystem) (destdir path : CString) : List Bytes :=
  chunks (uf2MaxPayload (uf2ArchiveName destdir path)) (uf2Content files path)

def uf2ArchiveBlocks (files : FileSystem) (destdir : CString) : Int → List CString → List Uf2Block
  | _, [] => []
  | blks, path :: paths =>
      uf2FileBlocks (uf2ArchiveName destdir path) (uf2Content files path).length blks 0
          (uf2Pieces files destdir path) ++
        uf2ArchiveBlocks files destdir (int32 (blks + (uf2Pieces files destdir path).length)) paths

def uf2Total (files : FileSystem) (destdir : CString) : Int → List CString → Int
  | blks, [] => blks
  | blks, path :: paths => uf2Total files destdir (int32 (blks + (uf2Pieces files destdir path).length)) paths

theorem uf2ArchiveName_short (destdir path : CString) :
    (uf2ArchiveName destdir path).bytes.length ≤ uf2FilenameMax := by
  simp only [uf2ArchiveName, CString.take_bytes, List.length_take]
  exact Nat.min_le_left _ _

def Packable (files : FileSystem) (path : CString) : Prop :=
  ∃ content, files.readFile path = some content ∧ content.length < 2 ^ 31

theorem uf2WriteAllLoop_path {files : FileSystem} (destdir : CString) (start : Nat) {path : CString} {content : Bytes}
    (found : files.readFile path = some content) (bound : content.length < 2 ^ 31) (paths : List CString) (blks : Int)
    (archive : Bytes) :
    uf2WriteAllLoop destdir start blks (path :: paths) ⟨files, ⟨archive, archive.length⟩, []⟩ =
      let written := archive ++ (uf2FileBlocks (uf2ArchiveName destdir path) content.length blks 0
        (uf2Pieces files destdir path)).flatMap Uf2Block.bytes
      uf2WriteAllLoop destdir start (int32 (blks + (uf2Pieces files destdir path).length)) paths
        ⟨files, ⟨written, written.length⟩, []⟩ := by
  have same : uf2Content files path = content := by rw [uf2Content, found]; rfl
  rw [uf2WriteAllLoop]
  refine (Proc.bind_returned (fopen_quiet files _ found)).trans ?_
  refine (Proc.bind_returned (ftell_quiet files _ ⟨content, 0⟩)).trans ?_
  refine (Proc.bind_returned (fseek_quiet files _ ⟨content, 0⟩ content.length)).trans ?_
  refine (Proc.bind_returned (ftell_quiet files _ ⟨content, content.length⟩)).trans ?_
  refine (Proc.bind_returned (fseek_quiet files _ ⟨content, content.length⟩ 0)).trans ?_
  have wrote := uf2WriteFile_blocks (uf2ArchiveName_short destdir path) blks bound files archive
  refine (Proc.bind_returned wrote).trans ?_
  simp only [if_neg (Int.not_lt.mpr (Int.natCast_nonneg _)), uf2Pieces, same]

theorem uf2WriteAllLoop_blocks {files : FileSystem} (destdir : CString) (start : Nat) {paths : List CString}
    (packable : ∀ path ∈ paths, Packable files path) (blks : Int) (archive : Bytes) :
    uf2WriteAllLoop destdir start blks paths ⟨files, ⟨archive, archive.length⟩, []⟩ =
      let written := archive ++ (uf2ArchiveBlocks files destdir blks paths).flatMap Uf2Block.bytes
      uf2FixupBlockCount start (uf2Total files destdir blks paths) ⟨files, ⟨written, written.length⟩, []⟩ := by
  induction paths generalizing blks archive with
  | nil => simp [uf2WriteAllLoop, uf2ArchiveBlocks, uf2Total]
  | cons path paths ih =>
      obtain ⟨content, found, bound⟩ := packable path List.mem_cons_self
      have same : uf2Content files path = content := by rw [uf2Content, found]; rfl
      refine (uf2WriteAllLoop_path destdir start found bound paths blks archive).trans ?_
      refine (ih (fun other member => packable other (List.mem_cons_of_mem _ member)) _ _).trans ?_
      simp only [uf2ArchiveBlocks, uf2Total, same, List.flatMap_append, List.append_assoc]

def Uf2Block.counted (block : Uf2Block) (count : UInt32) : Uf2Block := { block with blockCount := count }

/-- The passes of the loop from `blk` on: in 32 bits the offsets repeat every `2 ^ 23` blocks. -/
def uf2Counted (blks : UInt32) (blk : Nat) (blocks : List Uf2Block) : List Uf2Block :=
  if blk < blks.toNat then uf2Counted blks (blk + 1) (blocks.modify (blk % 2 ^ 23) (·.counted blks)) else blocks
termination_by blks.toNat - blk

theorem flatMap_bytes_length (blocks : List Uf2Block) :
    (blocks.flatMap Uf2Block.bytes).length = uf2BlockSize * blocks.length := by
  induction blocks with
  | nil => rfl
  | cons block blocks ih =>
      rw [List.flatMap_cons, List.length_append, ih, block.bytes_length, List.length_cons, Nat.mul_succ, Nat.add_comm]

theorem overlay_counted (front : Bytes) {blocks : List Uf2Block} {index : Nat} (inside : index < blocks.length)
    (count : UInt32) :
    overlay (front ++ blocks.flatMap Uf2Block.bytes) (front.length + uf2BlockSize * index + 6 * 4) (leWord count) =
      front ++ (blocks.modify index (·.counted count)).flatMap Uf2Block.bytes := by
  have split : blocks = blocks.take index ++ blocks[index] :: blocks.drop (index + 1) := by
    rw [← List.drop_eq_getElem_cons, List.take_append_drop]
  have changed := List.modify_eq_take_cons_drop (f := fun block : Uf2Block => block.counted count) inside
  have old : blocks[index].bytes = blocks[index].front ++ leWord blocks[index].blockCount ++ blocks[index].back :=
    blocks[index].bytes_split blocks[index].blockCount
  have new : (blocks[index].counted count).bytes = blocks[index].front ++ leWord count ++ blocks[index].back :=
    blocks[index].bytes_split count
  have position : (front ++ (blocks.take index).flatMap Uf2Block.bytes ++ blocks[index].front).length =
      front.length + uf2BlockSize * index + 6 * 4 := by
    simp only [List.length_append, flatMap_bytes_length, List.length_take, Uf2Block.front_length]
    rw [Nat.min_eq_left (Nat.le_of_lt inside)]
  have whole : front ++ blocks.flatMap Uf2Block.bytes =
      (front ++ (blocks.take index).flatMap Uf2Block.bytes ++ blocks[index].front) ++
        leWord blocks[index].blockCount ++
        (blocks[index].back ++ (blocks.drop (index + 1)).flatMap Uf2Block.bytes) := by
    conv => lhs; rw [split]
    rw [List.flatMap_append, List.flatMap_cons, old]
    simp only [List.append_assoc]
  rw [whole, ← position, overlay_inside _ _ (leWord count) _ (by rw [leWord_length, leWord_length]), changed,
    List.flatMap_append, List.flatMap_cons, new]
  simp only [List.append_assoc]

theorem uf2FixupLoop_pass (files : FileSystem) (start : Nat) {blks : UInt32} (total : Int) (content : Bytes) {blk : Nat}
    (position : Nat) (more : blk < blks.toNat) :
    ∃ last, uf2FixupLoop start blks total blk ⟨files, ⟨content, position⟩, []⟩ =
      uf2FixupLoop start blks total (blk + 1)
        ⟨files, ⟨overlay content (start + uf2BlockSize * (blk % 2 ^ 23) + 24) (leWord blks), last⟩, []⟩ := by
  have wrapped : (512 * blk) % 2 ^ 32 = uf2BlockSize * (blk % 2 ^ 23) := Nat.mul_mod_mul_left 512 blk (2 ^ 23)
  refine ⟨start + uf2BlockSize * (blk % 2 ^ 23) + 24 + (leWord blks).length, ?_⟩
  rw [uf2FixupLoop, if_pos more, wrapped]
  refine (Proc.bind_returned (seekDst_quiet files _ _)).trans ?_
  simp only [Bool.true_eq_false, if_false]
  refine (Proc.bind_returned (writeDst_quiet files _ _)).trans ?_
  simp only [Bool.true_eq_false, if_false]

theorem uf2FixupLoop_counted (files : FileSystem) (front : Bytes) (blks : UInt32) (total : Int)
    (blocks : List Uf2Block) (enough : blks.toNat ≤ blocks.length) (blk position : Nat) :
    ∃ last, uf2FixupLoop front.length blks total blk ⟨files, ⟨front ++ blocks.flatMap Uf2Block.bytes, position⟩, []⟩ =
      (some total, ⟨files, ⟨front ++ (uf2Counted blks blk blocks).flatMap Uf2Block.bytes, last⟩, []⟩) := by
  generalize left : blks.toNat - blk = count
  induction count using Nat.strongRecOn generalizing blk blocks position with
  | ind count ih =>
    rw [uf2Counted]
    by_cases more : blk < blks.toNat
    · have inside : blk % 2 ^ 23 < blocks.length := Nat.lt_of_le_of_lt (Nat.mod_le _ _) (by omega)
      obtain ⟨middle, pass⟩ := uf2FixupLoop_pass files front.length total (front ++ blocks.flatMap Uf2Block.bytes)
        position more
      obtain ⟨last, rest⟩ := ih (blks.toNat - (blk + 1)) (by omega)
        (blocks.modify (blk % 2 ^ 23) (·.counted blks)) (by rw [List.length_modify]; exact enough) (blk + 1) middle rfl
      refine ⟨last, ?_⟩
      rw [if_pos more, pass, overlay_counted front inside blks]
      exact rest
    · refine ⟨position, ?_⟩
      rw [uf2FixupLoop, if_neg more, if_neg more]
      rfl

/-- The second pass changes nothing but block counts. -/
theorem uf2Counted_same (blks : UInt32) (blk : Nat) (blocks : List Uf2Block) :
    (uf2Counted blks blk blocks).map (·.counted 0) = blocks.map (·.counted 0) := by
  fun_induction uf2Counted blks blk blocks with
  | case1 blk blocks more ih =>
      rw [ih]
      apply List.ext_getElem?
      intro index
      rw [List.getElem?_map, List.getElem?_map, List.getElem?_modify]
      cases blocks[index]? with
      | none => rfl
      | some block =>
          show some ((if blk % 2 ^ 23 = index then block.counted blks else block).counted 0) = some (block.counted 0)
          by_cases same : blk % 2 ^ 23 = index
          · rw [if_pos same]
            rfl
          · rw [if_neg same]
  | case2 blk blocks last => rfl

theorem ofInt_int32 (value : Int) : UInt32.ofInt (int32 value) = UInt32.ofInt value := by
  have low : int32 value % (2 ^ 32 : Nat) = value % (2 ^ 32 : Nat) := Int.bmod_emod
  rw [UInt32.ofInt, UInt32.ofInt]
  exact congrArg (fun low : Int => UInt32.ofNat low.toNat) low

theorem uf2Total_count (files : FileSystem) (destdir : CString) (blks : Int) (paths : List CString) :
    UInt32.ofInt (uf2Total files destdir blks paths) =
      UInt32.ofInt (blks + (uf2ArchiveBlocks files destdir blks paths).length) := by
  induction paths generalizing blks with
  | nil => simp [uf2Total, uf2ArchiveBlocks]
  | cons path paths ih =>
      rw [uf2Total, ih, uf2ArchiveBlocks, List.length_append, uf2FileBlocks_length]
      simp only [UInt32.ofInt_add, ofInt_int32, Int.natCast_add]
      rw [UInt32.add_assoc]

/-- The archive holds at least as many blocks as its block count says, even when the count overflows. -/
theorem uf2Total_enough (files : FileSystem) (destdir : CString) (paths : List CString) :
    (UInt32.ofInt (uf2Total files destdir 0 paths)).toNat ≤ (uf2ArchiveBlocks files destdir 0 paths).length := by
  rw [uf2Total_count, Int.zero_add, UInt32.ofInt, UInt32.toNat_ofNat']
  have low : (((uf2ArchiveBlocks files destdir 0 paths).length : Int) % 2 ^ 32).toNat ≤
      (uf2ArchiveBlocks files destdir 0 paths).length := by omega
  exact Nat.le_trans (Nat.mod_le _ _) low

def uf2PackedBlocks (files : FileSystem) (destdir : CString) (paths : List CString) : List Uf2Block :=
  uf2Counted (UInt32.ofInt (uf2Total files destdir 0 paths)) 0 (uf2ArchiveBlocks files destdir 0 paths)

theorem uf2WriteAll_blocks {files : FileSystem} (destdir : CString) {paths : List CString}
    (packable : ∀ path ∈ paths, Packable files path) :
    ∃ last, uf2WriteAll destdir paths ⟨files, ⟨[], 0⟩, []⟩ =
      (some (uf2Total files destdir 0 paths),
        ⟨files, ⟨(uf2PackedBlocks files destdir paths).flatMap Uf2Block.bytes, last⟩, []⟩) := by
  have written := uf2WriteAllLoop_blocks destdir 0 packable 0 []
  obtain ⟨last, counted⟩ := uf2FixupLoop_counted files [] _ (uf2Total files destdir 0 paths) _
    (uf2Total_enough files destdir paths) 0
    ((uf2ArchiveBlocks files destdir 0 paths).flatMap Uf2Block.bytes).length
  have all := written.trans counted
  rw [List.length_nil] at all
  have start : uf2WriteAll destdir paths ⟨files, ⟨[], 0⟩, []⟩ =
      uf2WriteAllLoop destdir 0 0 paths ⟨files, ⟨[], 0⟩, []⟩ := rfl
  exact ⟨last, start.trans all⟩

/-- An archive written without trouble, from the start of an empty stream on. -/
theorem uf2Pack_blocks {files : FileSystem} (brickdir : CString) {paths : List CString}
    (packable : ∀ path ∈ paths, Packable files path) :
    ∃ last, uf2Pack brickdir paths ⟨files, ⟨[], 0⟩, []⟩ =
      (some (if uf2Total files (uf2Destdir brickdir) 0 paths < 0 then
          (int32 (-uf2Total files (uf2Destdir brickdir) 0 paths), "`uf2 pack` has failed.")
        else (Err.unk.code, "`uf2 pack` was successful.")),
        ⟨files, ⟨(uf2PackedBlocks files (uf2Destdir brickdir) paths).flatMap Uf2Block.bytes, last⟩, []⟩) := by
  obtain ⟨last, written⟩ := uf2WriteAll_blocks (uf2Destdir brickdir) packable
  refine ⟨last, (Proc.bind_returned written).trans ?_⟩
  by_cases failed : uf2Total files (uf2Destdir brickdir) 0 paths < 0
  · rw [if_pos failed, if_pos failed]
    rfl
  · rw [if_neg failed, if_neg failed]
    rfl

theorem uf2PackedBlocks_same (files : FileSystem) (destdir : CString) (paths : List CString) :
    (uf2PackedBlocks files destdir paths).map (·.counted 0) =
      (uf2ArchiveBlocks files destdir 0 paths).map (·.counted 0) := uf2Counted_same _ _ _

/-- The file `a` takes two blocks, and `b` one. -/
def cutFiles : FileSystem where
  nodes location :=
    if location = [[0x61]] then some (.file (List.replicate 467 5))
    else if location = [[0x62]] then some (.file [1, 2, 3])
    else none
  cwd := []

theorem cutFiles_packable : ∀ path ∈ [cstr [0x61], cstr [0x62]], Packable cutFiles path := by
  intro path listed
  simp only [List.mem_cons, List.not_mem_nil, or_false] at listed
  rcases listed with rfl | rfl
  · exact ⟨List.replicate 467 5, by decide +kernel, by decide +kernel⟩
  · exact ⟨[1, 2, 3], by decide, by decide⟩

end Ev3duder
