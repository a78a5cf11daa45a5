import Ev3duder.Uf2.Restoration

namespace Ev3duder

open Data Posix

/-! # The layout of an archive -/

/-- Where `uf2_fixup_block_count` writes, for the passes from `blk` on. -/
def uf2CountOffsets (start blks blk : Nat) : List Nat :=
  (List.range' blk (blks - blk)).map fun blk => start + uf2BlockSize * (blk % 2 ^ 23) + 24

theorem uf2FixupLoop_stamps (files : FileSystem) (start : Nat) (blks : UInt32) (total : Int) (content : Bytes)
    (blk position : Nat) :
    ∃ last, uf2FixupLoop start blks total blk ⟨files, ⟨content, position⟩, []⟩ =
      (some total, ⟨files, ⟨stamp content (leWord blks) (uf2CountOffsets start blks.toNat blk), last⟩, []⟩) := by
  generalize left : blks.toNat - blk = count
  induction count generalizing blk content position with
  | zero =>
      refine ⟨position, ?_⟩
      rw [uf2FixupLoop, if_neg (by omega), uf2CountOffsets, left]
      rfl
  | succ count ih =>
      have offsets : uf2CountOffsets start blks.toNat blk =
          (start + uf2BlockSize * (blk % 2 ^ 23) + 24) :: uf2CountOffsets start blks.toNat (blk + 1) := by
        have rest : blks.toNat - (blk + 1) = count := by omega
        rw [uf2CountOffsets, uf2CountOffsets, left, rest, List.range'_succ, List.map_cons]
      have more : blk < blks.toNat := by omega
      obtain ⟨middle, pass⟩ := uf2FixupLoop_pass files start total content position more
      obtain ⟨last, run⟩ := ih (overlay content (start + uf2BlockSize * (blk % 2 ^ 23) + 24) (leWord blks)) (blk + 1)
        middle (by omega)
      refine ⟨last, ?_⟩
      rw [pass, offsets]
      exact run

theorem mem_uf2CountOffsets {start blks offset : Nat} :
    offset ∈ uf2CountOffsets start blks 0 ↔
      ∃ blk, blk < blks ∧ blk < 2 ^ 23 ∧ offset = start + uf2BlockSize * blk + 24 := by
  simp only [uf2CountOffsets, List.mem_map, List.mem_range'_1]
  constructor
  · rintro ⟨blk, ⟨_, high⟩, rfl⟩
    exact ⟨blk % 2 ^ 23, Nat.lt_of_le_of_lt (Nat.mod_le _ _) (by omega), Nat.mod_lt _ (by decide), rfl⟩
  · rintro ⟨blk, high, small, rfl⟩
    exact ⟨blk, ⟨Nat.zero_le _, by omega⟩, by rw [Nat.mod_eq_of_lt small]⟩

/-- Every block of the archive at `start` carries the count, and nothing but the counts has changed. -/
structure Uf2Fixed (start blks : Nat) (before after : Bytes) : Prop where
  counted : ∀ blk, blk < blks → leWordAt after (start + uf2BlockSize * blk + 24) = UInt32.ofNat blks
  unchanged : ∀ position, (∀ blk, blk < blks → position < start + uf2BlockSize * blk + 24 ∨
    start + uf2BlockSize * blk + 28 ≤ position) → after[position]? = before[position]?

section Fixed

variable {start blks : Nat} {content : Bytes}

theorem leWordAt_same {first second : Bytes} {offset : Nat}
    (same : ∀ index, index < 4 → first[offset + index]? = second[offset + index]?) :
    leWordAt first offset = leWordAt second offset := by
  have window : (first.drop offset).take 4 = (second.drop offset).take 4 := by
    apply List.ext_getElem?
    intro index
    rw [List.getElem?_take, List.getElem?_take, List.getElem?_drop, List.getElem?_drop]
    by_cases inside : index < 4
    · rw [if_pos inside, if_pos inside, same index inside]
    · rw [if_neg inside, if_neg inside]
  rw [leWordAt, leWordAt, window]

theorem leWordAt_stored {bytes : Bytes} {offset : Nat} {word : UInt32}
    (stored : ∀ index, index < 4 → bytes[offset + index]? = (leWord word)[index]?) :
    leWordAt bytes offset = word := by
  have window : (bytes.drop offset).take 4 = leWord word := by
    apply List.ext_getElem?
    intro index
    rw [List.getElem?_take, List.getElem?_drop]
    by_cases inside : index < 4
    · rw [if_pos inside, stored index inside]
    · rw [if_neg inside, List.getElem?_eq_none (by rw [leWord_length]; omega)]
  have bound : word.toNat < 256 ^ 4 := word.toNat_lt
  rw [leWordAt, window, leWord, leValue_leBytes_of_lt bound, UInt32.ofNat_toNat]

theorem uf2CountOffsets_within (whole : start + uf2BlockSize * blks ≤ content.length) (word : UInt32) :
    ∀ offset ∈ uf2CountOffsets start blks 0, offset + (leWord word).length ≤ content.length := by
  intro offset member
  obtain ⟨blk, high, _, rfl⟩ := mem_uf2CountOffsets.mp member
  rw [leWord_length]
  simp only [uf2BlockSize] at *
  omega

theorem uf2CountOffsets_apart (start blks : Nat) (word : UInt32) :
    ∀ first ∈ uf2CountOffsets start blks 0, ∀ second ∈ uf2CountOffsets start blks 0,
      first = second ∨ first + (leWord word).length ≤ second ∨ second + (leWord word).length ≤ first := by
  intro first firstMember second secondMember
  obtain ⟨one, _, _, rfl⟩ := mem_uf2CountOffsets.mp firstMember
  obtain ⟨other, _, _, rfl⟩ := mem_uf2CountOffsets.mp secondMember
  rw [leWord_length]
  simp only [uf2BlockSize]
  omega

/-- The stamped counts are right unless a block behind the first `2 ^ 23` still needs one. -/
theorem stamped_fixed (whole : start + uf2BlockSize * blks ≤ content.length) :
    Uf2Fixed start blks content (stamp content (leWord (UInt32.ofNat blks)) (uf2CountOffsets start blks 0)) ↔
      ∀ blk, 2 ^ 23 ≤ blk → blk < blks →
        leWordAt content (start + uf2BlockSize * blk + 24) = UInt32.ofNat blks := by
  have within := uf2CountOffsets_within whole (UInt32.ofNat blks)
  have missed : ∀ blk, 2 ^ 23 ≤ blk →
      leWordAt (stamp content (leWord (UInt32.ofNat blks)) (uf2CountOffsets start blks 0))
        (start + uf2BlockSize * blk + 24) = leWordAt content (start + uf2BlockSize * blk + 24) := by
    intro blk far
    refine leWordAt_same fun index inside => stamp_outside within fun offset member => ?_
    obtain ⟨other, _, near, rfl⟩ := mem_uf2CountOffsets.mp member
    rw [leWord_length]
    simp only [uf2BlockSize]
    omega
  constructor
  · intro fixed blk far high
    rw [← missed blk far]
    exact fixed.counted blk high
  · intro counted
    refine ⟨?_, ?_⟩
    · intro blk high
      by_cases far : 2 ^ 23 ≤ blk
      · rw [missed blk far]
        exact counted blk far high
      · refine leWordAt_stored fun index inside => ?_
        have member : start + uf2BlockSize * blk + 24 ∈ uf2CountOffsets start blks 0 :=
          mem_uf2CountOffsets.mpr ⟨blk, high, Nat.not_le.mp far, rfl⟩
        exact stamp_inside within (uf2CountOffsets_apart start blks _) member (by rw [leWord_length]; exact inside)
    · intro position outside
      refine stamp_outside within fun offset member => ?_
      obtain ⟨blk, high, _, rfl⟩ := mem_uf2CountOffsets.mp member
      rw [leWord_length]
      exact outside blk high

theorem uf2FixupBlockCount_stamps (files : FileSystem) (start : Nat) (small : blks < 2 ^ 31) (content : Bytes)
    (position : Nat) :
    ∃ last, uf2FixupBlockCount start blks ⟨files, ⟨content, position⟩, []⟩ = (some (blks : Int),
      ⟨files, ⟨stamp content (leWord (UInt32.ofNat blks)) (uf2CountOffsets start blks 0), last⟩, []⟩) := by
  have count : (UInt32.ofNat blks).toNat = blks := UInt32.toNat_ofNat_of_lt' (by simp only [UInt32.size]; omega)
  obtain ⟨last, run⟩ := uf2FixupLoop_stamps files start (UInt32.ofNat blks) blks content 0 position
  rw [count] at run
  rw [uf2FixupBlockCount, ofInt_natCast]
  exact ⟨last, run⟩

end Fixed

/-- With 32-bit block offsets the blocks from number `2 ^ 23` on are out of reach. -/
theorem uf2FixupBlockCount_fixed_iff (files : FileSystem) {start blks : Nat} (small : blks < 2 ^ 31) {content : Bytes}
    (whole : start + uf2BlockSize * blks ≤ content.length) (position : Nat) :
    ∃ after, uf2FixupBlockCount start blks ⟨files, ⟨content, position⟩, []⟩ =
        (some (blks : Int), ⟨files, after, []⟩) ∧
      (Uf2Fixed start blks content after.content ↔
        ∀ blk, 2 ^ 23 ≤ blk → blk < blks →
          leWordAt content (start + uf2BlockSize * blk + 24) = UInt32.ofNat blks) := by
  obtain ⟨last, run⟩ := uf2FixupBlockCount_stamps files start small content position
  exact ⟨_, run, stamped_fixed whole⟩

theorem uf2FixupBlockCount_fixed_three :
    let archive := (uf2ArchiveBlocks cutFiles (cstr [0x65]) 0 [cstr [0x61], cstr [0x62]]).flatMap Uf2Block.bytes
    ∃ after, uf2FixupBlockCount 0 (3 : Nat) ⟨cutFiles, ⟨archive, 1536⟩, []⟩ =
        (some ((3 : Nat) : Int), ⟨cutFiles, after, []⟩) ∧
      Uf2Fixed 0 3 archive after.content := by
  intro archive
  have whole : 0 + uf2BlockSize * 3 ≤ archive.length := by decide +kernel
  obtain ⟨after, run, fixed⟩ := uf2FixupBlockCount_fixed_iff cutFiles (by decide) whole 1536
  exact ⟨after, run, fixed.mpr fun blk far high => absurd (Nat.le_trans far (Nat.le_of_lt_succ high)) (by decide)⟩

theorem blank_missed {blks : Nat} (far : 2 ^ 23 < blks) (small : blks < 2 ^ 31) : ∃ after : Stream,
    uf2FixupBlockCount 0 blks ⟨⟨fun _ => none, []⟩, ⟨List.replicate (uf2BlockSize * blks) 0, 0⟩, []⟩ =
      (some (blks : Int), ⟨⟨fun _ => none, []⟩, after, []⟩) ∧
    ¬ Uf2Fixed 0 blks (List.replicate (uf2BlockSize * blks) 0) after.content := by
  obtain ⟨last, run⟩ := uf2FixupBlockCount_stamps ⟨fun _ => none, []⟩ 0 small
    (List.replicate (uf2BlockSize * blks) 0) 0
  refine ⟨_, run, fun fixed => ?_⟩
  have whole : 0 + uf2BlockSize * blks ≤ (List.replicate (uf2BlockSize * blks) (0 : UInt8)).length := by
    rw [List.length_replicate]
    omega
  have counted := (stamped_fixed whole).mp fixed (2 ^ 23) (Nat.le_refl _) far
  have four : min 4 (uf2BlockSize * blks - (0 + uf2BlockSize * 2 ^ 23 + 24)) = 4 := by
    have size : uf2BlockSize = 512 := rfl
    rw [size]
    omega
  rw [leWordAt, List.drop_replicate, List.take_replicate, four] at counted
  have count : (UInt32.ofNat blks).toNat = blks := UInt32.toNat_ofNat_of_lt' (by simp only [UInt32.size]; omega)
  have none : (UInt32.ofNat (leValue (List.replicate 4 0))).toNat = 0 := by decide
  rw [counted, count] at none
  omega

/-- An archive of `2 ^ 23 + 1` blocks: the last one keeps the count 0. -/
theorem uf2FixupBlockCount_misses_last : ∃ after : Stream,
    uf2FixupBlockCount 0 (8388609 : Nat)
        ⟨⟨fun _ => none, []⟩, ⟨List.replicate (uf2BlockSize * 8388609) 0, 0⟩, []⟩ =
      (some ((8388609 : Nat) : Int), ⟨⟨fun _ => none, []⟩, after, []⟩) ∧
    ¬ Uf2Fixed 0 8388609 (List.replicate (uf2BlockSize * 8388609) 0) after.content :=
  blank_missed (by omega) (by omega)

/-- Block `index` of a file of which each block takes up to `most` bytes, as block `number` of the archive. -/
structure Uf2LaidOut (name : CString) (content : Bytes) (most number index : Nat) (block : Uf2Block) : Prop where
  magic1 : block.magic1 = uf2Magic1
  magic2 : block.magic2 = uf2Magic2
  magic3 : block.magic3 = uf2Magic3
  flags : block.flags = uf2FlagFile
  number : block.blockNumber = UInt32.ofNat number
  size : block.fileSize.toNat = content.length
  offset : block.fileOffset.toNat = most * index
  some : 0 < block.dataBytes.toNat
  ends : block.fileOffset.toNat + block.dataBytes.toNat = min (most * (index + 1)) content.length
  data : ∃ zeros, 0 < zeros ∧
    block.data = (content.drop block.fileOffset.toNat).take block.dataBytes.toNat ++ name.bytes ++
      List.replicate zeros 0

theorem fileBlocks_at (name : CString) (size : Nat) {most : Nat} (positive : 0 < most) (content : Bytes) (number : Int)
    (offset : Nat) {index : Nat} (inside : most * index < content.length) :
    (uf2FileBlocks name size number offset (chunks most content))[index]? =
      some (uf2FileBlock name size (number + index) (offset + most * index)
        ((content.drop (most * index)).take most)) := by
  induction index generalizing content number offset with
  | zero =>
      have nonempty : content ≠ [] := List.length_pos_iff.mp (Nat.lt_of_le_of_lt (Nat.zero_le _) inside)
      rw [chunks_cons positive nonempty, uf2FileBlocks]
      simp
  | succ index ih =>
      have nonempty : content ≠ [] := List.length_pos_iff.mp (Nat.lt_of_le_of_lt (Nat.zero_le _) inside)
      have step : most * (index + 1) = most * index + most := Nat.mul_succ most index
      have full : (content.take most).length = most := List.length_take_of_le (by omega)
      rw [chunks_cons positive nonempty, uf2FileBlocks, List.getElem?_cons_succ, full,
        ih (content.drop most) (number + 1) (offset + most) (by rw [List.length_drop]; omega), List.drop_drop, step]
      have numbers : number + 1 + (index : Int) = number + ((index + 1 : Nat) : Int) := by omega
      have offsets : offset + most + most * index = offset + (most * index + most) := by omega
      rw [numbers, offsets, Nat.add_comm most (most * index)]

theorem fileBlock_laidOut {name : CString} (short : name.bytes.length ≤ uf2FilenameMax) {content : Bytes}
    (bound : content.length < 2 ^ 31) {number : Int} {place index : Nat}
    (numbered : UInt32.ofInt number = UInt32.ofNat place) (inside : uf2MaxPayload name * index < content.length) :
    Uf2LaidOut name content (uf2MaxPayload name) place index
      (uf2FileBlock name content.length number (uf2MaxPayload name * index)
        ((content.drop (uf2MaxPayload name * index)).take (uf2MaxPayload name))) := by
  have positive := uf2MaxPayload_positive name
  have room := uf2MaxPayload_fits short
  have step : uf2MaxPayload name * (index + 1) = uf2MaxPayload name * index + uf2MaxPayload name :=
    Nat.mul_succ _ index
  generalize most : uf2MaxPayload name = payload at *
  have pieceLength : ((content.drop (payload * index)).take payload).length =
      min payload (content.length - payload * index) := by
    rw [List.length_take, List.length_drop]
  have offset : (UInt32.ofNat (payload * index)).toNat = payload * index :=
    UInt32.toNat_ofNat_of_lt' (by simp only [UInt32.size]; omega)
  have bytes : (UInt32.ofNat ((content.drop (payload * index)).take payload).length).toNat =
      min payload (content.length - payload * index) := by
    rw [pieceLength]
    exact UInt32.toNat_ofNat_of_lt' (by simp only [UInt32.size]; omega)
  refine ⟨rfl, rfl, rfl, rfl, numbered, ?_, offset, ?_, ?_, ?_⟩
  · exact UInt32.toNat_ofNat_of_lt' (by simp only [UInt32.size]; omega)
  · show 0 < (UInt32.ofNat ((content.drop (payload * index)).take payload).length).toNat
    rw [bytes]
    omega
  · show (UInt32.ofNat (payload * index)).toNat +
      (UInt32.ofNat ((content.drop (payload * index)).take payload).length).toNat = _
    rw [offset, bytes]
    omega
  · have fits : ((content.drop (payload * index)).take payload).length + name.bytes.length < uf2DataSize := by omega
    refine ⟨uf2DataSize - (((content.drop (payload * index)).take payload).length + name.bytes.length),
      Nat.sub_pos_of_lt fits, ?_⟩
    have piece : (content.drop (UInt32.ofNat (payload * index)).toNat).take
        (UInt32.ofNat ((content.drop (payload * index)).take payload).length).toNat =
        (content.drop (payload * index)).take payload := by
      rw [offset, bytes, ← List.length_drop, ← List.take_eq_take_min]
    show uf2Data _ name = (content.drop (UInt32.ofNat (payload * index)).toNat).take
      (UInt32.ofNat ((content.drop (payload * index)).take payload).length).toNat ++ name.bytes ++ _
    rw [piece, uf2Data, padded, List.take_of_length_le (by rw [List.length_append]; omega), List.length_append]

/-- The number of blocks that a file takes: its size over what fits into a block, rounded up. -/
def uf2BlocksOf (files : FileSystem) (destdir path : CString) : Nat :=
  ((uf2Content files path).length + uf2MaxPayload (uf2ArchiveName destdir path) - 1) /
    uf2MaxPayload (uf2ArchiveName destdir path)

section Archive

variable {files : FileSystem} {destdir path : CString}

theorem uf2BlocksOf_pieces (files : FileSystem) (destdir path : CString) :
    (uf2Pieces files destdir path).length = uf2BlocksOf files destdir path :=
  chunks_length (uf2MaxPayload_positive _) _

theorem uf2BlocksOf_inside {index : Nat} (inside : index < uf2BlocksOf files destdir path) :
    uf2MaxPayload (uf2ArchiveName destdir path) * index < (uf2Content files path).length := by
  have positive := uf2MaxPayload_positive (uf2ArchiveName destdir path)
  have room := (Nat.le_div_iff_mul_le positive).mp (Nat.succ_le_of_lt inside)
  rw [Nat.succ_mul, Nat.mul_comm] at room
  omega

theorem archive_length (files : FileSystem) (destdir : CString) (blks : Int) (paths : List CString) :
    (uf2ArchiveBlocks files destdir blks paths).length = (paths.map (uf2BlocksOf files destdir)).sum := by
  induction paths generalizing blks with
  | nil => rfl
  | cons path paths ih =>
      rw [uf2ArchiveBlocks, List.length_append, uf2FileBlocks_length, ih, uf2BlocksOf_pieces, List.map_cons,
        List.sum_cons]

/-- The blocks of one file lie behind those of all files before it, numbered on from there. -/
theorem archive_at (front back : List CString) (blks : Int) {index : Nat}
    (inside : index < uf2BlocksOf files destdir path) :
    ∃ number, UInt32.ofInt number = UInt32.ofInt (blks + ((front.map (uf2BlocksOf files destdir)).sum + index : Nat)) ∧
      (uf2ArchiveBlocks files destdir blks (front ++ path :: back))[
          (front.map (uf2BlocksOf files destdir)).sum + index]? =
        some (uf2FileBlock (uf2ArchiveName destdir path) (uf2Content files path).length number
          (uf2MaxPayload (uf2ArchiveName destdir path) * index)
          (((uf2Content files path).drop (uf2MaxPayload (uf2ArchiveName destdir path) * index)).take
            (uf2MaxPayload (uf2ArchiveName destdir path)))) := by
  induction front generalizing blks with
  | nil =>
      have found := fileBlocks_at (uf2ArchiveName destdir path) (uf2Content files path).length
        (uf2MaxPayload_positive (uf2ArchiveName destdir path)) (uf2Content files path) blks 0
        (uf2BlocksOf_inside inside)
      rw [Nat.zero_add] at found
      have within : index < (uf2FileBlocks (uf2ArchiveName destdir path) (uf2Content files path).length blks 0
          (uf2Pieces files destdir path)).length := by
        rw [uf2FileBlocks_length, uf2BlocksOf_pieces]
        exact inside
      refine ⟨blks + index, ?_, ?_⟩
      · simp
      · rw [List.nil_append, List.map_nil, List.sum_nil, Nat.zero_add, uf2ArchiveBlocks,
          List.getElem?_append_left within]
        exact found
  | cons first front ih =>
      obtain ⟨number, numbered, found⟩ := ih (int32 (blks + (uf2Pieces files destdir first).length))
      have length := uf2FileBlocks_length (uf2ArchiveName destdir first) (uf2Content files first).length blks 0
        (uf2Pieces files destdir first)
      rw [uf2BlocksOf_pieces] at length
      refine ⟨number, ?_, ?_⟩
      · rw [numbered, UInt32.ofInt_add, ofInt_int32, ← UInt32.ofInt_add, uf2BlocksOf_pieces, List.map_cons,
          List.sum_cons]
        congr 1
        omega
      · rw [List.cons_append, uf2ArchiveBlocks, List.map_cons, List.sum_cons,
          List.getElem?_append_right (by rw [length]; omega), length]
        have shifted : uf2BlocksOf files destdir first + (front.map (uf2BlocksOf files destdir)).sum + index -
            uf2BlocksOf files destdir first = (front.map (uf2BlocksOf files destdir)).sum + index := by omega
        rw [shifted]
        exact found

end Archive

/-- Nothing fails: the archive is the files in order, each cut into blocks that follow one another. -/
theorem uf2WriteAll_layout {files : FileSystem} (destdir : CString) {paths : List CString}
    (packable : ∀ path ∈ paths, Packable files path) :
    ∃ result after, ∃ blocks : List Uf2Block, uf2WriteAll destdir paths ⟨files, ⟨[], 0⟩, []⟩ = (some result, after) ∧
      after.dst.content = blocks.flatMap Uf2Block.bytes ∧
      blocks.length = (paths.map (uf2BlocksOf files destdir)).sum ∧
      ∀ front path back, paths = front ++ path :: back → ∀ index, index < uf2BlocksOf files destdir path →
        ∃ block, blocks[(front.map (uf2BlocksOf files destdir)).sum + index]? = some block ∧
          Uf2LaidOut (uf2ArchiveName destdir path) (uf2Content files path)
            (uf2MaxPayload (uf2ArchiveName destdir path)) ((front.map (uf2BlocksOf files destdir)).sum + index) index
            block := by
  obtain ⟨last, written⟩ := uf2WriteAll_blocks destdir packable
  have packed := packed_archive files destdir paths
  refine ⟨_, _, uf2PackedBlocks files destdir paths, written, rfl, ?_, ?_⟩
  · rw [← archive_length files destdir 0 paths, ← packed, List.length_map]
  · rintro front path back rfl index inside
    obtain ⟨content, found, bound⟩ := packable path (List.mem_append_right _ List.mem_cons_self)
    have same : uf2Content files path = content := by rw [uf2Content, found]; rfl
    obtain ⟨number, numbered, placed⟩ := archive_at front back 0 inside
    rw [← packed, List.getElem?_map, Option.map_eq_some_iff] at placed
    obtain ⟨block, found, uncounted⟩ := placed
    have word : UInt32.ofInt number = UInt32.ofNat ((front.map (uf2BlocksOf files destdir)).sum + index) := by
      rw [numbered, Int.zero_add]
      exact ofInt_natCast _
    have laid := fileBlock_laidOut (uf2ArchiveName_short destdir path) (by rw [same]; exact bound) word
      (uf2BlocksOf_inside inside)
    rw [← uncounted] at laid
    exact ⟨block, found, laid.magic1, laid.magic2, laid.magic3, laid.flags, laid.number, laid.size, laid.offset,
      laid.some, laid.ends, laid.data⟩

theorem uf2WriteAll_layout_two :
    ∃ result after, ∃ blocks : List Uf2Block,
      uf2WriteAll (cstr [0x65]) [cstr [0x61], cstr [0x62]] ⟨cutFiles, ⟨[], 0⟩, []⟩ = (some result, after) ∧
      after.dst.content = blocks.flatMap Uf2Block.bytes ∧ blocks.length = 3 ∧
      (∃ block, blocks[1]? = some block ∧
        Uf2LaidOut (cstr [0x65, 0x2F, 0x61]) (List.replicate 467 5) 466 1 1 block) ∧
      ∃ block, blocks[2]? = some block ∧ Uf2LaidOut (cstr [0x65, 0x2F, 0x62]) [1, 2, 3] 466 2 0 block := by
  obtain ⟨result, after, blocks, run, archive, count, laid⟩ := uf2WriteAll_layout (cstr [0x65]) cutFiles_packable
  have first : uf2BlocksOf cutFiles (cstr [0x65]) (cstr [0x61]) = 2 := by decide +kernel
  have second : uf2BlocksOf cutFiles (cstr [0x65]) (cstr [0x62]) = 1 := by decide +kernel
  have last := laid [cstr [0x61]] (cstr [0x62]) [] rfl 0 (by rw [second]; decide)
  rw [List.map_singleton, List.sum_singleton, first] at last
  refine ⟨result, after, blocks, run, archive, ?_, laid [] (cstr [0x61]) _ rfl 1 (by rw [first]; decide), last⟩
  rw [count, List.map_cons, List.map_singleton, List.sum_cons, List.sum_singleton, first, second]

end Ev3duder
