import Ev3duder.Data.Bytes

namespace Ev3duder

open Data

/-! # The blocks of a UF2 archive -/

def uf2Magic1 : UInt32 := 0x0A324655
def uf2Magic2 : UInt32 := 0x9E5D5157
def uf2Magic3 : UInt32 := 0x0AB16F30

def uf2FlagIgnore : UInt32 := 0x00000001
def uf2FlagFile : UInt32 := 0x00001000

def uf2FilenameMax : Nat := 150
def uf2PayloadMax : Nat := 466
def uf2FileMax : Nat := 64 * 1024 * 1024

/-- `sizeof(block.data)` -/
def uf2DataSize : Nat := 476

/-- `sizeof(uf2_block_t)` -/
def uf2BlockSize : Nat := 512

/-- `uf2_block_t` -/
structure Uf2Block where
  magic1 : UInt32
  magic2 : UInt32
  flags : UInt32
  fileOffset : UInt32
  dataBytes : UInt32
  blockNumber : UInt32
  blockCount : UInt32
  fileSize : UInt32
  data : Bytes
  magic3 : UInt32
  sized : data.length = uf2DataSize
deriving DecidableEq, Repr

/-- A `uint32_t` as it lies in memory on the little-endian hosts the program is built for. -/
def leWord (word : UInt32) : Bytes := leBytes 4 word.toNat

def leWordAt (bytes : Bytes) (offset : Nat) : UInt32 := UInt32.ofNat (leValue ((bytes.drop offset).take 4))

@[simp] theorem leWord_length (word : UInt32) : (leWord word).length = 4 := leBytes_length 4 _

theorem leWords_length (words : List UInt32) : (words.flatMap leWord).length = 4 * words.length := by
  induction words with
  | nil => rfl
  | cons word words ih =>
      simp only [List.flatMap_cons, List.length_append, leWord_length, ih, List.length_cons]
      omega

theorem leWordAt_words (front : List UInt32) (word : UInt32) (back : List UInt32) (rest : Bytes) :
    leWordAt ((front ++ word :: back).flatMap leWord ++ rest) (4 * front.length) = word := by
  have bound : word.toNat < 256 ^ 4 := word.toNat_lt
  rw [leWordAt, List.flatMap_append, List.flatMap_cons, List.append_assoc, ← leWords_length, List.drop_left,
    List.append_assoc, ← leWord_length word, List.take_left, leWord, leValue_leBytes_of_lt bound, UInt32.ofNat_toNat]

theorem leWordAt_behind {front : Bytes} {start : Nat} (length : front.length = start) (bytes : Bytes) (offset : Nat) :
    leWordAt (front ++ bytes) (start + offset) = leWordAt bytes offset := by
  rw [leWordAt, leWordAt, ← length, List.drop_append, List.drop_of_length_le (by omega), List.nil_append,
    Nat.add_sub_cancel_left]

theorem leWord_leWordAt {bytes : Bytes} {offset : Nat} (within : offset + 4 ≤ bytes.length) :
    leWord (leWordAt bytes offset) = (bytes.drop offset).take 4 := by
  have length : ((bytes.drop offset).take 4).length = 4 := by
    simp only [List.length_take, List.length_drop]
    omega
  have bound := leValue_lt ((bytes.drop offset).take 4)
  rw [length] at bound
  have value := leBytes_leValue ((bytes.drop offset).take 4)
  rw [length] at value
  rw [leWord, leWordAt, UInt32.toNat_ofNat_of_lt' bound, value]

theorem leWords_leWordAt (bytes : Bytes) (count : Nat) (within : 4 * count ≤ bytes.length) :
    ((List.range count).map fun index => leWordAt bytes (4 * index)).flatMap leWord = bytes.take (4 * count) := by
  induction count with
  | zero => rfl
  | succ count ih =>
      rw [List.range_succ, List.map_append, List.flatMap_append, ih (by omega), Nat.mul_succ, List.take_add]
      simp only [List.map_cons, List.map_nil, List.flatMap_cons, List.flatMap_nil, List.append_nil]
      rw [leWord_leWordAt (by omega)]

def Uf2Block.words (block : Uf2Block) : List UInt32 :=
  [block.magic1, block.magic2, block.flags, block.fileOffset, block.dataBytes, block.blockNumber, block.blockCount,
    block.fileSize]

/-- The bytes of a block in memory and in the archive. -/
def Uf2Block.bytes (block : Uf2Block) : Bytes :=
  block.words.flatMap leWord ++ (block.data ++ leWord block.magic3)

/-- The block behind 512 bytes; missing bytes read as zeros. -/
def Uf2Block.ofBytes (bytes : Bytes) : Uf2Block where
  magic1 := leWordAt bytes 0
  magic2 := leWordAt bytes 4
  flags := leWordAt bytes 8
  fileOffset := leWordAt bytes 12
  dataBytes := leWordAt bytes 16
  blockNumber := leWordAt bytes 20
  blockCount := leWordAt bytes 24
  fileSize := leWordAt bytes 28
  data := padded uf2DataSize (bytes.drop 32)
  magic3 := leWordAt bytes 508
  sized := padded_length uf2DataSize _

theorem Uf2Block.words_length (block : Uf2Block) : (block.words.flatMap leWord).length = 32 := by
  simp [Uf2Block.words]

@[simp] theorem Uf2Block.bytes_length (block : Uf2Block) : block.bytes.length = uf2BlockSize := by
  simp only [Uf2Block.bytes, List.length_append, block.words_length, block.sized, leWord_length]
  rfl

theorem Uf2Block.ofBytes_bytes (block : Uf2Block) : Uf2Block.ofBytes block.bytes = block := by
  obtain ⟨magic1, magic2, flags, fileOffset, dataBytes, blockNumber, blockCount, fileSize, data, magic3, sized⟩ := block
  have payload : ∀ words : List UInt32, words.length = 8 →
      padded uf2DataSize ((words.flatMap leWord ++ (data ++ leWord magic3)).drop 32) = data := by
    intro words count
    have front : (words.flatMap leWord).length = 32 := by rw [leWords_length, count]
    rw [← front, List.drop_left, padded, List.take_left' sized, List.length_append, sized, leWord_length]
    exact List.append_nil _
  have magic : ∀ words : List UInt32, words.length = 8 →
      leWordAt (words.flatMap leWord ++ (data ++ leWord magic3)) 508 = magic3 := by
    intro words count
    have front : (words.flatMap leWord ++ data).length = 508 := by
      rw [List.length_append, leWords_length, count, sized]
      rfl
    have last := leWordAt_words [] magic3 [] []
    rw [← List.append_assoc, leWordAt_behind front _ 0]
    simpa using last
  simp only [Uf2Block.ofBytes, Uf2Block.mk.injEq]
  exact ⟨leWordAt_words [] _ _ _, leWordAt_words [_] _ _ _, leWordAt_words [_, _] _ _ _,
    leWordAt_words [_, _, _] _ _ _, leWordAt_words [_, _, _, _] _ _ _, leWordAt_words [_, _, _, _, _] _ _ _,
    leWordAt_words [_, _, _, _, _, _] _ _ _, leWordAt_words [_, _, _, _, _, _, _] _ _ _, payload _ rfl, magic _ rfl⟩

theorem Uf2Block.bytes_ofBytes {bytes : Bytes} (length : bytes.length = uf2BlockSize) :
    (Uf2Block.ofBytes bytes).bytes = bytes := by
  rw [uf2BlockSize] at length
  have words : (Uf2Block.ofBytes bytes).words.flatMap leWord = bytes.take 32 :=
    leWords_leWordAt bytes 8 (by omega)
  have data : (Uf2Block.ofBytes bytes).data = (bytes.drop 32).take 476 := by
    show padded uf2DataSize (bytes.drop 32) = (bytes.drop 32).take 476
    rw [padded, List.length_drop, length]
    exact List.append_nil _
  have magic : leWord (Uf2Block.ofBytes bytes).magic3 = bytes.drop 508 := by
    have last : leWord (leWordAt bytes 508) = (bytes.drop 508).take 4 := leWord_leWordAt (by omega)
    exact last.trans (List.take_of_length_le (by simp only [List.length_drop]; omega))
  have middle : (bytes.drop 32).drop 476 = bytes.drop 508 := by rw [List.drop_drop]
  rw [Uf2Block.bytes, words, data, magic, ← middle, List.take_append_drop, List.take_append_drop]

/-- Any stream is a sequence of blocks with fewer than 512 bytes behind it. -/
theorem uf2Stream_blocks (stream : Bytes) :
    ∃ (blocks : List Uf2Block) (tail : Bytes), tail.length < uf2BlockSize ∧
      stream = blocks.flatMap Uf2Block.bytes ++ tail := by
  generalize measure : stream.length = count
  induction count using Nat.strongRecOn generalizing stream with
  | ind count ih =>
    by_cases short : stream.length < uf2BlockSize
    · exact ⟨[], stream, short, rfl⟩
    · have front : (stream.take uf2BlockSize).length = uf2BlockSize := List.length_take_of_le (by omega)
      have back : (stream.drop uf2BlockSize).length < count := by
        simp only [List.length_drop, uf2BlockSize] at *
        omega
      obtain ⟨blocks, tail, rest, same⟩ := ih _ back (stream.drop uf2BlockSize) rfl
      refine ⟨Uf2Block.ofBytes (stream.take uf2BlockSize) :: blocks, tail, rest, ?_⟩
      rw [List.flatMap_cons, Uf2Block.bytes_ofBytes front, List.append_assoc, ← same, List.take_append_drop]

def Uf2Block.front (block : Uf2Block) : Bytes := (block.words.take 6).flatMap leWord

def Uf2Block.back (block : Uf2Block) : Bytes := leWord block.fileSize ++ (block.data ++ leWord block.magic3)

theorem Uf2Block.front_length (block : Uf2Block) : block.front.length = 24 := leWords_length _

theorem Uf2Block.bytes_split (block : Uf2Block) (count : UInt32) :
    { block with blockCount := count }.bytes = block.front ++ leWord count ++ block.back := by
  simp [Uf2Block.bytes, Uf2Block.words, Uf2Block.front, Uf2Block.back, List.append_assoc]

/-- The blocks that `uf2_unpack` reads from a stream. -/
def uf2Blocks (stream : Bytes) : List Uf2Block :=
  if stream.length < uf2BlockSize then []
  else Uf2Block.ofBytes (stream.take uf2BlockSize) :: uf2Blocks (stream.drop uf2BlockSize)
termination_by stream.length
decreasing_by
  simp only [List.length_drop, uf2BlockSize] at *
  omega

theorem uf2Blocks_tail (blocks : List Uf2Block) {tail : Bytes} (short : tail.length < uf2BlockSize) :
    uf2Blocks (blocks.flatMap Uf2Block.bytes ++ tail) = blocks := by
  induction blocks with
  | nil => rw [List.flatMap_nil, List.nil_append, uf2Blocks, if_pos short]
  | cons block blocks ih =>
      have long : ¬ (block.bytes ++ (blocks.flatMap Uf2Block.bytes ++ tail)).length < uf2BlockSize := by
        rw [List.length_append, block.bytes_length]
        omega
      rw [List.flatMap_cons, List.append_assoc, uf2Blocks, if_neg long, List.take_left' block.bytes_length,
        List.drop_left' block.bytes_length, block.ofBytes_bytes, ih]

theorem uf2Blocks_bytes (blocks : List Uf2Block) : uf2Blocks (blocks.flatMap Uf2Block.bytes) = blocks := by
  have whole := @uf2Blocks_tail blocks [] (by decide)
  rw [List.append_nil] at whole
  exact whole

end Ev3duder
