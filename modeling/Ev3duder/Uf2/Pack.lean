import Ev3duder.Session
import Ev3duder.Posix.Stdio
import Ev3duder.Uf2.Helper

namespace Ev3duder

open Data Posix

/-! # Packing files into a UF2 archive -/

/-- "Projects" -/
def projects : CString := ⟨[0x50, 0x72, 0x6F, 0x6A, 0x65, 0x63, 0x74, 0x73], by decide⟩

/-- What is left of a number in an `int`. -/
def int32 (value : Int) : Int := value.bmod (2 ^ 32)

def uf2NameChars (filename : CString) : Nat := min filename.bytes.length uf2FilenameMax

def uf2MaxPayload (filename : CString) : Nat := min (uf2DataSize - uf2NameChars filename - 1) uf2PayloadMax

theorem uf2MaxPayload_positive (filename : CString) : 0 < uf2MaxPayload filename := by
  have chars : uf2NameChars filename ≤ 150 := Nat.min_le_right _ _
  simp only [uf2MaxPayload, uf2DataSize, uf2PayloadMax]
  omega

def uf2EmptyBlock (fileBytes : Nat) : Uf2Block where
  magic1 := uf2Magic1
  magic2 := uf2Magic2
  flags := uf2FlagFile
  fileOffset := 0
  dataBytes := 0
  blockNumber := 0
  blockCount := 0
  fileSize := UInt32.ofNat fileBytes
  data := List.replicate uf2DataSize 0
  magic3 := uf2Magic3
  sized := List.length_replicate

/-- `fread`, `strncpy` and `memset` into the data area that the last block left behind. -/
def uf2Fill (data chunk name : Bytes) : Bytes :=
  let data := overlay data 0 chunk
  let data := overlay data chunk.length name
  let rest := chunk.length + name.length
  overlay data rest (List.replicate (uf2DataSize - rest) 0)

def uf2WriteFileLoop (filename : CString) (startBlock : Int) (fileBytes : Nat) (src : Stream) (block : Uf2Block)
    (blks : Int) (done : Nat) : Proc Stdio Int :=
  if done < fileBytes then do
    let req := min (fileBytes - done) (uf2MaxPayload filename)
    let (chunk, src) ← Posix.fread src req
    if chunk.length ≠ req then return -Err.io.code
    else do
      let block :=
        { block with
          data := padded uf2DataSize (uf2Fill block.data chunk (filename.bytes.take (uf2NameChars filename)))
          fileOffset := UInt32.ofNat done
          dataBytes := UInt32.ofNat req
          blockNumber := UInt32.ofInt (startBlock + blks)
          sized := padded_length uf2DataSize _ }
      let written ← writeDst block.bytes
      if written = false then return -Err.io.code
      else uf2WriteFileLoop filename startBlock fileBytes src block (blks + 1) (done + req)
  else return blks
termination_by fileBytes - done
decreasing_by
  have positive := uf2MaxPayload_positive filename
  omega

/-- From 2 GiB on `int remain` overflows, and `fread` overruns the block. -/
def uf2WriteFile (src : Stream) (filename : CString) (startBlock : Int) (fileBytes : Nat) : Proc Stdio Int :=
  if 2 ^ 31 ≤ fileBytes then Proc.crash
  else uf2WriteFileLoop filename startBlock fileBytes src (uf2EmptyBlock fileBytes) 0 0

/-- The loop of `uf2_fixup_block_count`; `512 * blk` is computed in 32 bits. -/
def uf2FixupLoop (start : Nat) (blks : UInt32) (blocks : Int) (blk : Nat) : Proc Stdio Int :=
  if blk < blks.toNat then do
    let found ← seekDst (start + (512 * blk) % 2 ^ 32 + 6 * 4)
    if found = false then return -Err.io.code
    else do
      let written ← writeDst (leWord blks)
      if written = false then return -Err.io.code
      else uf2FixupLoop start blks blocks (blk + 1)
  else return blocks
termination_by blks.toNat - blk

def uf2FixupBlockCount (start : Nat) (blocks : Int) : Proc Stdio Int :=
  uf2FixupLoop start (UInt32.ofInt blocks) blocks 0

/-- The name of a file in the archive, cut to the size of `uf2_name`. -/
def uf2ArchiveName (destdir file : CString) : CString :=
  (destdir ++ separator ++ uf2Basename file false).take uf2FilenameMax

def uf2WriteAllLoop (destdir : CString) (start : Nat) (blks : Int) : List CString → Proc Stdio Int
  | [] => uf2FixupBlockCount start blks
  | file :: files => do
      let some src ← fopen file | return -Err.io.code
      let some p0 ← ftell src | return -Err.io.code
      let some src ← fseek src src.content.length | return -Err.io.code
      let some p1 ← ftell src | return -Err.io.code
      let some src ← fseek src p0 | return -Err.io.code
      let ret ← uf2WriteFile src (uf2ArchiveName destdir file) blks (p1 - p0)
      if ret < 0 then return ret
      else uf2WriteAllLoop destdir start (int32 (blks + ret)) files

def uf2WriteAll (destdir : CString) (files : List CString) : Proc Stdio Int := do
  let dst ← Proc.gets Stdio.dst
  let some start ← ftell dst | return -Err.io.code
  uf2WriteAllLoop destdir start 0 files

/-- The directory on the brick, when none is given. -/
def uf2Destdir (brickdir : CString) : CString := if brickdir.bytes.length = 0 then projects else brickdir

def uf2Pack (brickdir : CString) (files : List CString) : Proc Stdio (Int × String) := do
  let blocks ← uf2WriteAll (uf2Destdir brickdir) files
  if blocks < 0 then return (int32 (-blocks), "`uf2 pack` has failed.")
  else return (Err.unk.code, "`uf2 pack` was successful.")

end Ev3duder
