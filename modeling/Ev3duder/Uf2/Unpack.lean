import Ev3duder.Session
import Ev3duder.Uf2.Helper

namespace Ev3duder

open Data Posix

/-! # Unpacking a UF2 archive -/

def dotName : CString := ⟨dot, by decide⟩

def dotDotName : CString := ⟨dotDot, by decide⟩

/-- The directory that an archive name stands for: everything before its first separator. -/
def uf2Folder (filename : CString) (usePaths : Bool) : CString :=
  if usePaths then
    let foldername := filename.take (filename.bytes.takeWhile (· ≠ slash)).length
    if foldername = dotDotName then dotName else foldername
  else dotName

/-- `snprintf` into `dstlen` bytes. -/
def uf2Map (dstlen : Nat) (dstdir filename : CString) (usePaths : Bool) : CString :=
  (dstdir ++ separator ++ uf2Folder filename usePaths ++ separator ++ uf2Basename filename false).take (dstlen - 1)

/-- `sizeof(realname)` -/
def uf2RealnameSize : Nat := 256

/-- The name behind the payload; the last byte of the data area is forced to be its terminator. -/
def Uf2Block.name (block : Uf2Block) : CString := cstr ((block.data.set 475 0).drop block.dataBytes.toNat)

def uf2UnpackLoop (dstdir : CString) (usePaths : Bool) (stream : Bytes) : Proc Kernel Err :=
  if stream.length < uf2BlockSize then return .unk
  else
    let block := Uf2Block.ofBytes (stream.take uf2BlockSize)
    if block.magic1 ≠ uf2Magic1 ∨ block.magic2 ≠ uf2Magic2 ∨ block.magic3 ≠ uf2Magic3 then
      uf2UnpackLoop dstdir usePaths (stream.drop uf2BlockSize)
    else if block.flags &&& uf2FlagIgnore ≠ 0 ∨ block.flags &&& uf2FlagFile = 0 then
      uf2UnpackLoop dstdir usePaths (stream.drop uf2BlockSize)
    else if uf2PayloadMax < block.dataBytes.toNat ∨ uf2FileMax < block.fileSize.toNat ∨
        block.fileSize ≤ block.fileOffset then
      uf2UnpackLoop dstdir usePaths (stream.drop uf2BlockSize)
    else if uf2FilenameMax < block.name.bytes.length then uf2UnpackLoop dstdir usePaths (stream.drop uf2BlockSize)
    else do
      let realname := uf2Map uf2RealnameSize dstdir block.name usePaths
      let ret ← uf2MkdirFor realname
      if ret < 0 then return .io
      else
        let ret ← uf2WriteInto realname (block.data.set 475 0) block.dataBytes block.fileOffset block.fileSize
        if ret < 0 then return .io
        else uf2UnpackLoop dstdir usePaths (stream.drop uf2BlockSize)
termination_by stream.length
decreasing_by
  all_goals
    simp only [List.length_drop, uf2BlockSize] at *
    omega

def uf2Unpack (stream : Bytes) (dstdir : CString) (usePaths : Bool) : Proc Kernel (Err × String) := do
  let retval ← uf2UnpackLoop dstdir usePaths stream
  return (retval, if retval = .unk then "`uf2 unpack` was successful." else "`uf2 unpack` has failed.")

theorem uf2Unpack_loop {stream : Bytes} {dstdir : CString} {usePaths : Bool} {kernel after : Kernel} {status : Err}
    {message : String} (returned : uf2Unpack stream dstdir usePaths kernel = (some (status, message), after)) :
    uf2UnpackLoop dstdir usePaths stream kernel = (some status, after) := by
  obtain ⟨retval, middle, loop, last⟩ := Proc.bind_inversion returned
  rw [Proc.pure_apply, Prod.mk.injEq, Option.some.injEq, Prod.mk.injEq] at last
  obtain ⟨⟨rfl, _⟩, rfl⟩ := last
  exact loop

theorem uf2Unpack_done {stream : Bytes} {dstdir : CString} {usePaths : Bool} {kernel after : Kernel}
    (run : uf2UnpackLoop dstdir usePaths stream kernel = (some .unk, after)) :
    uf2Unpack stream dstdir usePaths kernel = (some (.unk, "`uf2 unpack` was successful."), after) :=
  Proc.bind_returned run

/-- The filters of `uf2_unpack`. -/
structure Uf2Block.Accepted (block : Uf2Block) : Prop where
  magic1 : block.magic1 = uf2Magic1
  magic2 : block.magic2 = uf2Magic2
  magic3 : block.magic3 = uf2Magic3
  kept : block.flags &&& uf2FlagIgnore = 0
  file : block.flags &&& uf2FlagFile ≠ 0
  payload : block.dataBytes.toNat ≤ uf2PayloadMax
  size : block.fileSize.toNat ≤ uf2FileMax
  offset : block.fileOffset < block.fileSize
  name : block.name.bytes.length ≤ uf2FilenameMax

instance (block : Uf2Block) : Decidable block.Accepted :=
  decidable_of_iff
    (block.magic1 = uf2Magic1 ∧ block.magic2 = uf2Magic2 ∧ block.magic3 = uf2Magic3 ∧
      block.flags &&& uf2FlagIgnore = 0 ∧ block.flags &&& uf2FlagFile ≠ 0 ∧
      block.dataBytes.toNat ≤ uf2PayloadMax ∧ block.fileSize.toNat ≤ uf2FileMax ∧
      block.fileOffset < block.fileSize ∧ block.name.bytes.length ≤ uf2FilenameMax)
    ⟨fun ⟨m1, m2, m3, kept, file, payload, size, offset, name⟩ =>
        ⟨m1, m2, m3, kept, file, payload, size, offset, name⟩,
      fun ok => ⟨ok.magic1, ok.magic2, ok.magic3, ok.kept, ok.file, ok.payload, ok.size, ok.offset, ok.name⟩⟩

section Loop

variable {dstdir : CString} {usePaths : Bool}

theorem uf2UnpackLoop_end {stream : Bytes} (short : stream.length < uf2BlockSize) :
    uf2UnpackLoop dstdir usePaths stream = return .unk := by
  rw [uf2UnpackLoop, if_pos short]

def uf2UnpackBlock (dstdir : CString) (usePaths : Bool) (block : Uf2Block) (next : Proc Kernel Err) :
    Proc Kernel Err := do
  let realname := uf2Map uf2RealnameSize dstdir block.name usePaths
  let ret ← uf2MkdirFor realname
  if ret < 0 then return .io
  else
    let ret ← uf2WriteInto realname (block.data.set 475 0) block.dataBytes block.fileOffset block.fileSize
    if ret < 0 then return .io else next

theorem uf2UnpackLoop_block (block : Uf2Block) (rest : Bytes) :
    uf2UnpackLoop dstdir usePaths (block.bytes ++ rest) =
      if block.magic1 ≠ uf2Magic1 ∨ block.magic2 ≠ uf2Magic2 ∨ block.magic3 ≠ uf2Magic3 then
        uf2UnpackLoop dstdir usePaths rest
      else if block.flags &&& uf2FlagIgnore ≠ 0 ∨ block.flags &&& uf2FlagFile = 0 then
        uf2UnpackLoop dstdir usePaths rest
      else if uf2PayloadMax < block.dataBytes.toNat ∨ uf2FileMax < block.fileSize.toNat ∨
          block.fileSize ≤ block.fileOffset then
        uf2UnpackLoop dstdir usePaths rest
      else if uf2FilenameMax < block.name.bytes.length then uf2UnpackLoop dstdir usePaths rest
      else uf2UnpackBlock dstdir usePaths block (uf2UnpackLoop dstdir usePaths rest) := by
  have long : ¬ (block.bytes ++ rest).length < uf2BlockSize := by
    rw [List.length_append, block.bytes_length]
    omega
  have front : (block.bytes ++ rest).take uf2BlockSize = block.bytes := List.take_left' block.bytes_length
  have back : (block.bytes ++ rest).drop uf2BlockSize = rest := List.drop_left' block.bytes_length
  rw [uf2UnpackLoop, if_neg long, front, back, block.ofBytes_bytes]
  rfl

theorem uf2UnpackLoop_rejected {block : Uf2Block} (rejected : ¬ block.Accepted) (rest : Bytes) :
    uf2UnpackLoop dstdir usePaths (block.bytes ++ rest) = uf2UnpackLoop dstdir usePaths rest := by
  rw [uf2UnpackLoop_block]
  by_cases magic : block.magic1 ≠ uf2Magic1 ∨ block.magic2 ≠ uf2Magic2 ∨ block.magic3 ≠ uf2Magic3
  · rw [if_pos magic]
  · rw [if_neg magic]
    by_cases flags : block.flags &&& uf2FlagIgnore ≠ 0 ∨ block.flags &&& uf2FlagFile = 0
    · rw [if_pos flags]
    · rw [if_neg flags]
      by_cases sizes : uf2PayloadMax < block.dataBytes.toNat ∨ uf2FileMax < block.fileSize.toNat ∨
          block.fileSize ≤ block.fileOffset
      · rw [if_pos sizes]
      · rw [if_neg sizes]
        by_cases name : uf2FilenameMax < block.name.bytes.length
        · rw [if_pos name]
        · simp only [ne_eq, not_or, Classical.not_not, Nat.not_lt, UInt32.not_le] at magic flags sizes name
          exact absurd ⟨magic.1, magic.2.1, magic.2.2, flags.1, flags.2, sizes.1, sizes.2.1, sizes.2.2, name⟩ rejected

theorem uf2UnpackLoop_accepted {block : Uf2Block} (accepted : block.Accepted) (rest : Bytes) :
    uf2UnpackLoop dstdir usePaths (block.bytes ++ rest) =
      uf2UnpackBlock dstdir usePaths block (uf2UnpackLoop dstdir usePaths rest) := by
  rw [uf2UnpackLoop_block, if_neg, if_neg, if_neg, if_neg (Nat.not_lt.mpr accepted.name)]
  · simp only [not_or, Nat.not_lt, UInt32.not_le]
    exact ⟨accepted.payload, accepted.size, accepted.offset⟩
  · simp only [ne_eq, not_or, Classical.not_not]
    exact ⟨accepted.kept, accepted.file⟩
  · simp only [ne_eq, not_or, Classical.not_not]
    exact ⟨accepted.magic1, accepted.magic2, accepted.magic3⟩

end Loop

end Ev3duder
