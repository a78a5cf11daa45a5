import Ev3duder.Commands.Simple

namespace Ev3duder

open Data

/-! # Programs that call the shell

`mkrbf` puts a shell command into the bytecode of a program of one thread.
-/

def rbfMagic : Bytes := ascii "LEGO"

def rbfBefore : Bytes :=
  [0x68, 0x00, 0x01, 0x00, 0x00, 0x00, 0x00, 0x00, 0x1C, 0x00, 0x00, 0x00, 0x00, 0x00, 0x00, 0x00, 0x08, 0x00, 0x00,
    0x00, 0x60, 0x80]

def rbfAfter : Bytes := [0x44, 0x85, 0x82, 0xE8, 0x03, 0x40, 0x86, 0x40, 0x0A]

def rbfSize (cmd : CString) : Nat :=
  rbfMagic.length + 4 + rbfBefore.length + cmd.bytes.length + 1 + rbfAfter.length

/-- `mkrbf`.  The buffer has `static_sz` bytes, which has 32 bits: nothing where that is less than what goes in. -/
def mkrbf (cmd : CString) : Option Bytes :=
  if rbfSize cmd < 2 ^ 32 then
    some (rbfMagic ++ (leBytes 4 (rbfSize cmd) ++ (rbfBefore ++ (cmd.bytes ++ (0 :: rbfAfter)))))
  else none

/-- Suffix for commands executed with exec. -/
def execSuffix : CString where
  bytes := ascii (" 2>&1 | awk 'BEGIN\x7bRS=\"\\0\"\x7d;\x7bprintf \"\\t%08x\\n%s\",length($0),$0\x7d'" ++
    " | dd bs=1000 of=/dev/lms_usbdev")
  noNul := by decide

/-- Filename used for executing command with `exec`. -/
def execName : CString := ⟨ascii "/tmp/Executing shell cmd.rbf", by decide⟩

/-- The command that `exec` hands to the shell. -/
def execCommand (cmd : CString) : CString where
  bytes := cmd.bytes ++ execSuffix.bytes
  noNul := by
    rw [List.mem_append]
    exact not_or.mpr ⟨cmd.noNul, execSuffix.noNul⟩

/-- A file of this layout whose size field is its size, and the shell command in it. -/
def readRbf (rbf : Bytes) : Option CString :=
  if rbf.take 4 = rbfMagic ∧ leValue ((rbf.drop 4).take 4) = rbf.length ∧ (rbf.drop 8).take 22 = rbfBefore ∧
      (rbf.drop 30).drop ((cstr (rbf.drop 30)).bytes.length + 1) = rbfAfter then
    some (cstr (rbf.drop 30))
  else none

section Layout

variable {cmd : CString} {rbf : Bytes}

theorem rbf_parts {field : Bytes} (four : field.length = 4) (rest : Bytes) :
    (rbfMagic ++ (field ++ (rbfBefore ++ rest))).take 4 = rbfMagic ∧
      ((rbfMagic ++ (field ++ (rbfBefore ++ rest))).drop 4).take 4 = field ∧
      ((rbfMagic ++ (field ++ (rbfBefore ++ rest))).drop 8).take 22 = rbfBefore ∧
      (rbfMagic ++ (field ++ (rbfBefore ++ rest))).drop 30 = rest := by
  have first : (rbfMagic ++ (field ++ (rbfBefore ++ rest))).drop 4 = field ++ (rbfBefore ++ rest) := rfl
  have second : (rbfMagic ++ (field ++ (rbfBefore ++ rest))).drop 8 = rbfBefore ++ rest := by
    rw [show 8 = 4 + 4 from rfl, ← List.drop_drop, first, List.drop_left' four]
  have third : (rbfMagic ++ (field ++ (rbfBefore ++ rest))).drop 30 = rest := by
    rw [show 30 = 8 + 22 from rfl, ← List.drop_drop, second]
    rfl
  refine ⟨rfl, ?_, ?_, third⟩
  · rw [first, List.take_left' four]
  · rw [second]
    rfl

theorem rbf_length (cmd : CString) (size : Nat) :
    (rbfMagic ++ (leBytes 4 size ++ (rbfBefore ++ (cmd.bytes ++ (0 :: rbfAfter))))).length = rbfSize cmd := by
  simp only [rbfSize, List.length_append, List.length_cons, leBytes_length]
  omega

theorem mkrbf_length (made : mkrbf cmd = some rbf) : rbf.length = rbfSize cmd := by
  rw [mkrbf] at made
  split at made
  · cases made
    exact rbf_length cmd _
  · nomatch made

theorem mkrbf_small (made : mkrbf cmd = some rbf) : rbf.length < 2 ^ 32 := by
  rw [mkrbf_length made]
  rw [mkrbf] at made
  split at made
  · assumption
  · nomatch made

theorem readRbf_mkrbf (made : mkrbf cmd = some rbf) : readRbf rbf = some cmd := by
  rw [mkrbf] at made
  split at made
  · rename_i fits
    cases made
    obtain ⟨magic, field, code, rest⟩ := rbf_parts (leBytes_length 4 (rbfSize cmd)) (cmd.bytes ++ (0 :: rbfAfter))
    have behind : (cmd.bytes ++ (0 :: rbfAfter)).drop (cmd.bytes.length + 1) = rbfAfter := by
      rw [← List.drop_drop, List.drop_left' rfl]
      rfl
    rw [readRbf, rest, cstr_terminated, magic, field, code, leValue_leBytes_of_lt fits, rbf_length]
    exact if_pos ⟨rfl, rfl, rfl, behind⟩
  · nomatch made

theorem rbf_of_parts (magic : rbf.take 4 = rbfMagic) (code : (rbf.drop 8).take 22 = rbfBefore) :
    rbf = rbfMagic ++ ((rbf.drop 4).take 4 ++ (rbfBefore ++ rbf.drop 30)) := by
  calc rbf
    _ = rbf.take 4 ++ ((rbf.drop 4).take 4 ++ ((rbf.drop 8).take 22 ++ (rbf.drop 8).drop 22)) := by
      rw [List.take_append_drop, ← List.drop_drop (i := 4) (j := 4), List.take_append_drop, List.take_append_drop]
    _ = _ := by rw [magic, code, List.drop_drop]

/-- Reading the layout and writing it undo each other. -/
theorem mkrbf_iff : mkrbf cmd = some rbf ↔ readRbf rbf = some cmd := by
  refine ⟨readRbf_mkrbf, ?_⟩
  intro read
  rw [readRbf] at read
  split at read
  · rename_i laid
    obtain ⟨magic, size, code, behind⟩ := laid
    cases read
    have inside : (cstr (rbf.drop 30)).bytes.length < (rbf.drop 30).length := by
      have nine := congrArg List.length behind
      rw [List.length_drop] at nine
      have some : rbfAfter.length = 9 := rfl
      omega
    have text := cstr_split inside
    rw [behind] at text
    have four : ((rbf.drop 4).take 4).length = 4 := by
      simp only [List.length_take, List.length_drop] at inside ⊢
      omega
    have field := leBytes_leValue ((rbf.drop 4).take 4)
    have bound := leValue_lt ((rbf.drop 4).take 4)
    rw [four, size] at field bound
    have whole := rbf_of_parts magic code
    rw [text, ← field] at whole
    generalize cstr (rbf.drop 30) = cmd at whole
    have total : rbf.length = rbfSize cmd := by
      rw [← rbf_length cmd rbf.length]
      exact congrArg List.length whole
    rw [total] at whole bound
    rw [mkrbf, if_pos (show rbfSize cmd < 2 ^ 32 from bound), ← whole]
  · nomatch read

end Layout

end Ev3duder
