import Ev3duder.Data.Process
import Ev3duder.Posix.FileSystem

namespace Ev3duder.Posix

open Data

/-! System calls on files.

Whether a call works is decided by the file system and by the kernel's own troubles, a full disk or a broken
medium.  The latter are answers that are given out call by call.
-/

inductive Answer where
  | success
  | failure (errno : Errno)
  /-- For `write`: only that many bytes were stored. -/
  | short (count : Nat)
deriving DecidableEq, Repr

inductive Call where
  | mkdir (path : CString) (result : Except Errno Location)
  | open (path : CString) (result : Except Errno Location)
  | ftruncate (file : Location) (size : Nat) (result : Except Errno Unit)
  | lseek (file : Location) (offset : Nat) (result : Except Errno Unit)
  | write (file : Location) (offset : Nat) (bytes : Bytes) (result : Except Errno Nat)

/-- After the last of its `answers` the kernel has no troubles any more. -/
structure Kernel where
  files : FileSystem
  answers : List Answer
  log : List Call

structure Descriptor where
  file : Location
  offset : Nat
deriving DecidableEq, Repr

namespace Kernel

def answer (kernel : Kernel) : Answer := kernel.answers.headD .success

def after (kernel : Kernel) (files : FileSystem) (call : Call) : Kernel :=
  ⟨files, kernel.answers.tail, kernel.log ++ [call]⟩

@[simp] theorem after_answers (kernel : Kernel) (files : FileSystem) (call : Call) :
    (kernel.after files call).answers = kernel.answers.tail := rfl

@[simp] theorem after_log (kernel : Kernel) (files : FileSystem) (call : Call) :
    (kernel.after files call).log = kernel.log ++ [call] := rfl

@[simp] theorem after_files (kernel : Kernel) (files : FileSystem) (call : Call) :
    (kernel.after files call).files = files := rfl

def outcome {α : Type} (kernel : Kernel) (result : Except Errno α) : Except Errno α :=
  match kernel.answer with
  | .failure errno => .error errno
  | _ => result

theorem outcome_success {α : Type} {kernel : Kernel} (quiet : kernel.answers = []) (result : Except Errno α) :
    kernel.outcome result = result := by
  rw [outcome, answer, quiet]
  rfl

theorem outcome_ok {α : Type} {kernel : Kernel} {result : Except Errno α} {value : α}
    (done : kernel.outcome result = .ok value) : result = .ok value := by
  unfold outcome at done
  cases answer : kernel.answer with
  | failure errno =>
      rw [answer] at done
      cases done
  | success =>
      rw [answer] at done
      exact done
  | short count =>
      rw [answer] at done
      exact done

end Kernel

/-- The file that `open` for writing reaches: one that exists, or one that is to be created. -/
def FileSystem.writable (files : FileSystem) (path : CString) : Except Errno Location := do
  let location ← files.locate path
  match files.nodes location with
  | some .directory => .error .isDir
  | _ => .ok location

theorem FileSystem.writable_ok {files : FileSystem} {path : CString} {location : Location} :
    files.writable path = .ok location ↔ files.locate path = .ok location ∧ files.nodes location ≠ some .directory := by
  unfold FileSystem.writable
  rw [FileSystem.bind_ok]
  constructor
  · rintro ⟨found, located, result⟩
    rcases node : files.nodes found with _ | ⟨content⟩ | _ | target <;> rw [node] at result <;> cases result
    · exact ⟨located, by simp [node]⟩
    · exact ⟨located, by simp [node]⟩
    · exact ⟨located, by simp [node]⟩
  · rintro ⟨located, notDirectory⟩
    refine ⟨location, located, ?_⟩
    rcases node : files.nodes location with _ | ⟨content⟩ | _ | target
    · rfl
    · rfl
    · exact absurd node notDirectory
    · rfl

theorem FileSystem.extends_put_writable {files : FileSystem} {path : CString} {location : Location}
    (writable : files.writable path = .ok location) (content : Bytes) :
    files.Extends (files.put location (.file content)) := by
  obtain ⟨located, notDirectory⟩ := FileSystem.writable_ok.mp writable
  exact FileSystem.extends_put_file content notDirectory (FileSystem.locate_plain located)

def mkdir (path : CString) : Proc Kernel (Except Errno Location) := fun kernel =>
  let result := kernel.outcome (kernel.files.vacant path)
  let files :=
    match result with
    | .ok location => kernel.files.put location .directory
    | .error _ => kernel.files
  (some result, kernel.after files (.mkdir path result))

def FileSystem.opened (files : FileSystem) (location : Location) : FileSystem :=
  match files.contents location with
  | some _ => files
  | none => files.put location (.file [])

/-- `open(path, O_WRONLY | O_CREAT, 0644)`. -/
def openWrite (path : CString) : Proc Kernel (Except Errno Descriptor) := fun kernel =>
  let result := kernel.outcome (kernel.files.writable path)
  let files :=
    match result with
    | .ok location => kernel.files.opened location
    | .error _ => kernel.files
  (some (result.map (⟨·, 0⟩)), kernel.after files (.open path result))

def FileSystem.rewrite (files : FileSystem) (file : Location) (change : Bytes → Bytes) : FileSystem :=
  files.put file (.file (change ((files.contents file).getD [])))

def ftruncate (fd : Descriptor) (size : Nat) : Proc Kernel (Except Errno Unit) := fun kernel =>
  let result := kernel.outcome (.ok ())
  let files :=
    match result with
    | .ok _ => kernel.files.rewrite fd.file (padded size)
    | .error _ => kernel.files
  (some result, kernel.after files (.ftruncate fd.file size result))

/-- `lseek(fd, offset, SEEK_SET)`. -/
def lseek (fd : Descriptor) (offset : Nat) : Proc Kernel (Except Errno Descriptor) := fun kernel =>
  let result := kernel.outcome (.ok ())
  (some (result.map fun _ => { fd with offset := offset }),
    kernel.after kernel.files (.lseek fd.file offset result))

/-- The number of bytes stored; a call that stores none leaves the file as it is. -/
def write (fd : Descriptor) (bytes : Bytes) : Proc Kernel (Except Errno Nat) := fun kernel =>
  let result :=
    match kernel.answer with
    | .success => .ok bytes.length
    | .short count => .ok (min count bytes.length)
    | .failure errno => .error errno
  let files :=
    match result with
    | .ok 0 => kernel.files
    | .ok count => kernel.files.rewrite fd.file fun content => overlay content fd.offset (bytes.take count)
    | .error _ => kernel.files
  (some result, kernel.after files (.write fd.file fd.offset bytes result))

theorem FileSystem.rewrite_put (files : FileSystem) (location : Location) (content : Bytes) (change : Bytes → Bytes) :
    (files.put location (.file content)).rewrite location change = files.put location (.file (change content)) := by
  have read : (files.put location (.file content)).contents location = some content := by
    simp [FileSystem.contents]
  rw [FileSystem.rewrite, read, put_put]
  rfl

theorem FileSystem.opened_rewrite (files : FileSystem) (location : Location) (change : Bytes → Bytes) :
    (files.opened location).rewrite location change =
      files.put location (.file (change ((files.contents location).getD []))) := by
  unfold FileSystem.opened
  cases found : files.contents location with
  | some content =>
      simp only [FileSystem.rewrite, found]
  | none => exact files.rewrite_put location [] change

theorem FileSystem.extends_opened {files : FileSystem} {path : CString} {location : Location}
    (writable : files.writable path = .ok location) : files.Extends (files.opened location) := by
  unfold FileSystem.opened
  cases files.contents location with
  | some content => exact .refl _
  | none => exact FileSystem.extends_put_writable writable []

theorem FileSystem.opened_file (files : FileSystem) (location : Location) :
    ∃ content, (files.opened location).nodes location = some (.file content) := by
  unfold FileSystem.opened
  cases found : files.contents location with
  | none => exact ⟨[], files.put_same _ _⟩
  | some content =>
      unfold FileSystem.contents at found
      rcases node : files.nodes location with _ | ⟨old⟩ | _ | target <;> rw [node] at found <;> cases found
      exact ⟨content, rfl⟩

theorem FileSystem.extends_rewrite {files : FileSystem} {location : Location} {content : Bytes}
    (file : files.nodes location = some (.file content)) (change : Bytes → Bytes) :
    files.Extends (files.rewrite location change) :=
  FileSystem.extends_put_file _ (by rw [file]; simp) (fun target => by rw [file]; simp)

/-- The files changed by new directories only. -/
structure OnlyDirectories (old new : FileSystem) : Prop where
  grown : old.Extends new
  contents : new.contents = old.contents

theorem OnlyDirectories.refl (files : FileSystem) : OnlyDirectories files files := ⟨.refl files, rfl⟩

theorem OnlyDirectories.trans {first second third : FileSystem} (head : OnlyDirectories first second)
    (tail : OnlyDirectories second third) : OnlyDirectories first third :=
  ⟨head.grown.trans tail.grown, tail.contents.trans head.contents⟩

theorem mkdir_files (path : CString) (kernel : Kernel) :
    OnlyDirectories kernel.files (mkdir path kernel).2.files := by
  unfold mkdir
  cases made : kernel.outcome (kernel.files.vacant path) with
  | error errno => exact .refl _
  | ok location =>
      have free := FileSystem.vacant_free (Kernel.outcome_ok made)
      exact ⟨FileSystem.extends_put_directory free, FileSystem.contents_put_directory free⟩

def Answer.Fails (answer : Answer) : Prop := ∃ errno, answer = .failure errno

/-- The number of bytes that a `write` with this answer stores. -/
def Answer.stored (answer : Answer) (bytes : Bytes) : Nat :=
  match answer with
  | .success => bytes.length
  | .short count => min count bytes.length
  | .failure _ => 0

section Succeeded

variable {kernel after : Kernel} {fd : Descriptor}

theorem openWrite_ok {path : CString} (opened : openWrite path kernel = (some (.ok fd), after)) :
    ∃ location, kernel.files.writable path = .ok location ∧ fd = ⟨location, 0⟩ ∧
      after = kernel.after (kernel.files.opened location) (.open path (.ok location)) := by
  unfold openWrite at opened
  cases result : kernel.outcome (kernel.files.writable path) with
  | error errno =>
      rw [result] at opened
      cases opened
  | ok location =>
      rw [result] at opened
      cases opened
      exact ⟨location, Kernel.outcome_ok result, rfl, rfl⟩

theorem ftruncate_ok {size : Nat} {done : Unit} (cut : ftruncate fd size kernel = (some (.ok done), after)) :
    after = kernel.after (kernel.files.rewrite fd.file (padded size)) (.ftruncate fd.file size (.ok ())) := by
  unfold ftruncate at cut
  cases result : kernel.outcome (.ok ()) with
  | error errno =>
      rw [result] at cut
      cases cut
  | ok done =>
      rw [result] at cut
      cases cut
      rfl

theorem lseek_ok {moved : Descriptor} {offset : Nat} (sought : lseek fd offset kernel = (some (.ok moved), after)) :
    moved = { fd with offset := offset } ∧ after = kernel.after kernel.files (.lseek fd.file offset (.ok ())) := by
  unfold lseek at sought
  cases result : kernel.outcome (.ok ()) with
  | error errno =>
      rw [result] at sought
      cases sought
  | ok done =>
      rw [result] at sought
      cases sought
      exact ⟨rfl, rfl⟩

/-- Behind no hole, storing nothing and leaving the file alone are the same. -/
theorem write_ok {bytes : Bytes} {count : Nat} (stored : write fd bytes kernel = (some (.ok count), after))
    {files : FileSystem} {content : Bytes} (file : kernel.files = files.put fd.file (.file content))
    (within : fd.offset ≤ content.length) :
    ¬ kernel.answer.Fails ∧ count = kernel.answer.stored bytes ∧
      after = kernel.after (files.put fd.file (.file (overlay content fd.offset (bytes.take count))))
        (.write fd.file fd.offset bytes (.ok count)) := by
  have passed : ¬ kernel.answer.Fails := by
    rintro ⟨errno, answer⟩
    unfold write at stored
    rw [answer] at stored
    cases stored
  have result : count = kernel.answer.stored bytes := by
    unfold write at stored
    cases answer : kernel.answer <;> rw [answer] at stored <;> cases stored <;> rfl
  refine ⟨passed, result, ?_⟩
  have same : (match kernel.answer with
      | .success => .ok bytes.length
      | .short short => .ok (min short bytes.length)
      | .failure errno => .error errno : Except Errno Nat) = .ok count := by
    have returned := congrArg Prod.fst stored
    exact Option.some.inj returned
  have left := (congrArg Prod.snd stored).symm
  simp only [write, same] at left
  rw [left]
  congr 1
  cases count with
  | zero =>
      rw [List.take_zero, overlay_none within]
      exact file
  | succ count =>
      rw [file]
      exact files.rewrite_put fd.file content _

end Succeeded

/-- A slice of which a `write` has stored the first `count` bytes. -/
structure Store where
  file : Location
  offset : Nat
  bytes : Bytes
  count : Nat
deriving DecidableEq, Repr

def Call.store : Call → Option Store
  | .write file offset bytes (.ok count) => some ⟨file, offset, bytes, count⟩
  | _ => none

def stores (log : List Call) : List Store := log.filterMap Call.store

theorem stores_snoc (log : List Call) (call : Call) : stores (log ++ [call]) = stores log ++ call.store.toList := by
  rw [stores, List.filterMap_append, stores]
  cases kept : call.store <;> simp [kept]

/-- The path that is opened for writing, with or without success. -/
def Call.target : Call → Option CString
  | .open path _ => some path
  | _ => none

def targets (log : List Call) : List CString := log.filterMap Call.target

/-- The call returns `value` and leaves `files` behind, and the next call goes as well. -/
def Works {α : Type} (call : Proc Kernel α) (kernel : Kernel) (value : α) (files : FileSystem) : Prop :=
  ∃ after, call kernel = (some value, after) ∧ after.answers = [] ∧ after.files = files

theorem Works.bind {α β : Type} {call : Proc Kernel α} {next : α → Proc Kernel β} {kernel : Kernel} {value : α}
    {result : β} {middle files : FileSystem} (works : Works call kernel value middle)
    (rest : ∀ after : Kernel, after.answers = [] → after.files = middle → Works (next value) after result files) :
    Works (call >>= next) kernel result files := by
  obtain ⟨after, returned, quiet, left⟩ := works
  obtain ⟨final, finished, done⟩ := rest after quiet left
  exact ⟨final, (Proc.bind_returned returned).trans finished, done⟩

theorem Kernel.after_quiet {kernel : Kernel} (quiet : kernel.answers = []) (files : FileSystem) (call : Call) :
    (kernel.after files call).answers = [] := by
  rw [Kernel.after_answers, quiet]
  rfl

section Quiet

variable {kernel : Kernel} (quiet : kernel.answers = [])

include quiet

theorem mkdir_works (path : CString) :
    Works (mkdir path) kernel (kernel.files.vacant path)
      (match kernel.files.vacant path with
      | .ok location => kernel.files.put location .directory
      | .error _ => kernel.files) := by
  refine ⟨_, ?_, kernel.after_quiet quiet _ (.mkdir path (kernel.files.vacant path)), rfl⟩
  rw [mkdir, Kernel.outcome_success quiet]

theorem openWrite_works {path : CString} {location : Location} (writable : kernel.files.writable path = .ok location) :
    Works (openWrite path) kernel (.ok ⟨location, 0⟩) (kernel.files.opened location) := by
  refine ⟨_, ?_, kernel.after_quiet quiet _ (.open path (.ok location)), rfl⟩
  rw [openWrite, Kernel.outcome_success quiet, writable]
  rfl

theorem ftruncate_works (fd : Descriptor) (size : Nat) :
    Works (ftruncate fd size) kernel (.ok ()) (kernel.files.rewrite fd.file (padded size)) := by
  refine ⟨kernel.after (kernel.files.rewrite fd.file (padded size)) (.ftruncate fd.file size (.ok ())), ?_,
    kernel.after_quiet quiet _ _, rfl⟩
  rw [ftruncate, Kernel.outcome_success quiet]

theorem lseek_works (fd : Descriptor) (offset : Nat) :
    Works (lseek fd offset) kernel (.ok { fd with offset := offset }) kernel.files := by
  refine ⟨_, ?_, kernel.after_quiet quiet _ (.lseek fd.file offset (.ok ())), rfl⟩
  rw [lseek, Kernel.outcome_success quiet]
  rfl

/-- Behind no hole, storing nothing and leaving the file alone are the same. -/
theorem write_works (fd : Descriptor) (bytes : Bytes) {files : FileSystem} {content : Bytes}
    (file : kernel.files = files.put fd.file (.file content)) (within : fd.offset ≤ content.length) :
    Works (write fd bytes) kernel (.ok bytes.length) (files.put fd.file (.file (overlay content fd.offset bytes))) := by
  have answer : kernel.answer = .success := by
    rw [Kernel.answer, quiet]
    rfl
  refine ⟨kernel.after (files.put fd.file (.file (overlay content fd.offset bytes)))
    (.write fd.file fd.offset bytes (.ok bytes.length)), ?_, kernel.after_quiet quiet _ _, rfl⟩
  cases bytes with
  | nil =>
      simp only [write, answer, List.length_nil]
      rw [overlay_none within, file]
  | cons byte bytes =>
      have all : (byte :: bytes).take (bytes.length + 1) = byte :: bytes := List.take_of_length_le (Nat.le_refl _)
      simp only [write, answer, List.length_cons, all]
      rw [file, FileSystem.rewrite_put]

end Quiet

end Ev3duder.Posix
