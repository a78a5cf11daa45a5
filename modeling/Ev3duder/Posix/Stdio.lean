import Ev3duder.Posix.Kernel

namespace Ev3duder.Posix

open Data

/-! Buffered files, one of which is written while others are read. -/

/-- A `FILE` that is open for reading, or the one that is written. -/
structure Stream where
  content : Bytes
  position : Nat
deriving DecidableEq, Repr

structure Stdio where
  files : FileSystem
  dst : Stream
  answers : List Answer

def attempt : Proc Stdio Answer := fun world =>
  (some (world.answers.headD .success), { world with answers := world.answers.tail })

/-- `fopen(path, "rb")` of a regular file. -/
def fopen (path : CString) : Proc Stdio (Option Stream) := do
  match ← attempt with
  | .failure _ => return none
  | _ => do
      let content ← Proc.gets fun world => world.files.readFile path
      return content.map (⟨·, 0⟩)

def ftell (stream : Stream) : Proc Stdio (Option Nat) := do
  match ← attempt with
  | .failure _ => return none
  | _ => return some stream.position

/-- `fseek(stream, position, SEEK_SET)` -/
def fseek (stream : Stream) (position : Nat) : Proc Stdio (Option Stream) := do
  match ← attempt with
  | .failure _ => return none
  | _ => return some { stream with position := position }

def fread (stream : Stream) (count : Nat) : Proc Stdio (Bytes × Stream) := do
  let take (count : Nat) :=
    let bytes := (stream.content.drop stream.position).take count
    (bytes, { stream with position := stream.position + bytes.length })
  match ← attempt with
  | .failure _ => return take 0
  | .short limit => return take (min limit count)
  | .success => return take count

/-- `fseek(dst, position, SEEK_SET) == 0` -/
def seekDst (position : Nat) : Proc Stdio Bool := do
  match ← attempt with
  | .failure _ => return false
  | _ => do
      Proc.modify fun world => { world with dst := { world.dst with position := position } }
      return true

/-- `fwrite(bytes, length, 1, dst) == 1`; on a failure some of the bytes may have been written. -/
def writeDst (bytes : Bytes) : Proc Stdio Bool := do
  let put (bytes : Bytes) : Proc Stdio Unit := Proc.modify fun world =>
    { world with dst := ⟨overlay world.dst.content world.dst.position bytes, world.dst.position + bytes.length⟩ }
  match ← attempt with
  | .success => do
      put bytes
      return true
  | .short count => do
      put (bytes.take (min count (bytes.length - 1)))
      return false
  | .failure _ => return false

section Quiet

variable (files : FileSystem) (dst : Stream)

theorem fopen_quiet {path : CString} {content : Bytes} (found : files.readFile path = some content) :
    fopen path ⟨files, dst, []⟩ = (some (some ⟨content, 0⟩), ⟨files, dst, []⟩) := by
  have read : fopen path ⟨files, dst, []⟩ = (some ((files.readFile path).map (⟨·, 0⟩)), ⟨files, dst, []⟩) := rfl
  rw [read, found]
  rfl

theorem ftell_quiet (stream : Stream) :
    ftell stream ⟨files, dst, []⟩ = (some (some stream.position), ⟨files, dst, []⟩) := rfl

theorem fseek_quiet (stream : Stream) (position : Nat) :
    fseek stream position ⟨files, dst, []⟩ = (some (some { stream with position := position }), ⟨files, dst, []⟩) := rfl

theorem fread_quiet (stream : Stream) (count : Nat) :
    fread stream count ⟨files, dst, []⟩ =
      (some ((stream.content.drop stream.position).take count,
        { stream with position := stream.position + ((stream.content.drop stream.position).take count).length }),
        ⟨files, dst, []⟩) := rfl

theorem seekDst_quiet (position : Nat) :
    seekDst position ⟨files, dst, []⟩ = (some true, ⟨files, { dst with position := position }, []⟩) := rfl

theorem writeDst_quiet (bytes : Bytes) :
    writeDst bytes ⟨files, dst, []⟩ =
      (some true, ⟨files, ⟨overlay dst.content dst.position bytes, dst.position + bytes.length⟩, []⟩) := rfl

end Quiet

/-- The coming calls do what they are asked to do. -/
def Stdio.calm (world : Stdio) : Stdio := { world with answers := [] }

theorem attempt_mirrors {α : Type} {good : α → Prop} {next : Answer → Proc Stdio α}
    (success : Proc.Mirrors Stdio.calm good (next .success))
    (same : ∀ answer world value after, next answer world = (some value, after) → good value →
      next .success world = (some value, after)) : Proc.Mirrors Stdio.calm good (attempt >>= next) := by
  intro world value after returned holds
  obtain ⟨answer, middle, tried, rest⟩ := Proc.bind_inversion returned
  have untouched : middle.calm = world.calm := (congrArg (Stdio.calm ∘ Prod.snd) tried).symm
  have again := success middle value after (same answer middle value after rest holds) holds
  rw [untouched] at again
  exact again

theorem refusable_mirrors {α : Type} {good : α → Prop} {next : Answer → Proc Stdio α}
    (success : Proc.Mirrors Stdio.calm good (next .success))
    (refused : ∀ errno, Proc.Returns (¬ good ·) (next (.failure errno)))
    (short : ∀ count, next (.short count) = next .success) : Proc.Mirrors Stdio.calm good (attempt >>= next) := by
  refine attempt_mirrors success ?_
  intro answer world value after returned holds
  cases answer with
  | failure errno => exact absurd holds (refused errno world value after returned)
  | short count => rwa [short count] at returned
  | success => exact returned

theorem fopen_mirrors (path : CString) : Proc.Mirrors Stdio.calm (· ≠ none) (fopen path) := by
  refine refusable_mirrors ?_ (fun errno => Proc.returns_pure (Classical.not_not.mpr rfl)) fun count => rfl
  intro world value after returned _
  cases returned
  rfl

theorem ftell_mirrors (stream : Stream) : Proc.Mirrors Stdio.calm (· ≠ none) (ftell stream) :=
  refusable_mirrors (Proc.mirrors_pure _) (fun _ => Proc.returns_pure (Classical.not_not.mpr rfl)) fun _ => rfl

theorem fseek_mirrors (stream : Stream) (position : Nat) :
    Proc.Mirrors Stdio.calm (· ≠ none) (fseek stream position) :=
  refusable_mirrors (Proc.mirrors_pure _) (fun _ => Proc.returns_pure (Classical.not_not.mpr rfl)) fun _ => rfl

theorem fread_mirrors (stream : Stream) (count : Nat) :
    Proc.Mirrors Stdio.calm (·.1.length = count) (fread stream count) := by
  refine attempt_mirrors (Proc.mirrors_pure _) ?_
  intro answer world value after returned whole
  cases answer with
  | failure errno =>
      cases returned
      have none : 0 = count := by simpa only [List.take_zero, List.length_nil] using whole
      rw [← none]
      rfl
  | short limit =>
      cases returned
      have enough : min limit count = count := by
        simp only [List.length_take] at whole
        omega
      rw [enough]
      rfl
  | success => exact returned

theorem seekDst_mirrors (position : Nat) : Proc.Mirrors Stdio.calm (· = true) (seekDst position) := by
  refine refusable_mirrors ?_ (fun errno => Proc.returns_pure Bool.false_ne_true) fun count => rfl
  intro world value after returned _
  cases returned
  rfl

theorem writeDst_mirrors (bytes : Bytes) : Proc.Mirrors Stdio.calm (· = true) (writeDst bytes) := by
  refine attempt_mirrors ?_ ?_
  · intro world value after returned _
    cases returned
    rfl
  · intro answer world value after returned whole
    cases answer with
    | failure errno =>
        cases returned
        cases whole
    | short count =>
        cases returned
        cases whole
    | success => exact returned

end Ev3duder.Posix
