import Ev3duder.Commands.Simple
import Ev3duder.Data.Scan
import Ev3duder.Transport.Serial
import Mathlib.Logic.Function.Basic

namespace Ev3duder

open Data

/-! # The terminals behind a serial connection

`--serial=in,out` names two devices.  `bt_open` opens them and takes their terminals out of the line discipline,
`bt_close` puts back what was there before.
-/

/-- `struct termios`, as Linux has it. -/
structure Termios where
  iflag : UInt32
  oflag : UInt32
  cflag : UInt32
  lflag : UInt32
  line : UInt8
  cc : Vector UInt8 32
  ispeed : UInt32
  ospeed : UInt32
deriving DecidableEq, Repr

namespace Termios

/-- `BRKINT | ICRNL | IGNBRK | IGNCR | IGNPAR | INLCR | INPCK | ISTRIP | IXOFF | IXON | PARMRK` -/
def inputFlags : UInt32 :=
  0x2 ||| 0x100 ||| 0x1 ||| 0x80 ||| 0x4 ||| 0x40 ||| 0x10 ||| 0x20 ||| 0x1000 ||| 0x400 ||| 0x8

def opost : UInt32 := 0x1

/-- `CREAD | CS8` -/
def controlFlags : UInt32 := 0x80 ||| 0x30

/-- `ECHO | ICANON | ISIG | IEXTEN` -/
def localFlags : UInt32 := 0x8 ||| 0x2 ||| 0x1 ||| 0x8000

def vtime : Fin 32 := 5
def vmin : Fin 32 := 6

/-- What `set_termios` makes of the attributes it finds. -/
def raw (old : Termios) : Termios :=
  { old with
    iflag := old.iflag &&& ~~~inputFlags
    oflag := old.oflag &&& ~~~opost
    cflag := old.cflag ||| controlFlags
    lflag := old.lflag &&& ~~~localFlags
    cc := (old.cc.set vmin 1).set vtime 0 }

end Termios

inductive OpenMode where
  | rdonly | wronly | rdwr
deriving DecidableEq, Repr

def OpenMode.reads (mode : OpenMode) : Bool := mode ≠ .wronly
def OpenMode.writes (mode : OpenMode) : Bool := mode ≠ .rdonly

/-- How a `tcsetattr` ends.  It counts as successful when any of the changes could be made. -/
inductive SetOutcome where
  | failed
  | done
  | partly (attributes : Termios)
deriving DecidableEq, Repr

def SetOutcome.leaves (outcome : SetOutcome) (current requested : Termios) : Termios :=
  match outcome with
  | .failed => current
  | .done => requested
  | .partly attributes => attributes

/-- A terminal: its attributes, what was written to it, and what came in and was not read yet. -/
structure Terminal where
  attributes : Termios
  written : Bytes
  pending : Bytes
  hungUp : Bool
deriving DecidableEq, Repr

structure OpenTerminal where
  fd : Int
  terminal : Nat
  mode : OpenMode
deriving DecidableEq, Repr

/-- The terminals there are, which of them a device name stands for, and the open descriptors.  Several names may
stand for one terminal. -/
structure Tty where
  named : Bytes → Nat
  terminals : Nat → Terminal
  descriptors : List OpenTerminal
  unused : Nat

namespace Tty

def descriptor (world : Tty) (fd : Int) : Option OpenTerminal := world.descriptors.find? (·.fd = fd)

def setTerminal (world : Tty) (terminal : Nat) (changed : Terminal) : Tty :=
  { world with terminals := Function.update world.terminals terminal changed }

def setAttributes (world : Tty) (terminal : Nat) (attributes : Termios) : Tty :=
  world.setTerminal terminal { world.terminals terminal with attributes := attributes }

def opened (world : Tty) (terminal : Nat) (mode : OpenMode) : Tty :=
  { world with
    descriptors := ⟨world.unused, terminal, mode⟩ :: world.descriptors
    unused := world.unused + 1 }

@[simp] theorem opened_named (world : Tty) (terminal : Nat) (mode : OpenMode) :
    (world.opened terminal mode).named = world.named := rfl

@[simp] theorem opened_unused (world : Tty) (terminal : Nat) (mode : OpenMode) :
    (world.opened terminal mode).unused = world.unused + 1 := rfl

@[simp] theorem setAttributes_descriptors (world : Tty) (terminal : Nat) (attributes : Termios) :
    (world.setAttributes terminal attributes).descriptors = world.descriptors := rfl

@[simp] theorem setAttributes_descriptor (world : Tty) (terminal : Nat) (attributes : Termios) (fd : Int) :
    (world.setAttributes terminal attributes).descriptor fd = world.descriptor fd := rfl

@[simp] theorem setAttributes_same (world : Tty) (terminal : Nat) (attributes : Termios) :
    ((world.setAttributes terminal attributes).terminals terminal).attributes = attributes := by
  simp [setAttributes, setTerminal]

@[simp] theorem setAttributes_again (world : Tty) (terminal : Nat) (first second : Termios) :
    (world.setAttributes terminal first).setAttributes terminal second = world.setAttributes terminal second := by
  simp [setAttributes, setTerminal]

@[simp] theorem setAttributes_current (world : Tty) (terminal : Nat) :
    world.setAttributes terminal (world.terminals terminal).attributes = world := by
  simp [setAttributes, setTerminal]

end Tty

def openTty (file : Bytes) (mode : OpenMode) (succeeds : Bool) : Proc Tty Int := fun world =>
  if succeeds then (some (world.unused : Int), world.opened (world.named file) mode) else (some (-1), world)

def tcgetattr (fd : Int) (succeeds : Bool) : Proc Tty (Option Termios) := Proc.gets fun world =>
  match world.descriptor fd with
  | none => none
  | some found => if succeeds then some (world.terminals found.terminal).attributes else none

def tcsetattr (fd : Int) (requested : Termios) (outcome : SetOutcome) : Proc Tty Int := fun world =>
  match world.descriptor fd with
  | none => (some (-1), world)
  | some found =>
      (some (if outcome = .failed then -1 else 0), world.setAttributes found.terminal
        (outcome.leaves (world.terminals found.terminal).attributes requested))

def closeTty (fd : Int) : Proc Tty Unit := Proc.modify fun world =>
  { world with descriptors := world.descriptors.filter (·.fd ≠ fd) }

/-- What the two calls of one `set_termios` meet. -/
structure SetTermios where
  get : Bool
  set : SetOutcome
deriving DecidableEq, Repr

/-- What the calls of `bt_open` meet, in their order. -/
structure OpenOutcomes where
  openRead : Bool
  openWrite : Bool
  read : SetTermios
  write : SetTermios
deriving DecidableEq, Repr

/-- The same for `bt_close`. -/
structure CloseOutcomes where
  write : SetOutcome
  read : SetOutcome
deriving DecidableEq, Repr

structure BtHandle where
  readFd : Int
  writeFd : Int
  oldReadMode : Termios
  oldWriteMode : Termios
deriving DecidableEq, Repr

/-- The old attributes, or nothing for a negative result. -/
def setTermios (fd : Int) (outcomes : SetTermios) : Proc Tty (Option Termios) := do
  match ← tcgetattr fd outcomes.get with
  | none => return none
  | some old =>
      if (← tcsetattr fd old.raw outcomes.set) < 0 then return none
      else return some old

/-- The default device, `BT`. -/
def btDevice : Bytes := ascii "/dev/cu.EV3-SerialPort"

def btOpen (file file2 : Option Bytes) (outcomes : OpenOutcomes) : Proc Tty (Option BtHandle) := do
  let device := file.getD btDevice
  let (readFd, writeFd) ←
    if file2.isSome then do
      let readFd ← openTty device .rdonly outcomes.openRead
      let writeFd ← openTty device .wronly outcomes.openWrite
      pure (readFd, writeFd)
    else do
      let fd ← openTty device .rdwr outcomes.openRead
      pure (fd, fd)
  if writeFd = -1 ∨ readFd = -1 then return none
  else
    match ← setTermios readFd outcomes.read with
    | none => return none
    | some oldReadMode =>
        match ← setTermios writeFd outcomes.write with
        | none => return none
        | some oldWriteMode => return some ⟨readFd, writeFd, oldReadMode, oldWriteMode⟩

def btClose (cb : BtHandle) (outcomes : CloseOutcomes) : Proc Tty Unit := do
  let _ ← tcsetattr cb.writeFd cb.oldWriteMode outcomes.write
  let _ ← tcsetattr cb.readFd cb.oldReadMode outcomes.read
  closeTty cb.writeFd
  closeTty cb.readFd

/-- What happens between `bt_open` and `bt_close`: something comes in on a terminal, or the handle is written or
read, with the answers of the kernel to the calls of the loop. -/
inductive PortUse where
  | arrives (terminal : Nat) (bytes : Bytes)
  | hangsUp (terminal : Nat)
  | write (buf : Bytes) (answers : Answers)
  | read (buf : Memory) (count : Nat) (milliseconds : Int) (answers : Answers)

inductive PortResult where
  | outside
  | written (ret : Int)
  | read (ret : Int) (buf : Memory)

namespace Tty

/-- A use that reads from the one terminal and writes to the other.  Without a terminal every call fails. -/
def useOn (source destination : Option Nat) (use : PortUse) (world : Tty) : Option (PortResult × Tty) :=
  match use with
  | .arrives terminal bytes =>
      let found := world.terminals terminal
      some (.outside, world.setTerminal terminal { found with pending := found.pending ++ bytes })
  | .hangsUp terminal =>
      some (.outside, world.setTerminal terminal { world.terminals terminal with hungUp := true })
  | .write buf answers =>
      match destination with
      | none => some (.written 0, world)
      | some terminal =>
          let found := world.terminals terminal
          let (ret, fd) := btWrite ⟨found.written, answers⟩ buf
          some (.written ret, world.setTerminal terminal { found with written := fd.written })
  | .read buf count milliseconds answers =>
      match source with
      | none => some (.read (-1) buf, world)
      | some terminal =>
          let found := world.terminals terminal
          match btRead ⟨found.pending, found.hungUp, answers⟩ buf count milliseconds with
          | none => none
          | some (ret, buf, fd) =>
              some (.read ret buf, world.setTerminal terminal { found with pending := fd.pending })

/-- The uses one after the other, with the terminals that `route` gives at the time of each. -/
def useAll (route : Tty → Option Nat × Option Nat) : List PortUse → Tty → Option (List PortResult × Tty)
  | [], world => some ([], world)
  | use :: rest, world => do
      let (result, world) ← world.useOn (route world).1 (route world).2 use
      let (results, world) ← useAll route rest world
      return (result :: results, world)

end Tty

/-- The terminals behind the descriptors of a handle. -/
def BtHandle.route (cb : BtHandle) (world : Tty) : Option Nat × Option Nat :=
  (((world.descriptor cb.readFd).filter (·.mode.reads)).map OpenTerminal.terminal,
    ((world.descriptor cb.writeFd).filter (·.mode.writes)).map OpenTerminal.terminal)

/-- `strtok`, and the text that it goes on with in the next call. -/
def strtok (text delimiters : Bytes) : Option Bytes × Bytes :=
  match readWord (fun char => decide (char ∈ delimiters)) text with
  | none => (none, [])
  | some (token, rest) => (some token, rest.drop 1)

/-- The arguments of `bt_open` as `main` takes them from a switch, given without its dashes; nothing for a switch
that is another one. -/
def serialSwitch (a : Bytes) : Option (Option Bytes × Option Bytes) :=
  let (_, rest) := strtok a (ascii "=")
  let (device, rest) := strtok rest (ascii ",")
  let (device2, _) := strtok rest []
  -- the first call has ended the text at `a` behind its token
  let delimiters := a.takeWhile (· = 61)
  let name := delimiters ++ (a.drop delimiters.length).takeWhile (· ≠ 61)
  if name = ascii "serial" ∨ name = ascii "bt" then some (device, device2) else none

/-- Two device names that can be told apart: the first ends at the first comma. -/
structure DevicePair where
  input : CString
  output : CString
  inputNamed : input.bytes ≠ []
  noComma : 44 ∉ input.bytes
  outputNamed : output.bytes ≠ []

def DevicePair.switch (devices : DevicePair) : Bytes :=
  ascii "serial=" ++ (devices.input.bytes ++ 44 :: devices.output.bytes)

theorem strtok_token {token delimiters : Bytes} (named : token ≠ []) (plain : ∀ char ∈ token, char ∉ delimiters)
    {rest : Bytes} (ends : ∀ char, rest.head? = some char → char ∈ delimiters) :
    strtok (token ++ rest) delimiters = (some token, rest.drop 1) := by
  have read := @readWord_append UInt8 (fun char => decide (char ∈ delimiters)) rest token named
    (fun char member => by simpa using plain char member) (fun char starts => by simpa using ends char starts)
  rw [strtok, read]

theorem serialSwitch_pair (devices : DevicePair) :
    serialSwitch devices.switch = some (some devices.input.bytes, some devices.output.bytes) := by
  have first : strtok devices.switch (ascii "=") =
      (some (ascii "serial"), devices.input.bytes ++ 44 :: devices.output.bytes) := by
    exact @strtok_token (ascii "serial") (ascii "=") (by decide) (by simp [ascii])
      (61 :: (devices.input.bytes ++ 44 :: devices.output.bytes)) (by simp; decide)
  have second : strtok (devices.input.bytes ++ 44 :: devices.output.bytes) (ascii ",") =
      (some devices.input.bytes, devices.output.bytes) := by
    refine strtok_token devices.inputNamed (fun char member listed => devices.noComma ?_) (by simp; decide)
    have comma : char ∈ [44] := listed
    rwa [List.mem_singleton.mp comma] at member
  have third : strtok devices.output.bytes [] = (some devices.output.bytes, []) := by
    simpa using @strtok_token devices.output.bytes [] devices.outputNamed (by simp) [] (by simp)
  simp only [serialSwitch, first, second, third]
  rfl

def SetTermios.Succeeds (outcomes : SetTermios) : Prop := outcomes.get = true ∧ outcomes.set ≠ .failed

instance (outcomes : SetTermios) : Decidable outcomes.Succeeds := by
  unfold SetTermios.Succeeds
  infer_instance

/-- What one `set_termios` leaves on a terminal. -/
def SetTermios.leaves (outcomes : SetTermios) (current : Termios) : Termios :=
  outcomes.set.leaves current current.raw

theorem setTermios_eq {world : Tty} {fd : Int} {found : OpenTerminal} (held : world.descriptor fd = some found)
    (outcomes : SetTermios) :
    setTermios fd outcomes world =
      if outcomes.Succeeds then
        (some (some (world.terminals found.terminal).attributes),
          world.setAttributes found.terminal (outcomes.leaves (world.terminals found.terminal).attributes))
      else (some none, world) := by
  obtain ⟨get, set⟩ := outcomes
  cases get with
  | false => simp [setTermios, tcgetattr, Proc.bind_apply, held, SetTermios.Succeeds]
  | true =>
      cases set <;>
        simp [setTermios, tcgetattr, tcsetattr, Proc.bind_apply, held, SetTermios.Succeeds, SetTermios.leaves,
          SetOutcome.leaves]

namespace Tty

/-- Both descriptors of a connection, which are descriptors of one terminal. -/
def openedTwice (world : Tty) (terminal : Nat) : Tty := (world.opened terminal .rdonly).opened terminal .wronly

theorem openedTwice_read (world : Tty) (terminal : Nat) :
    (world.openedTwice terminal).descriptor world.unused = some ⟨world.unused, terminal, .rdonly⟩ := by
  simp [openedTwice, opened, descriptor]

theorem openedTwice_write (world : Tty) (terminal : Nat) :
    (world.openedTwice terminal).descriptor (world.unused + 1) = some ⟨world.unused + 1, terminal, .wronly⟩ := by
  simp [openedTwice, opened, descriptor]

end Tty

section Open

variable (file file2 : Bytes) {outcomes : OpenOutcomes} (world : Tty)

/-- Without both descriptors there is no handle, and a descriptor that is there stays open. -/
theorem btOpen_unopened (failed : outcomes.openRead = false ∨ outcomes.openWrite = false) :
    btOpen (some file) (some file2) outcomes world =
      (some none, if outcomes.openRead then world.opened (world.named file) .rdonly
        else if outcomes.openWrite then world.opened (world.named file) .wronly else world) := by
  obtain ⟨openRead, openWrite, read, write⟩ := outcomes
  cases openRead <;> cases openWrite <;> simp [btOpen, openTty, Proc.bind_apply] at failed ⊢

/-- Both descriptors are of the terminal that the first name stands for. -/
theorem btOpen_opened (read : outcomes.openRead = true) (write : outcomes.openWrite = true) {terminal : Nat}
    (names : world.named file = terminal) {found : Termios} (had : (world.terminals terminal).attributes = found) :
    btOpen (some file) (some file2) outcomes world =
      if outcomes.read.Succeeds then
        if outcomes.write.Succeeds then
          (some (some ⟨world.unused, world.unused + 1, found, outcomes.read.leaves found⟩),
            (world.openedTwice terminal).setAttributes terminal (outcomes.write.leaves (outcomes.read.leaves found)))
        else (some none, (world.openedTwice terminal).setAttributes terminal (outcomes.read.leaves found))
      else (some none, world.openedTwice terminal) := by
  have twice : (world.opened terminal .rdonly).opened terminal .wronly = world.openedTwice terminal := rfl
  have valid : (world.unused : Int) + 1 ≠ -1 := by omega
  have same : ((world.openedTwice terminal).terminals terminal).attributes = found := had
  have first := setTermios_eq (world.openedTwice_read terminal) outcomes.read
  have second := fun attributes => @setTermios_eq ((world.openedTwice terminal).setAttributes terminal attributes) _ _
    (world.openedTwice_write terminal) outcomes.write
  simp only [same] at first
  simp only [Tty.setAttributes_same, Tty.setAttributes_again] at second
  by_cases readable : outcomes.read.Succeeds
  · by_cases writable : outcomes.write.Succeeds
    · simp [btOpen, openTty, Proc.bind_apply, read, write, names, twice, valid, first, second, readable, writable]
    · simp [btOpen, openTty, Proc.bind_apply, read, write, names, twice, valid, first, second, readable, writable]
  · simp [btOpen, openTty, Proc.bind_apply, read, write, names, twice, valid, first, readable]

end Open

/-- What no use of a handle changes. -/
structure Tty.SameSettings (before after : Tty) : Prop where
  descriptors : after.descriptors = before.descriptors
  attributes : ∀ terminal, (after.terminals terminal).attributes = (before.terminals terminal).attributes

theorem Tty.setTerminal_settings {world : Tty} {terminal : Nat} {changed : Terminal}
    (same : changed.attributes = (world.terminals terminal).attributes) :
    world.SameSettings (world.setTerminal terminal changed) := by
  refine ⟨rfl, fun other => ?_⟩
  rcases eq_or_ne other terminal with rfl | elsewhere
  · simpa [Tty.setTerminal] using same
  · simp [Tty.setTerminal, elsewhere]

theorem Tty.useOn_settings {world after : Tty} {source destination : Option Nat} {use : PortUse} {result : PortResult}
    (used : world.useOn source destination use = some (result, after)) : world.SameSettings after := by
  cases use with
  | arrives terminal bytes =>
      cases used
      exact Tty.setTerminal_settings rfl
  | hangsUp terminal =>
      cases used
      exact Tty.setTerminal_settings rfl
  | write buf answers =>
      cases destination with
      | none =>
          cases used
          exact ⟨rfl, fun _ => rfl⟩
      | some terminal =>
          cases used
          exact Tty.setTerminal_settings rfl
  | read buf count milliseconds answers =>
      cases source with
      | none =>
          cases used
          exact ⟨rfl, fun _ => rfl⟩
      | some terminal =>
          rw [Tty.useOn] at used
          split at used
          · cases used
          · cases used
            exact Tty.setTerminal_settings rfl

theorem Tty.SameSettings.route {before after : Tty} (settings : before.SameSettings after) (cb : BtHandle) :
    cb.route after = cb.route before := by
  simp only [BtHandle.route, Tty.descriptor, settings.descriptors]

/-- What a handle reads from and writes to stays what it is: every use of a run goes where the first one goes. -/
theorem BtHandle.useAll_route (cb : BtHandle) {ends : Option Nat × Option Nat} (uses : List PortUse) {world : Tty}
    (routed : cb.route world = ends) : world.useAll cb.route uses = world.useAll (fun _ => ends) uses := by
  induction uses generalizing world with
  | nil => rfl
  | cons use rest ih =>
      rw [Tty.useAll, Tty.useAll, routed]
      cases used : world.useOn ends.1 ends.2 use with
      | none => rfl
      | some step =>
          have settings := Tty.useOn_settings used
          simp only [Option.bind_eq_bind, Option.bind_some, ih ((settings.route cb).trans routed)]

theorem Tty.useAll_settings {route : Tty → Option Nat × Option Nat} {uses : List PortUse} {world after : Tty}
    {results : List PortResult} (used : Tty.useAll route uses world = some (results, after)) :
    world.SameSettings after := by
  induction uses generalizing world results with
  | nil =>
      cases used
      exact ⟨rfl, fun _ => rfl⟩
  | cons use rest ih =>
      rw [Tty.useAll] at used
      obtain ⟨⟨result, middle⟩, first, later⟩ := Option.bind_eq_some_iff.mp used
      obtain ⟨⟨others, last⟩, more, final⟩ := Option.bind_eq_some_iff.mp later
      cases final
      have step := Tty.useOn_settings first
      have run := ih more
      exact ⟨run.descriptors.trans step.descriptors, fun terminal =>
        (run.attributes terminal).trans (step.attributes terminal)⟩

/-- `bt_close` of a handle whose descriptors are of one terminal: what its two `tcsetattr` calls leave. -/
theorem btClose_attributes {world : Tty} {cb : BtHandle} {read write : OpenTerminal}
    (reads : world.descriptor cb.readFd = some read) (writes : world.descriptor cb.writeFd = some write)
    (one : write.terminal = read.terminal) (outcomes : CloseOutcomes) :
    (((btClose cb outcomes world).2.terminals read.terminal).attributes) =
      outcomes.read.leaves (outcomes.write.leaves (world.terminals read.terminal).attributes cb.oldWriteMode)
        cb.oldReadMode := by
  simp [btClose, tcsetattr, closeTty, Proc.bind_apply, reads, writes, one]

/-- Whatever the handle was used for, `bt_close` finds what `bt_open` left. -/
theorem btClose_after {started used : Tty} {cb : BtHandle} {read write : OpenTerminal}
    (reads : started.descriptor cb.readFd = some read) (writes : started.descriptor cb.writeFd = some write)
    (one : write.terminal = read.terminal) {uses : List PortUse} {results : List PortResult}
    (run : started.useAll cb.route uses = some (results, used)) (outcomes : CloseOutcomes) :
    ((btClose cb outcomes used).2.terminals read.terminal).attributes =
      outcomes.read.leaves (outcomes.write.leaves (started.terminals read.terminal).attributes cb.oldWriteMode)
        cb.oldReadMode := by
  have settings := Tty.useAll_settings run
  have same (fd : Int) : used.descriptor fd = started.descriptor fd := by
    rw [Tty.descriptor, Tty.descriptor, settings.descriptors]
  rw [btClose_attributes ((same _).trans reads) ((same _).trans writes) one, settings.attributes]

/-- The terminals of both devices have the attributes they had before. -/
def DevicePair.Restored (devices : DevicePair) (before after : Tty) : Prop :=
  ∀ name ∈ [devices.input.bytes, devices.output.bytes],
    (after.terminals (before.named name)).attributes = (before.terminals (before.named name)).attributes

/-- What is asked of the handle that `bt_open` returns: `bt_read` reads from the first terminal, `bt_write` writes to
the second, and `bt_close` gives both the attributes they had.  A call that returns none has changed nothing. -/
def DevicePair.Serves (devices : DevicePair) (closing : CloseOutcomes) (before after : Tty) : Option BtHandle → Prop
  | none => devices.Restored before after ∧ after.descriptors = before.descriptors
  | some cb =>
      ∀ uses, after.useAll cb.route uses =
          after.useAll (fun _ => (some (before.named devices.input.bytes), some (before.named devices.output.bytes)))
            uses ∧
        ∀ results used, after.useAll cb.route uses = some (results, used) →
          devices.Restored before (btClose cb closing used).2

/-- The switch with both names, and `bt_open` with what `main` makes of it. -/
def HandleLives (devices : DevicePair) (opening : OpenOutcomes) (closing : CloseOutcomes) (world : Tty) : Prop :=
  ∃ file file2 handle after, serialSwitch devices.switch = some (file, file2) ∧
    btOpen file file2 opening world = (some handle, after) ∧ devices.Serves closing world after handle

/-- What the calls leave on a terminal that both names stand for is what it had. -/
def Reverts (found : Termios) (opening : OpenOutcomes) (closing : CloseOutcomes) : Prop :=
  match closing.read with
  | .done => True
  | .partly left => left = found
  | .failed =>
      match closing.write with
      | .partly left => left = found
      | .done => opening.read.leaves found = found
      | .failed => opening.write.leaves (opening.read.leaves found) = found

theorem reverts_iff (found : Termios) (opening : OpenOutcomes) (closing : CloseOutcomes) :
    Reverts found opening closing ↔
      closing.read.leaves (closing.write.leaves (opening.write.leaves (opening.read.leaves found))
        (opening.read.leaves found)) found = found := by
  obtain ⟨write, read⟩ := closing
  cases read <;> cases write <;> simp [Reverts, SetOutcome.leaves]

/-- One byte that is written shows where a handle writes to. -/
theorem useAll_destination {world : Tty} {source first second : Nat}
    (same : ∀ uses, world.useAll (fun _ => (some source, some first)) uses =
      world.useAll (fun _ => (some source, some second)) uses) : first = second := by
  have wrote (written : Bytes) : btWrite ⟨written, []⟩ [0, 1] = (1, ⟨written ++ [1], []⟩) := by
    simp [btWrite, writeLoop, WriteEnd.write]
  have ends := same [.write [0, 1] []]
  simp only [Tty.useAll, Tty.useOn, wrote, Option.bind_eq_bind, Option.bind_some, Option.pure_def, Option.some.injEq,
    Prod.mk.injEq, true_and] at ends
  have there := congrArg (fun after => (after.terminals second).written) ends
  rcases eq_or_ne first second with one | other
  · exact one
  · simp [Tty.setTerminal, Function.update_of_ne other.symm] at there

section Lives

variable (devices : DevicePair) {opening : OpenOutcomes} (closing : CloseOutcomes) {world : Tty}

theorem handleLives_iff_serves {handle : Option BtHandle} {after : Tty}
    (opened : btOpen (some devices.input.bytes) (some devices.output.bytes) opening world = (some handle, after)) :
    HandleLives devices opening closing world ↔ devices.Serves closing world after handle := by
  constructor
  · intro lives
    obtain ⟨file, file2, found, last, switched, opens, serves⟩ := lives
    cases (serialSwitch_pair devices).symm.trans switched
    cases opened.symm.trans opens
    exact serves
  · exact fun serves => ⟨_, _, handle, after, serialSwitch_pair devices, opened, serves⟩

/-- A descriptor that stays open is one too many. -/
theorem handleLives_leaks {after : Tty}
    (opened : btOpen (some devices.input.bytes) (some devices.output.bytes) opening world = (some none, after))
    (more : world.descriptors.length < after.descriptors.length) : ¬ HandleLives devices opening closing world := by
  rw [handleLives_iff_serves devices closing opened]
  intro serves
  rw [serves.2] at more
  exact Nat.lt_irrefl _ more

/-- A handle for one terminal serves its devices when the other name stands for that terminal as well, and
`bt_close` leaves there what was found. -/
theorem DevicePair.serves_iff {started : Tty} {cb : BtHandle} {read write : Int} {terminal : Nat}
    (reads : started.descriptor cb.readFd = some ⟨read, terminal, .rdonly⟩)
    (writes : started.descriptor cb.writeFd = some ⟨write, terminal, .wronly⟩)
    (names : world.named devices.input.bytes = terminal) :
    devices.Serves closing world started (some cb) ↔ terminal = world.named devices.output.bytes ∧
      closing.read.leaves (closing.write.leaves (started.terminals terminal).attributes cb.oldWriteMode)
        cb.oldReadMode = (world.terminals terminal).attributes := by
  have routed : cb.route started = (some terminal, some terminal) := by
    simp [BtHandle.route, reads, writes, OpenMode.reads, OpenMode.writes]
  have runs := fun uses => cb.useAll_route uses routed
  constructor
  · intro serves
    rw [DevicePair.Serves, names] at serves
    have restored := (serves []).2 [] started rfl devices.input.bytes List.mem_cons_self
    have closes := @btClose_after started started cb _ _ reads writes rfl [] [] rfl closing
    rw [names] at restored
    exact ⟨useAll_destination fun uses => (runs uses).symm.trans (serves uses).1, closes.symm.trans restored⟩
  · intro both uses
    obtain ⟨one, back⟩ := both
    refine ⟨by rw [runs, names, ← one], fun results used run name member => ?_⟩
    have there : world.named name = terminal := by
      rcases List.mem_pair.mp member with rfl | rfl
      · exact names
      · exact one.symm
    rw [there]
    exact (btClose_after reads writes rfl run closing).trans back

/-- With a handle everything depends on the names and on what the calls leave. -/
theorem handleLives_opened (read : opening.openRead = true) (write : opening.openWrite = true)
    (readable : opening.read.Succeeds) (writable : opening.write.Succeeds) :
    HandleLives devices opening closing world ↔
      world.named devices.input.bytes = world.named devices.output.bytes ∧
        Reverts (world.terminals (world.named devices.input.bytes)).attributes opening closing := by
  generalize names : world.named devices.input.bytes = terminal
  generalize had : (world.terminals terminal).attributes = found
  have opened := @btOpen_opened devices.input.bytes devices.output.bytes opening world read write _ names _ had
  rw [if_pos readable, if_pos writable] at opened
  rw [handleLives_iff_serves devices closing opened, reverts_iff, devices.serves_iff closing
    (world.openedTwice_read terminal) (world.openedTwice_write terminal) names, Tty.setAttributes_same, had]

/-- The handle lives as it should only when the second name stands for the terminal of the first, since `bt_open`
opens the first name twice; and without a handle only when there was nothing to take back. -/
theorem handleLives_iff : HandleLives devices opening closing world ↔
    (opening.openRead = false ∧ opening.openWrite = false) ∨
      (opening.openRead = true ∧ opening.openWrite = true ∧ opening.read.Succeeds ∧ opening.write.Succeeds ∧
        world.named devices.input.bytes = world.named devices.output.bytes ∧
        Reverts (world.terminals (world.named devices.input.bytes)).attributes opening closing) := by
  cases read : opening.openRead <;> cases write : opening.openWrite
  · have opened := @btOpen_unopened devices.input.bytes devices.output.bytes opening world (Or.inl read)
    simp only [read, write] at opened
    rw [handleLives_iff_serves devices closing opened]
    simp [DevicePair.Serves, DevicePair.Restored]
  · have opened := @btOpen_unopened devices.input.bytes devices.output.bytes opening world (Or.inl read)
    simp only [read, write] at opened
    have leaks := handleLives_leaks devices closing opened (by simp [Tty.opened])
    simp [leaks]
  · have opened := @btOpen_unopened devices.input.bytes devices.output.bytes opening world (Or.inr write)
    simp only [read, write] at opened
    have leaks := handleLives_leaks devices closing opened (by simp [Tty.opened])
    simp [leaks]
  · by_cases both : opening.read.Succeeds ∧ opening.write.Succeeds
    · simp [handleLives_opened devices closing read write both.1 both.2, both]
    · have opened := @btOpen_opened devices.input.bytes devices.output.bytes opening world read write _ rfl _ rfl
      have leaks : ¬ HandleLives devices opening closing world := by
        split at opened
        · rename_i readable
          rw [if_neg fun writable => both ⟨readable, writable⟩] at opened
          exact handleLives_leaks devices closing opened (by simp [Tty.openedTwice, Tty.opened])
        · exact handleLives_leaks devices closing opened (by simp [Tty.openedTwice, Tty.opened])
      simpa [leaks] using fun readable writable => absurd ⟨readable, writable⟩ both

end Lives

/-- Two devices, each on a terminal of its own. -/
def twoDevices : DevicePair where
  input := cstr (ascii "in")
  output := cstr (ascii "out")
  inputNamed := by decide
  noComma := by decide
  outputNamed := by decide

def cooked : Termios := ⟨0x500, 0x5, 0xBF, 0x8A3B, 0, .replicate 32 0, 13, 13⟩

def twoTerminals : Tty where
  named name := if name = ascii "in" then 0 else 1
  terminals _ := ⟨cooked, [], [], false⟩
  descriptors := []
  unused := 3

def allSucceed : OpenOutcomes := ⟨true, true, ⟨true, .done⟩, ⟨true, .done⟩⟩

/-- When every call succeeds, what is written goes to the terminal it is read from; and when only the last call of
`bt_open` fails, both descriptors stay open. -/
theorem bothOpen_first : ¬ HandleLives twoDevices allSucceed ⟨.done, .done⟩ twoTerminals ∧
    ¬ HandleLives twoDevices { allSucceed with write := ⟨true, .failed⟩ } ⟨.done, .done⟩ twoTerminals := by
  constructor
  · rw [handleLives_opened twoDevices _ rfl rfl (by decide) (by decide)]
    intro both
    exact absurd both.1 (by decide)
  · have opened := @btOpen_opened twoDevices.input.bytes twoDevices.output.bytes
      { allSucceed with write := ⟨true, .failed⟩ } twoTerminals rfl rfl _ rfl _ rfl
    rw [if_pos (by decide), if_neg (by decide)] at opened
    exact handleLives_leaks twoDevices _ opened (by decide)

end Ev3duder
