import Ev3duder.Data.Bytes
import Ev3duder.Data.Process

namespace Ev3duder

open Data

/-! # The link to the brick as one command sees it

`ev3_io.h` gives a command two function pointers, `ev3_write` and `ev3_read_timeout`.  What the transport
behind them will answer is not the command's to decide, so a session carries the coming answers and keeps
a record of every packet handed over and every reply received.
-/

/-- `enum ERR`: what a command returns to `main`. -/
inductive Err where
  | unk | arg | io | fTooBig | noMem | comm | vm | sys | usbLoop | end
deriving DecidableEq, Repr

def Err.code : Err → Int
  | .unk => 0 | .arg => 1 | .io => 2 | .fTooBig => 3 | .noMem => 4
  | .comm => 5 | .vm => 6 | .sys => 7 | .usbLoop => 8 | .end => 9

def vmSysRq : UInt8 := 0x01
def vmDirectOk : UInt8 := 0x02
def vmOk : UInt8 := 0x03
def vmError : UInt8 := 0x05

/-- What one call of `ev3_read_timeout` brings: bytes (none when it timed out), or a failure that may have
stored some bytes before it was noticed. -/
inductive ReadResult where
  | received (data : Bytes)
  | failed (stored : Bytes)
deriving DecidableEq, Repr

def ReadResult.stored : ReadResult → Bytes
  | .received data => data
  | .failed stored => stored

def ReadResult.res : ReadResult → Int
  | .received data => data.length
  | .failed _ => -1

inductive Event where
  /-- `ev3_write(handle, buf, count)`: the bytes at `buf`, the count, and what the call returned. -/
  | write (packet : Bytes) (count : Nat) (res : Int)
  /-- `ev3_read_timeout(handle, buf, count, milliseconds)` and what it brought. -/
  | read (count : Nat) (milliseconds : Int) (result : ReadResult)
deriving DecidableEq, Repr

/-- One look at a reply buffer: the index just past the last byte looked at, and how many bytes the latest
read had delivered. -/
structure Peek where
  upto : Nat
  got : Nat
deriving DecidableEq, Repr

/-- A local file that a command reads.  `counts` bounds what each coming `fread` transfers; without an
entry it transfers all it can.  `calls` records what was asked and what was got. -/
structure File where
  rest : Bytes
  counts : List Nat := []
  calls : List (Nat × Nat) := []

def File.transfer (file : File) (count : Nat) : Nat :=
  min (min count (file.counts.headD count)) file.rest.length

def File.afterRead (file : File) (count : Nat) : File where
  rest := file.rest.drop (file.transfer count)
  counts := file.counts.tail
  calls := file.calls ++ [(count, file.transfer count)]

def File.reads (file : File) : List Nat → List (Nat × Nat)
  | [] => []
  | count :: rest => (count, file.transfer count) :: (file.afterRead count).reads rest

theorem File.transfer_full (file : File) {count : Nat} (enough : count ≤ file.rest.length) :
    file.transfer count = count ↔ count ≤ file.counts.headD count := by
  simp only [File.transfer]
  omega

theorem File.taken_length (file : File) (count : Nat) : (file.rest.take (file.transfer count)).length ≤ count := by
  simp only [List.length_take, File.transfer]
  omega

/-- Without an entry in `counts` a call brings all it can. -/
theorem File.transfer_free {file : File} (free : file.counts = []) (count : Nat) :
    file.rest.take (file.transfer count) = file.rest.take count ∧
      (file.afterRead count).rest = file.rest.drop count ∧ (file.afterRead count).counts = [] := by
  have transfer : file.transfer count = min count file.rest.length := by simp [File.transfer, free]
  refine ⟨?_, ?_, ?_⟩
  · rw [transfer, ← List.take_eq_take_min]
  · rw [File.afterRead, transfer, ← List.drop_eq_drop_min]
  · rw [File.afterRead, free, List.tail_nil]

/-- A long enough file gives every call its full count exactly if no entry of `counts` is below what the
call asks for. -/
theorem File.reads_full (file : File) (sizes : List Nat) (enough : sizes.sum ≤ file.rest.length) :
    (∀ call ∈ file.reads sizes, call.2 = call.1) ↔
      ∀ index, index < sizes.length → sizes.getD index 0 ≤ file.counts.getD index (sizes.getD index 0) := by
  induction sizes generalizing file with
  | nil => simp [File.reads]
  | cons count rest ih =>
      simp only [List.sum_cons] at enough
      have first : file.transfer count = count ↔ count ≤ file.counts.headD count :=
        file.transfer_full (by omega)
      simp only [File.reads, List.forall_mem_cons, first]
      constructor
      · rintro ⟨full, others⟩ index bound
        have moved := (ih (file.afterRead count) (by
          have got := first.mpr full
          simp only [File.afterRead, got, List.length_drop]
          omega)).mp others
        cases index with
        | zero =>
            rw [List.getD_cons_zero, ← List.headD_eq_getD]
            exact full
        | succ index =>
            have later := moved index (by simpa using bound)
            simpa only [File.afterRead, tail_getD, List.getD_cons_succ] using later
      · intro all
        have full : count ≤ file.counts.headD count := by
          have begin := all 0 (by simp)
          rwa [List.getD_cons_zero, ← List.headD_eq_getD] at begin
        refine ⟨full, (ih (file.afterRead count) ?_).mpr ?_⟩
        · have got := first.mpr full
          simp only [File.afterRead, got, List.length_drop]
          omega
        · intro index bound
          have later := all (index + 1) (by simpa using bound)
          simpa only [File.afterRead, tail_getD, List.getD_cons_succ] using later

structure Session where
  /-- What the coming calls of `ev3_write` return; with none left they fail. -/
  writes : List Int
  /-- What the coming calls of `ev3_read_timeout` bring; with none left they time out. -/
  reads : List ReadResult
  /-- Contents of the coming allocations before they are initialised. -/
  junk : Nat → Memory := fun _ _ => 0
  input : File := { rest := [] }
  log : List Event := []
  /-- What `fwrite` and `printf` put into the command's output. -/
  output : Bytes := []
  peeks : List Peek := []
  errmsg : Option String := none
  errno : Nat := 0

namespace Session

def writeResult (session : Session) : Int := session.writes.headD (-1)

def readResult (session : Session) : ReadResult := session.reads.headD (.received [])

theorem reads_shorter {session : Session} (read : 0 < session.readResult.res) :
    session.reads.tail.length < session.reads.length := by
  have positive : 0 < session.reads.length := by
    apply List.length_pos_iff.mpr
    intro none
    simp [Session.readResult, none, ReadResult.res] at read
  rw [List.length_tail]
  omega

def afterWrite (session : Session) (buf : Bytes) (count : Nat) : Session :=
  { session with
    writes := session.writes.tail
    log := session.log ++ [.write (buf.take count) count session.writeResult] }

theorem afterWrite_log (session : Session) (buf : Bytes) (count : Nat) :
    (session.afterWrite buf count).log = session.log ++ [.write (buf.take count) count session.writeResult] := rfl

def afterRead (session : Session) (count : Nat) (milliseconds : Int) : Session :=
  { session with
    reads := session.reads.tail
    log := session.log ++ [.read count milliseconds session.readResult] }

def afterMalloc (session : Session) : Session :=
  { session with junk := fun index => session.junk (index + 1) }

structure SameLink (before after : Session) : Prop where
  writes : after.writes = before.writes
  reads : after.reads = before.reads
  log : after.log = before.log

/-- The session after it, with new events that all satisfy `property`. -/
def Logs (property : Event → Prop) (before after : Session) : Prop :=
  ∃ events, after.log = before.log ++ events ∧ ∀ event ∈ events, property event

theorem Logs.refl (property : Event → Prop) (session : Session) : Logs property session session :=
  ⟨[], by simp, by simp⟩

theorem Logs.trans {property : Event → Prop} {first second third : Session}
    (head : Logs property first second) (tail : Logs property second third) :
    Logs property first third := by
  obtain ⟨early, earlyLog, earlyHold⟩ := head
  obtain ⟨late, lateLog, lateHold⟩ := tail
  refine ⟨early ++ late, by rw [lateLog, earlyLog, List.append_assoc], ?_⟩
  intro event member
  rcases List.mem_append.mp member with member | member
  · exact earlyHold event member
  · exact lateHold event member

theorem Logs.snoc {property : Event → Prop} {before after : Session} {event : Event}
    (log : after.log = before.log ++ [event]) (holds : property event) : Logs property before after := by
  refine ⟨[event], log, ?_⟩
  simpa using holds

theorem Logs.keeps {property : Event → Prop} {before after : Session} (logs : Logs property before after)
    {event : Event} (member : event ∈ before.log) : event ∈ after.log := by
  obtain ⟨events, log, _⟩ := logs
  rw [log]
  exact List.mem_append_left _ member

theorem Logs.of_same_log {property : Event → Prop} {before after : Session}
    (same : after.log = before.log) : Logs property before after :=
  ⟨[], by simp [same], by simp⟩

end Session

abbrev Command (α : Type) := Proc Session α

def ev3Write (buf : Bytes) (count : Nat) : Command Int :=
  fun session => (some session.writeResult, session.afterWrite buf count)

theorem ev3Write_run (buf : Bytes) (count : Nat) (session : Session) :
    ev3Write buf count session = (some session.writeResult, session.afterWrite buf count) := rfl

/-- A reply buffer and the number of bytes the latest read put into it. -/
structure Reply where
  memory : Memory
  got : Nat := 0

def Reply.receive (reply : Reply) (result : ReadResult) : Reply where
  memory := reply.memory.store result.stored
  got := result.stored.length

def Reply.after (reply : Reply) (reads : List ReadResult) : Nat → Reply
  | 0 => reply
  | count + 1 => (reply.receive (reads.headD (.received []))).after reads.tail count

theorem Reply.after_succ (reply : Reply) (reads : List ReadResult) (count : Nat) :
    reply.after reads (count + 1) = (reply.after reads count).receive (reads.getD count (.received [])) := by
  induction count generalizing reply reads with
  | zero =>
      simp only [Reply.after]
      cases reads <;> rfl
  | succ count ih =>
      rw [Reply.after, ih, Reply.after]
      cases reads <;> rfl

theorem Reply.receive_delivered {reply : Reply} {result : ReadResult} {index : Nat} {byte : UInt8}
    (delivered : result.stored[index]? = some byte) : (reply.receive result).memory index = byte := by
  simp [Reply.receive, Memory.store, delivered]

def ev3ReadTimeout (reply : Reply) (count : Nat) (milliseconds : Int) : Command (Int × Reply) :=
  fun session => (some (session.readResult.res, reply.receive session.readResult),
    session.afterRead count milliseconds)

def timeout : Int := 2000

/-- `malloc`, or a local variable that is not initialised: its contents are whatever was there. -/
def malloc : Command Memory := fun session => (some (session.junk 0), session.afterMalloc)

theorem malloc_run (session : Session) : malloc session = (some (session.junk 0), session.afterMalloc) := rfl

def Reply.peek (reply : Reply) (offset count : Nat) : Command Bytes := fun session =>
  (some (reply.memory.load offset count),
    { session with peeks := session.peeks ++ [⟨offset + count, reply.got⟩] })

def Reply.u8 (reply : Reply) (offset : Nat) : Command UInt8 := do
  let bytes ← reply.peek offset 1
  return bytes.headD 0

def Reply.u16 (reply : Reply) (offset : Nat) : Command UInt16 := do
  let bytes ← reply.peek offset 2
  return UInt16.ofNat (leValue bytes)

def Reply.u32 (reply : Reply) (offset : Nat) : Command UInt32 := do
  let bytes ← reply.peek offset 4
  return UInt32.ofNat (leValue bytes)

def fread (count : Nat) : Command Bytes := fun session =>
  (some (session.input.rest.take (session.input.transfer count)),
    { session with input := session.input.afterRead count })

theorem fread_run (count : Nat) (session : Session) :
    fread count session = (some (session.input.rest.take (session.input.transfer count)),
      { session with input := session.input.afterRead count }) := rfl

def fwrite (bytes : Bytes) : Command Unit :=
  Proc.modify fun session => { session with output := session.output ++ bytes }

def setErrmsg (message : String) : Command Unit :=
  Proc.modify fun session => { session with errmsg := some message }

def setErrno (value : Nat) : Command Unit :=
  Proc.modify fun session => { session with errno := value }

def failWith (message : String) (err : Err) : Command Err := do
  setErrmsg message
  return err

end Ev3duder
