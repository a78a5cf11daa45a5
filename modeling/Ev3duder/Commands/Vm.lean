import Ev3duder.Commands.Simple

namespace Ev3duder

open Data

/-! # Commands that hand bytecode to the virtual machine -/

def run1 : Bytes := [0xC0, 0x08, 0x82, 0x01, 0x00, 0x84]
def run2 : Bytes := [0x60, 0x64, 0x03, 0x01, 0x60, 0x64, 0x00]

def executeFileReplySuccess : Bytes := [3, 0, 0, 0, 2]

def runReplySize : Nat := 1024 + 2

def isSpace (byte : UInt8) : Bool := byte = 32 ∨ (9 ≤ byte ∧ byte ≤ 13)

def hexDigit (byte : UInt8) : Option Nat :=
  if 48 ≤ byte ∧ byte ≤ 57 then some (byte.toNat - 48)
  else if 65 ≤ byte ∧ byte ≤ 70 then some (byte.toNat - 55)
  else if 97 ≤ byte ∧ byte ≤ 102 then some (byte.toNat - 87)
  else none

def hexDigits : Bytes → List Nat
  | [] => []
  | byte :: rest =>
      match hexDigit byte with
      | some digit => digit :: hexDigits rest
      | none => []

def hexSign : Bytes → Bool × Bytes
  | 45 :: rest => (true, rest)
  | 43 :: rest => (false, rest)
  | text => (false, text)

theorem hexSign_plain {byte : UInt8} (rest : Bytes) (plus : byte ≠ 43) (minus : byte ≠ 45) :
    hexSign (byte :: rest) = (false, byte :: rest) := by
  unfold hexSign
  split
  · rename_i same
    exact absurd (List.cons.inj same).1 minus
  · rename_i same
    exact absurd (List.cons.inj same).1 plus
  · rfl

def hexPrefix : Bytes → Bytes
  | 48 :: 120 :: rest => rest
  | 48 :: 88 :: rest => rest
  | text => text

/-- What `sscanf(text, "\t%08x\n", &len)` makes of a text. -/
inductive Scanned where
  | value (len : UInt32)
  | mismatch
  | inputFailure
deriving DecidableEq, Repr

def scanHex (text : Bytes) : Scanned :=
  match (text.dropWhile isSpace).take 8 with
  | [] => .inputFailure
  | field =>
      let (negative, digits) := hexSign field
      match hexDigits (hexPrefix digits) with
      | [] => .mismatch
      | digits =>
          let value := UInt32.ofNat (digits.foldl (fun value digit => 16 * value + digit) 0)
          .value (if negative then 0 - value else value)

/-- `printf("%.*s", precision, text)`: at most `precision` bytes, up to the first NUL. -/
def printString (reply : Reply) (offset precision : Nat) : Command Unit :=
  fwrite ((reply.memory.load offset precision).takeWhile (· ≠ 0))

def blockPrecision (len : UInt32) : Nat := if 1000 < len then 1000 else len.toNat

/-- The reports that follow the first one, each with one more block of the output.  Every pass uses up a
report, so the loop ends. -/
def runOutput (reply : Reply) (len : UInt32) : Command Err := fun session =>
  let report := session.readResult
  let after := session.afterRead runReplySize 100
  if _positive : 0 < report.res then
    let printed := printString (reply.receive report) 0 (blockPrecision len) after
    runOutput (reply.receive report) (len - 1000) printed.2
  else if report.res ≠ 0 then (some .comm, after)
  else failWith "`exec` status unknown." .unk after
termination_by session => session.reads.length
decreasing_by
  rename_i session
  exact Session.reads_shorter _positive

/-- The reply is neither missing nor the plain success: over USB it may carry the output of the program.
`stack` is what `len` holds before `sscanf`. -/
def runReply (transport : Transport) (reply : Reply) (stack : Memory) : Command Err :=
  if transport = .usb then do
    match scanHex ((reply.memory.load 0 1024).takeWhile (· ≠ 0)) with
    | .mismatch => failWith "`exec` status unknown." .unk
    | scanned => do
        let len := match scanned with
          | .value len => len
          | _ => UInt32.ofNat (leValue (stack.load 0 4))
        let len := len + 10
        printString reply 10 (blockPrecision len)
        runOutput reply (len - 1000)
  else failWith "`exec` status unknown." .unk

def run (transport : Transport) (exec : CString) (milliseconds : UInt32) : Command Err := do
  let milliseconds := if milliseconds = 0 then UInt32.ofNat timeout.toNat else milliseconds
  match packetAlloc executeFileInit (run1.length + (exec.bytes.length + 1) + run2.length) with
  | none => Proc.crash
  | some request => do
      let request := { request with bytes := run1 ++ (exec.bytes ++ [0]) ++ run2 }
      let stack ← malloc
      let lenStack ← malloc
      let res ← writePacket request
      if res < 0 then return .comm
      else do
        let (res, reply) ← ev3ReadTimeout ⟨stack, 0⟩ runReplySize milliseconds.toInt32.toInt
        if res < 0 then return .comm
        else do
          let packet ← reply.peek 0 vmReplySize
          if res = 0 ∨ packet = executeFileReplySuccess then failWith "`exec` has been successful." .unk
          else runReply transport reply lenStack

/-- Where `vmexec` puts the globals. -/
inductive VmOutput where
  | none | file | stdout
deriving DecidableEq, Repr

def maxLocals : Int := 2 ^ 6 - 1

def maxGlobals (useReply : Bool) : Int := if useReply then 1024 - vmReplySize else 2 ^ 10 - 1

def maxBytecodes : Nat := 1024 - (Packet.size VmCmd - prefixSize + 2)

/-- `fread`, and what `feof` says after it. -/
def freadToEnd (count : Nat) : Command (Bytes × Bool) := fun session =>
  let transferred := session.input.transfer count
  (some (session.input.rest.take transferred,
      decide (transferred < count ∧ transferred = session.input.rest.length)),
    { session with input := session.input.afterRead count })

theorem freadToEnd_returned (count : Nat) (session : Session) :
    freadToEnd count session = (some (session.input.rest.take (session.input.transfer count),
      decide (session.input.transfer count < count ∧ session.input.transfer count = session.input.rest.length)),
      { session with input := session.input.afterRead count }) := rfl

def vmexecReply (out : VmOutput) (globals : Nat) : Command Err := do
  let heap ← malloc
  let (res, reply) ← ev3ReadTimeout ⟨heap, 0⟩ (vmReplySize + globals) timeout
  if res ≤ 0 then failWith "Unable to read VM_REPLY" .comm
  else do
    let replyType ← reply.u8 4
    if replyType ≠ vmDirectOk then do
      let len ← reply.packetLen
      reply.printBytes (len.toNat + 2)
      setErrno replyType.toNat
      failWith "`vmexec` failed." .vm
    else do
      if out ≠ .none then do
        let bytes ← reply.peek vmReplySize globals
        fwrite bytes
      if out ≠ .stdout then setErrmsg "`vmexec` was successful."
      return .unk

/-- The request once the bytecode is read and accepted. -/
def vmexecRequest (request : VmCmd) (code : Bytes) (locals globals : Int) (useReply : Bool) : VmCmd :=
  { request with
    replyType := if useReply then 0x00 else 0x80
    alloc := UInt16.ofNat (locals.toNat * 2 ^ 10 ||| globals.toNat)
    packetLen := UInt16.ofNat (code.length + Packet.size VmCmd - prefixSize)
    bytes := code }

def vmexec (out : VmOutput) (locals globals : Int) (useReply : Bool) : Command Err := do
  let locals := if locals < 0 then 0 else locals
  let globals := if globals < 0 then 0 else globals
  if maxLocals < locals then return .arg
  else if maxGlobals useReply < globals then return .arg
  else
    match packetAlloc executeFileInit maxBytecodes with
    | none => Proc.crash
    | some request => do
        let (code, eof) ← freadToEnd maxBytecodes
        if ¬ eof then return .io
        else if code.length = 0 then return .io
        else do
          let res ← writePacket (vmexecRequest request code locals globals useReply)
          if res < 0 then failWith "Unable to write VM_CMD." .comm
          else if ¬ useReply then failWith "`vmexec` was successful." .unk
          else vmexecReply out globals.toNat

/-- What `vmexec` does with the bytecode it has read. -/
def vmexecSend (out : VmOutput) (locals globals : Int) (useReply : Bool) (code : Bytes) (eof : Bool) : Command Err :=
  if ¬ eof then return .io
  else if code.length = 0 then return .io
  else do
    let res ← writePacket
      (vmexecRequest { executeFileInit with packetLen := 1022 } code locals globals useReply)
    if res < 0 then failWith "Unable to write VM_CMD." .comm
    else if ¬ useReply then failWith "`vmexec` was successful." .unk
    else vmexecReply out globals.toNat

theorem clamped (value : Int) : (if value < 0 then 0 else value) = max value 0 := by
  split <;> omega

section Limits

variable {out : VmOutput} {locals globals : Int} {useReply : Bool} {session : Session}

theorem vmexec_limited (out : VmOutput) (few : max locals 0 ≤ 63)
    (small : max globals 0 ≤ if useReply then 1019 else 1023) :
    vmexec out locals globals useReply session =
      (freadToEnd maxBytecodes >>= fun read =>
        vmexecSend out (max locals 0) (max globals 0) useReply read.1 read.2) session := by
  have alloc : packetAlloc executeFileInit maxBytecodes = some { executeFileInit with packetLen := 1022 } := rfl
  have limit : maxGlobals useReply = if useReply then 1019 else 1023 := by cases useReply <;> rfl
  have most : maxLocals = 63 := rfl
  unfold vmexec
  simp only [clamped]
  rw [most, limit, if_neg (Int.not_lt.mpr few), if_neg (Int.not_lt.mpr small), alloc]
  rfl

theorem vmexec_unlimited (out : VmOutput)
    (many : ¬ (max locals 0 ≤ 63 ∧ max globals 0 ≤ if useReply then 1019 else 1023)) :
    vmexec out locals globals useReply session = (some .arg, session) := by
  have limit : maxGlobals useReply = if useReply then 1019 else 1023 := by cases useReply <;> rfl
  have most : maxLocals = 63 := rfl
  unfold vmexec
  simp only [clamped]
  rw [most, limit]
  by_cases few : max locals 0 ≤ 63
  · rw [if_neg (Int.not_lt.mpr few), if_pos (Int.not_le.mp fun small => many ⟨few, small⟩)]
    rfl
  · rw [if_pos (Int.not_le.mp few)]
    rfl

end Limits

end Ev3duder
