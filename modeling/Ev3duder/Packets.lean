import Ev3duder.Session

namespace Ev3duder

open Data

/-! # Packets

`packets.h` declares packed structures that all start with the HID byte and the 16-bit length of what
follows it; `packets.c` gives each an initial value.
-/

/-- Bytes not covered by `packetLen`: the HID byte and `packetLen` itself. -/
def prefixSize : Nat := 3

class Packet (τ : Type) where
  /-- `sizeof`, without the flexible array at the end. -/
  size : Nat
  hidLayer : τ → UInt8
  packetLen : τ → UInt16
  setPacketLen : τ → UInt16 → τ
  tail : τ → Bytes

namespace Packet

variable {τ : Type} [Packet τ]

def toBytes (packet : τ) : Bytes :=
  hidLayer packet :: (leBytes 2 (packetLen packet).toNat ++ tail packet)

/-- The count handed over with a packet: `packetLen + PREFIX_SIZE`. -/
def count (packet : τ) : Nat := (packetLen packet).toNat + prefixSize

/-- The bytes of a packet that are handed over. -/
abbrev handed (packet : τ) : Bytes := (toBytes packet).take (count packet)

end Packet

theorem Packet.count_eq {τ : Type} [Packet τ] {packet : τ}
    (framed : (Packet.packetLen packet).toNat = (Packet.tail packet).length) :
    Packet.count packet = (Packet.toBytes packet).length := by
  simp only [Packet.count, Packet.toBytes, framed, prefixSize, List.length_cons, List.length_append,
    leBytes_length]
  omega

theorem Packet.handed_eq {τ : Type} [Packet τ] {packet : τ}
    (framed : (Packet.packetLen packet).toNat = (Packet.tail packet).length) :
    Packet.handed packet = Packet.toBytes packet := by
  rw [Packet.handed, Packet.count_eq framed, List.take_length]

/-- `packet_alloc`: the initial value with its length field set, or a null pointer when the packet would
not fit the 16-bit length. -/
def packetAlloc {τ : Type} [Packet τ] (init : τ) (extra : Nat) : Option τ :=
  if Packet.size τ + extra < 65535 then
    some (Packet.setPacketLen init (UInt16.ofNat (Packet.size τ + extra - prefixSize)))
  else none

theorem allocated_length {length : Nat} (fits : length < 65535) :
    (UInt16.ofNat (length - prefixSize)).toNat = length - 3 := by
  rw [UInt16.toNat_ofNat', prefixSize]
  omega

def writePacket {τ : Type} [Packet τ] (packet : τ) : Command Int :=
  ev3Write (Packet.toBytes packet) (Packet.count packet)

theorem writePacket_run {τ : Type} [Packet τ] (packet : τ) (session : Session) :
    writePacket packet session =
      (some session.writeResult, session.afterWrite (Packet.toBytes packet) (Packet.count packet)) := rfl

structure CommandFields where
  hidLayer : UInt8 := 0x00
  packetLen : UInt16 := 0
  msgCount : UInt16 := 0
  replyType : UInt8 := 0x01
  cmd : UInt8

def CommandFields.tail (fields : CommandFields) : Bytes :=
  leBytes 2 fields.msgCount.toNat ++ [fields.replyType, fields.cmd]

structure SystemCmd extends CommandFields where
  bytes : Bytes := []

instance : Packet SystemCmd where
  size := 7
  hidLayer packet := packet.hidLayer
  packetLen packet := packet.packetLen
  setPacketLen packet value := { packet with packetLen := value }
  tail packet := packet.toCommandFields.tail ++ packet.bytes

structure BeginDownload extends CommandFields where
  fileSize : UInt32 := 0
  fileName : Bytes := []

instance : Packet BeginDownload where
  size := 11
  hidLayer packet := packet.hidLayer
  packetLen packet := packet.packetLen
  setPacketLen packet value := { packet with packetLen := value }
  tail packet := packet.toCommandFields.tail ++ leBytes 4 packet.fileSize.toNat ++ packet.fileName

structure ContinueDownload extends CommandFields where
  fileHandle : UInt8 := 0
  fileChunk : Bytes := []

instance : Packet ContinueDownload where
  size := 8
  hidLayer packet := packet.hidLayer
  packetLen packet := packet.packetLen
  setPacketLen packet value := { packet with packetLen := value }
  tail packet := packet.toCommandFields.tail ++ packet.fileHandle :: packet.fileChunk

/-- `BEGIN_UPLOAD` and `LIST_FILES`: the two requests that name a path and bound the reply. -/
structure PathRequest extends CommandFields where
  maxBytes : UInt16 := 0
  path : Bytes := []

instance : Packet PathRequest where
  size := 9
  hidLayer packet := packet.hidLayer
  packetLen packet := packet.packetLen
  setPacketLen packet value := { packet with packetLen := value }
  tail packet := packet.toCommandFields.tail ++ leBytes 2 packet.maxBytes.toNat ++ packet.path

structure ContinueUpload extends CommandFields where
  fileHandle : UInt8 := 0
  maxBytes : UInt16 := 0

instance : Packet ContinueUpload where
  size := 10
  hidLayer packet := packet.hidLayer
  packetLen packet := packet.packetLen
  setPacketLen packet value := { packet with packetLen := value }
  tail packet := packet.toCommandFields.tail ++ packet.fileHandle :: leBytes 2 packet.maxBytes.toNat

structure ContinueListFiles extends CommandFields where
  handle : UInt8 := 0
  listSize : UInt32 := 0

instance : Packet ContinueListFiles where
  size := 12
  hidLayer packet := packet.hidLayer
  packetLen packet := packet.packetLen
  setPacketLen packet value := { packet with packetLen := value }
  tail packet := packet.toCommandFields.tail ++ packet.handle :: leBytes 4 packet.listSize.toNat

structure CloseHandle extends CommandFields where
  handle : UInt8 := 0

instance : Packet CloseHandle where
  size := 8
  hidLayer packet := packet.hidLayer
  packetLen packet := packet.packetLen
  setPacketLen packet value := { packet with packetLen := value }
  tail packet := packet.toCommandFields.tail ++ [packet.handle]

/-- `FW_GETCRC32` and `FW_START_DOWNLOAD`: the two requests that name a region of the flash. -/
structure FlashRegion extends CommandFields where
  flashStart : UInt32 := 0
  flashLength : UInt32 := 0

instance : Packet FlashRegion where
  size := 15
  hidLayer packet := packet.hidLayer
  packetLen packet := packet.packetLen
  setPacketLen packet value := { packet with packetLen := value }
  tail packet := packet.toCommandFields.tail ++ leBytes 4 packet.flashStart.toNat ++
    leBytes 4 packet.flashLength.toNat

structure VmCmd where
  hidLayer : UInt8 := 0x00
  packetLen : UInt16 := 0
  msgCount : UInt16 := 0
  replyType : UInt8 := 0x00
  alloc : UInt16
  bytes : Bytes := []

instance : Packet VmCmd where
  size := 8
  hidLayer packet := packet.hidLayer
  packetLen packet := packet.packetLen
  setPacketLen packet value := { packet with packetLen := value }
  tail packet := leBytes 2 packet.msgCount.toNat ++ packet.replyType :: leBytes 2 packet.alloc.toNat ++
    packet.bytes

def beginDownloadInit : BeginDownload := { cmd := 0x92 }
def continueDownloadInit : ContinueDownload := { cmd := 0x93 }
def beginUploadInit : PathRequest := { cmd := 0x94 }
def continueUploadInit : ContinueUpload :=
  { packetLen := UInt16.ofNat (Packet.size ContinueUpload - prefixSize), cmd := 0x95 }
def listFilesInit : PathRequest := { cmd := 0x99 }
def continueListFilesInit : ContinueListFiles := { packetLen := 7, cmd := 0x9A }
def createDirInit : SystemCmd := { cmd := 0x9B }
def deleteFileInit : SystemCmd := { cmd := 0x9C }
def closeHandleInit : CloseHandle := { cmd := 0x98 }
def enterFwUpdateInit : SystemCmd := { replyType := 0x81, cmd := 0xA0 }
def fwGetVersionInit : SystemCmd := { cmd := 0xF6 }
def fwGetCrc32Init : FlashRegion := { cmd := 0xF5 }
def fwStartAppInit : SystemCmd := { cmd := 0xF4 }
def fwEraseFlashInit : SystemCmd := { cmd := 0xF3 }
def fwStartDownloadInit : FlashRegion := { cmd := 0xF1 }
def fwDownloadDataInit : SystemCmd := { cmd := 0xF2 }
def executeFileInit : VmCmd := { alloc := 0x0800 }

/-- `sizeof` of the reply structures. -/
def systemReplySize : Nat := 7
def beginDownloadReplySize : Nat := 8
def beginUploadReplySize : Nat := 12
def continueUploadReplySize : Nat := 8
def listFilesReplySize : Nat := 12
def continueListFilesReplySize : Nat := 8
def closeHandleReplySize : Nat := 8
def fwGetVersionReplySize : Nat := 15
def fwGetCrc32ReplySize : Nat := 11
def vmReplySize : Nat := 5

namespace Reply

def packetLen (reply : Reply) : Command UInt16 := reply.u16 0
def type (reply : Reply) : Command UInt8 := reply.u8 4
def ret (reply : Reply) : Command UInt8 := reply.u8 6

theorem type_run (reply : Reply) (session : Session) :
    reply.type session =
      (some (reply.memory 4), { session with peeks := session.peeks ++ [⟨5, reply.got⟩] }) := rfl

/-- `print_bytes(reply, len)`: the whole buffer up to `len` goes to the error stream. -/
def printBytes (reply : Reply) (len : Nat) : Command Unit := do
  let _ ← reply.peek 0 len
  return ()

end Reply

/-- The brick refused: report the reply's error code, print `packetLen + more` bytes of the reply. -/
def denied (reply : Reply) (more : Nat) (message : String) : Command Err := do
  let ret ← reply.ret
  setErrno ret.toNat
  let len ← reply.packetLen
  reply.printBytes (len.toNat + more)
  failWith message .vm

/-- The step every command makes: write a request, read the reply.  Either an error was already reported,
or there is a reply to judge. -/
def transact (buf : Bytes) (count : Nat) (writeError : String) (reply : Reply) (size : Nat)
    (milliseconds : Int) (readError : String) : Command (Except Err Reply) := do
  let res ← ev3Write buf count
  if res < 0 then do
    setErrmsg writeError
    return .error .comm
  else do
    let (res, reply) ← ev3ReadTimeout reply size milliseconds
    if res ≤ 0 then do
      setErrmsg readError
      return .error .comm
    else return .ok reply

def exchange {τ : Type} [Packet τ] (request : τ) (writeError : String) (reply : Reply) (size : Nat)
    (milliseconds : Int) (readError : String) : Command (Except Err Reply) :=
  transact (Packet.toBytes request) (Packet.count request) writeError reply size milliseconds readError

section Transact

variable {buf : Bytes} {count size : Nat} {writeError readError : String} {reply : Reply}
  {milliseconds : Int} {session : Session}

def Session.afterTransact (session : Session) (buf : Bytes) (count size : Nat) (milliseconds : Int) : Session :=
  (session.afterWrite buf count).afterRead size milliseconds

@[simp] theorem Session.afterTransact_log :
    (session.afterTransact buf count size milliseconds).log = session.log ++
      [.write (buf.take count) count session.writeResult, .read size milliseconds session.readResult] := by
  simp only [afterTransact, afterRead, afterWrite, List.append_assoc, List.cons_append, List.nil_append]
  rfl

/-- Everything one step can do. -/
theorem transact_run :
    transact buf count writeError reply size milliseconds readError session =
      if session.writeResult < 0 then
        (some (.error .comm), { session.afterWrite buf count with errmsg := some writeError })
      else if session.readResult.res ≤ 0 then
        (some (.error .comm), { session.afterTransact buf count size milliseconds with
          errmsg := some readError })
      else (some (.ok (reply.receive session.readResult)),
        session.afterTransact buf count size milliseconds) := by
  rw [transact, Proc.bind_returned (ev3Write_run buf count session)]
  by_cases refused : session.writeResult < 0
  · rw [if_pos refused, if_pos refused]
    rfl
  · have answered : ev3ReadTimeout reply size milliseconds (session.afterWrite buf count) =
        (some (session.readResult.res, reply.receive session.readResult),
          session.afterTransact buf count size milliseconds) := rfl
    rw [if_neg refused, if_neg refused, Proc.bind_returned answered]
    by_cases silent : session.readResult.res ≤ 0
    · simp only [if_pos silent]
      rfl
    · simp only [if_neg silent]
      rfl

theorem transact_answered (session : Session) (written : 0 ≤ session.writeResult)
    (read : 0 < session.readResult.res) :
    transact buf count writeError reply size milliseconds readError session =
      (some (.ok (reply.receive session.readResult)),
        session.afterTransact buf count size milliseconds) := by
  rw [transact_run, if_neg (by omega), if_neg (by omega)]

theorem transact_failed (buf : Bytes) (count : Nat) (writeError : String) (reply : Reply) (size : Nat)
    (milliseconds : Int) (readError : String) (session : Session)
    (failed : ¬ (0 ≤ session.writeResult ∧ 0 < session.readResult.res)) :
    ∃ after, transact buf count writeError reply size milliseconds readError session =
      (some (.error .comm), after) := by
  rw [transact_run]
  split
  · exact ⟨_, rfl⟩
  · rw [if_pos (by omega)]
    exact ⟨_, rfl⟩

end Transact

section Exchange

variable {τ : Type} [Packet τ] {request : τ} {writeError readError : String} {reply : Reply}
  {size : Nat} {milliseconds : Int} {session : Session}

def Session.afterExchange (session : Session) (request : τ) (size : Nat) (milliseconds : Int) : Session :=
  session.afterTransact (Packet.toBytes request) (Packet.count request) size milliseconds

@[simp] theorem Session.afterExchange_log :
    (session.afterExchange request size milliseconds).log = session.log ++
      [.write (Packet.handed request) (Packet.count request)
        session.writeResult, .read size milliseconds session.readResult] :=
  Session.afterTransact_log

theorem exchange_run :
    exchange request writeError reply size milliseconds readError session =
      if session.writeResult < 0 then
        (some (.error .comm), { session.afterWrite (Packet.toBytes request) (Packet.count request) with
          errmsg := some writeError })
      else if session.readResult.res ≤ 0 then
        (some (.error .comm), { session.afterExchange request size milliseconds with
          errmsg := some readError })
      else (some (.ok (reply.receive session.readResult)),
        session.afterExchange request size milliseconds) :=
  transact_run

theorem exchange_answered (session : Session) (written : 0 ≤ session.writeResult)
    (read : 0 < session.readResult.res) :
    exchange request writeError reply size milliseconds readError session =
      (some (.ok (reply.receive session.readResult)),
        session.afterExchange request size milliseconds) :=
  transact_answered session written read

theorem exchange_failed (request : τ) (writeError : String) (reply : Reply) (size : Nat) (milliseconds : Int)
    (readError : String) (session : Session)
    (failed : ¬ (0 ≤ session.writeResult ∧ 0 < session.readResult.res)) :
    ∃ after, exchange request writeError reply size milliseconds readError session =
      (some (.error .comm), after) :=
  transact_failed _ _ writeError reply size milliseconds readError session failed

end Exchange

def Event.written : Event → Option (Bytes × Nat)
  | .write packet count _ => some (packet, count)
  | .read .. => none

/-- The packets handed over, taken or not. -/
def packetsOf (log : List Event) : List Bytes := log.filterMap fun event => event.written.map Prod.fst

theorem packetsOf_append (early late : List Event) : packetsOf (early ++ late) = packetsOf early ++ packetsOf late :=
  List.filterMap_append

theorem exchange_hands {τ : Type} [Packet τ] (request : τ) (writeError : String) (reply : Reply) (size : Nat)
    (milliseconds : Int) (readError : String) (session : Session) :
    packetsOf (exchange request writeError reply size milliseconds readError session).2.log =
      packetsOf session.log ++ [Packet.handed request] := by
  have written : packetsOf (session.afterWrite (Packet.toBytes request) (Packet.count request)).log =
      packetsOf session.log ++ [Packet.handed request] := by
    rw [Session.afterWrite_log, packetsOf_append]
    rfl
  have both : packetsOf (session.afterExchange request size milliseconds).log =
      packetsOf session.log ++ [Packet.handed request] := by
    rw [Session.afterExchange_log, packetsOf_append]
    rfl
  rw [exchange_run]
  split
  · exact written
  · split
    · exact both
    · exact both

theorem exchange_output {τ : Type} [Packet τ] (request : τ) (writeError : String) (reply : Reply) (size : Nat)
    (milliseconds : Int) (readError : String) (session : Session) :
    (exchange request writeError reply size milliseconds readError session).2.output = session.output := by
  rw [exchange_run]
  split
  · rfl
  · split <;> rfl

def Event.answer : Event → Option ReadResult
  | .write .. => none
  | .read _ _ result => some result

/-- The type byte a read delivered, if it delivered that many bytes. -/
def ReadResult.type (result : ReadResult) : Option UInt8 := result.stored[4]?

theorem ReadResult.type_eq {result : ReadResult} (reply : Reply) (full : 4 < result.stored.length) :
    result.type = some ((reply.receive result).memory 4) := by
  have delivered : result.stored[4]? = some result.stored[4] := List.getElem?_eq_getElem full
  rw [Reply.receive_delivered delivered]
  exact delivered

/-- The first `count` requests are taken, and each of the first `count` reads brings something good. -/
def AnsweredBy (good : ReadResult → Prop) (writes : List Int) (reads : List ReadResult) (count : Nat) : Prop :=
  ∀ index, index < count → 0 ≤ writes.getD index (-1) ∧ good (reads.getD index (.received []))

theorem answeredBy_zero (good : ReadResult → Prop) (writes : List Int) (reads : List ReadResult) :
    AnsweredBy good writes reads 0 := by
  intro index bound
  omega

theorem answeredBy_succ {good : ReadResult → Prop} {writes : List Int} {reads : List ReadResult} {count : Nat} :
    AnsweredBy good writes reads (count + 1) ↔
      (0 ≤ writes.headD (-1) ∧ good (reads.headD (.received []))) ∧
        AnsweredBy good writes.tail reads.tail count := by
  rw [List.headD_eq_getD, List.headD_eq_getD]
  constructor
  · intro answered
    refine ⟨answered 0 (by omega), ?_⟩
    intro index bound
    rw [tail_getD, tail_getD]
    exact answered (index + 1) (by omega)
  · rintro ⟨first, others⟩ index bound
    cases index with
    | zero => exact first
    | succ index =>
        rw [← tail_getD, ← tail_getD reads]
        exact others index (by omega)

theorem answeredBy_replicate {good : ReadResult → Prop} {res : Int} {result : ReadResult} {count : Nat}
    (written : 0 ≤ res) (answered : good result) :
    AnsweredBy good (List.replicate count res) (List.replicate count result) count := by
  intro index bound
  rw [List.getD_eq_getElem?_getD, List.getD_eq_getElem?_getD, List.getElem?_replicate_of_lt bound,
    List.getElem?_replicate_of_lt bound]
  exact ⟨written, answered⟩

abbrev Answered : List Int → List ReadResult → Nat → Prop := AnsweredBy fun result => 0 < result.res

end Ev3duder
