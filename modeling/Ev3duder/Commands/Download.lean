import Ev3duder.Packets

namespace Ev3duder

open Data

/-! # `dl` and `ls`: a file or a listing is fetched from the brick

The two commands are one procedure with different requests and texts: a first reply that announces the size
and carries the first part, then one reply with a shorter header for each further request.
-/

structure Retrieval where
  init : PathRequest
  maxBytes : UInt16
  fileChunksz : Nat
  opening : String
  continuing : String
  /-- The bytes of the request for more, and its `sizeof`. -/
  more : UInt8 → Bytes
  moreSize : Nat

/-- `dl`'s CHUNK_SIZE. -/
def dlChunkSize : Nat := 1000

def continueUpload (fileHandle : UInt8) : ContinueUpload :=
  { continueUploadInit with
    fileHandle
    maxBytes := UInt16.ofNat (dlChunkSize + beginUploadReplySize - continueUploadReplySize) }

def continueListFiles (handle : UInt8) : ContinueListFiles :=
  { continueListFilesInit with
    handle
    listSize := UInt32.ofNat (1024 - continueListFilesReplySize) }

def dlRetrieval : Retrieval where
  init := beginUploadInit
  maxBytes := UInt16.ofNat dlChunkSize
  fileChunksz := beginUploadReplySize + dlChunkSize
  opening := "BEGIN_UPLOAD"
  continuing := "CONTINUE_UPLOAD"
  more handle := Packet.toBytes (continueUpload handle)
  moreSize := Packet.size ContinueUpload

def lsRetrieval : Retrieval where
  init := listFilesInit
  maxBytes := UInt16.ofNat (1024 - listFilesReplySize)
  fileChunksz := 1024
  opening := "LIST_FILES"
  continuing := "CONTINUE_LIST_FILES"
  more handle := Packet.toBytes (continueListFiles handle)
  moreSize := Packet.size ContinueListFiles

/-- The length of the payload of the first reply: `packetLen + 2 - (unsigned) offsetof(.., bytes)`. -/
def openingSize (packetLen : UInt16) : UInt32 := packetLen.toUInt32 + 2 - UInt32.ofNat beginUploadReplySize

def continuingSize (packetLen : UInt16) : UInt64 :=
  packetLen.toUInt64 + 2 - UInt64.ofNat continueUploadReplySize

/-- Judge and use a later reply: the length of its payload and the handle it carries. -/
def continuingReply (kind : Retrieval) (reply : Reply) : Command (Except Err (UInt64 × UInt8)) := do
  let type ← reply.type
  if type = vmError then do
    let err ← denied reply 0 ("`" ++ kind.continuing ++ "` was denied.")
    return .error err
  else do
    let packetLen ← reply.packetLen
    let readThisTime := continuingSize packetLen
    let bytes ← reply.peek continueUploadReplySize readThisTime.toNat
    fwrite bytes
    let handle ← reply.u8 7
    return .ok (readThisTime, handle)

theorem transact_reads {buf : Bytes} {count size : Nat} {writeError readError : String} {reply got : Reply}
    {milliseconds : Int} {session after : Session}
    (answered : transact buf count writeError reply size milliseconds readError session =
      (some (.ok got), after)) : after.reads.length < session.reads.length := by
  rw [transact_run] at answered
  split at answered
  · cases answered
  · split at answered
    · cases answered
    · rename_i read
      cases answered
      exact Session.reads_shorter (Int.not_le.mp read)

theorem continuingReply_reads {kind : Retrieval} {reply : Reply} {session after : Session}
    {result : Option (Except Err (UInt64 × UInt8))}
    (ran : continuingReply kind reply session = (result, after)) : after.reads = session.reads := by
  rw [continuingReply, Proc.bind_returned (reply.type_run session)] at ran
  split at ran
  · cases ran
    rfl
  · cases ran
    rfl

/-- The loop goes on while less was read than was announced.  Each pass uses up a reply, so it ends. -/
def retrieveLoop (kind : Retrieval) (handle : UInt8) (reply : Reply) (readSoFar total : UInt32) : Command Err :=
  fun session =>
    if readSoFar < total then
      match _asked : transact (kind.more handle) kind.moreSize ("Unable to write " ++ kind.continuing) reply
          kind.fileChunksz timeout ("Unable to read " ++ kind.continuing ++ "_REPLY") session with
      | (none, after) => (none, after)
      | (some (.error err), after) => (some err, after)
      | (some (.ok reply), after) =>
          match _used : continuingReply kind reply after with
          | (none, last) => (none, last)
          | (some (.error err), last) => (some err, last)
          | (some (.ok (readThisTime, handle)), last) =>
              retrieveLoop kind handle reply (readSoFar + readThisTime.toUInt32) total last
    else failWith ("`" ++ kind.opening ++ "` was successful.") .unk session
termination_by session => session.reads.length
decreasing_by
  rw [continuingReply_reads _used]
  exact transact_reads _asked

/-- What follows the accepted first reply. -/
def retrieveRest (kind : Retrieval) (reply : Reply) : Command Err := do
  let packetLen ← reply.packetLen
  let readSoFar := openingSize packetLen
  let bytes ← reply.peek beginUploadReplySize readSoFar.toNat
  fwrite bytes
  let total ← reply.u32 7
  let handle ← reply.u8 11
  retrieveLoop kind handle reply readSoFar total

def openingReply (kind : Retrieval) (reply : Reply) : Command Err := do
  let type ← reply.type
  if type = vmError then denied reply 0 ("`" ++ kind.opening ++ "` was denied.")
  else retrieveRest kind reply

def retrieve (kind : Retrieval) (path : CString) : Command Err := do
  match packetAlloc kind.init (path.bytes.length + 1) with
  | none => Proc.crash
  | some request => do
      let request := { request with path := path.bytes ++ [0], maxBytes := kind.maxBytes }
      let fileChunk ← malloc
      match ← exchange request ("Unable to write " ++ kind.opening ++ ".") ⟨fileChunk, 0⟩ kind.fileChunksz timeout
          ("Unable to read " ++ kind.opening) with
      | .error err => return err
      | .ok reply => openingReply kind reply

def dl (path : CString) : Command Err := retrieve dlRetrieval path

def ls (path : CString) : Command Err := retrieve lsRetrieval path

end Ev3duder
